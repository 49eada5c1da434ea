import VirtualPrinter.Program.Basic

/-!
# Printed length and duration

A job takes the time to cover the printed length at a constant feed rate. A floor under the feed
rate keeps the division finite, and a floor under the result keeps every job at one second or more.
-/

namespace VirtualPrinter

/-- The least feed rate that is divided by, in millimetres per second. -/
def leastFeed : Binary64 := .ofDecimal false 1 (-6)

/-- The least duration of a job, in milliseconds. -/
def leastDuration : Binary64 := 1000

namespace Program

def printedLength (p : Program) : Binary64 :=
  p.printed.foldl (fun total s => total + s.length) 0

/-- The estimated duration in milliseconds at a feed rate in millimetres per minute. -/
def duration (p : Program) (feedRate : Binary64) : Binary64 :=
  let speed := Binary64.larger leastFeed (feedRate / 60)
  Binary64.larger leastDuration (p.printedLength / speed * 1000)

end Program

/-! ### Durations in words -/

/-- Hours, minutes and seconds; leading fields that are zero are left out. -/
def spellSeconds (seconds : Nat) : String :=
  let h := seconds / 3600
  let m := seconds % 3600 / 60
  let s := seconds % 60
  if 0 < h then s!"{h}h {m}m {s}s"
  else if 0 < m then s!"{m}m {s}s"
  else s!"{s}s"

/-- The text of a duration in seconds, its fraction cut off; nothing is below zero, and
not-a-number counts as zero. An infinite duration is a fault. -/
def spellDuration (seconds : Binary64) : Except Binary64.IntegerFault String :=
  (Binary64.larger 0 seconds).truncate.map fun whole => spellSeconds whole.toNat

end VirtualPrinter
