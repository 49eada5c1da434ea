import VirtualPrinter.Program.Duration
import VirtualPrinter.Proofs.Binary64.Nonneg
import VirtualPrinter.Proofs.Program.Layers

/-!
# The estimate of a duration

Whatever the coordinates and the feed rate are, an estimate is a number of at least one second, and
travel has no part in it. Where coordinates are finite, a longer program never has a shorter
estimate and a greater feed rate never a longer one, although lengths and quotients are rounded and
may overflow.
-/

namespace VirtualPrinter

open Binary64

attribute [local irreducible] Binary64.ofNat

/-! ### Durations -/

theorem lt_zero_leastDuration : Binary64.lt 0 leastDuration = true := by decide +kernel

theorem leastDuration_ne_nan : leastDuration ≠ nan := ne_nan_of_lt lt_zero_leastDuration

theorem leastDuration_le (p : Program) (feedRate : Binary64) :
    leastDuration.le (p.duration feedRate) = true :=
  le_larger_left leastDuration_ne_nan

theorem duration_pos (p : Program) (feedRate : Binary64) :
    Binary64.lt 0 (p.duration feedRate) = true :=
  lt_of_lt_of_le lt_zero_leastDuration (leastDuration_le p feedRate)

/-- The speed that a job is estimated with at a feed rate. -/
def speedAt (feedRate : Binary64) : Binary64 := larger leastFeed (feedRate / 60)

/-- The time for a length at a speed, but no less than the least duration. -/
def timeFor (length speed : Binary64) : Binary64 := larger leastDuration (length / speed * 1000)

theorem duration_eq (p : Program) (feedRate : Binary64) :
    p.duration feedRate = timeFor p.printedLength (speedAt feedRate) := rfl

variable {length longer speed slow fast : Binary64}

theorem lt_zero_leastFeed : Binary64.lt 0 leastFeed = true := by decide +kernel

theorem speedAt_pos (feedRate : Binary64) : Binary64.lt 0 (speedAt feedRate) = true :=
  lt_of_lt_of_le lt_zero_leastFeed (le_larger_left (ne_nan_of_lt lt_zero_leastFeed))

theorem speedAt_mono (h : slow.le fast = true) : (speedAt slow).le (speedAt fast) = true := by
  have hquotient := div_mono (z := 60) (by decide +kernel) (by decide +kernel) h
  exact larger_mono (ne_nan_of_lt lt_zero_leastFeed) (Or.inr hquotient)

theorem timeFor_mono (h : (length / slow).le (longer / fast) = true) :
    (timeFor length slow).le (timeFor longer fast) = true := by
  have hproduct := mul_mono (z := 1000) (by decide +kernel) (by decide +kernel) h
  exact larger_mono leastDuration_ne_nan (Or.inr hproduct)

/- At an infinite speed nothing is left but the least duration, for infinite lengths as well, whose
quotient is not a number. -/
theorem timeFor_highest (length : Binary64) : timeFor length (infinity false) = leastDuration := by
  unfold timeFor
  rcases div_highest length with hnan | ⟨negative, hzero⟩
  · rw [hnan]
    decide +kernel
  · rw [hzero]
    cases negative <;> decide +kernel

theorem timeFor_le_of_length (hspeed : Binary64.lt 0 speed = true) (h : length.le longer = true) :
    (timeFor length speed).le (timeFor longer speed) = true := by
  by_cases hfast : speed = infinity false
  · rw [hfast, timeFor_highest, timeFor_highest]
    exact le_refl_of_ne_nan leastDuration_ne_nan
  · exact timeFor_mono (div_mono (isFinite_of_pos hspeed hfast) hspeed h)

theorem timeFor_le_of_speed (hlength : Binary64.le 0 length = true)
    (hslow : Binary64.lt 0 slow = true) (h : slow.le fast = true) :
    (timeFor length fast).le (timeFor length slow) = true := by
  by_cases hfast : fast = infinity false
  · rw [hfast, timeFor_highest]
    exact le_larger_left leastDuration_ne_nan
  · have hfinite := isFinite_of_pos (lt_of_lt_of_le hslow h) hfast
    exact timeFor_mono (div_anti hlength hslow hfinite h)

/-! ### Lengths -/

/-- All coordinates are finite. -/
structure Point.Finite (q : Point) : Prop where
  x : q.x.isFinite = true
  y : q.y.isFinite = true
  z : q.z.isFinite = true

instance (q : Point) : Decidable q.Finite :=
  decidable_of_iff (q.x.isFinite = true ∧ q.y.isFinite = true ∧ q.z.isFinite = true)
    ⟨fun h => ⟨h.1, h.2.1, h.2.2⟩, fun h => ⟨h.x, h.y, h.z⟩⟩

/- No difference of finite coordinates is not a number, so that every square counts. -/
theorem Segment.zero_le_length {s : Segment} (hstart : s.start.Finite) (hstop : s.stop.Finite) :
    Binary64.le 0 s.length = true := by
  have hx := zero_le_mul_self (sub_ne_nan hstop.x hstart.x)
  have hy := zero_le_mul_self (sub_ne_nan hstop.y hstart.y)
  have hz := zero_le_mul_self (sub_ne_nan hstop.z hstart.z)
  exact zero_le_sqrt (zero_le_add (zero_le_add hx hy) hz)

/- The total so far is the invariant: it is not negative, so no length takes it down. -/
theorem le_totalLength {segments : List Segment} {total : Binary64}
    (h : ∀ s ∈ segments, Binary64.le 0 s.length = true) (htotal : Binary64.le 0 total = true) :
    total.le (segments.foldl (fun total s => total + s.length) total) = true := by
  induction segments generalizing total with
  | nil => exact le_refl_of_ne_nan (ne_nan_of_le htotal)
  | cons s segments ih =>
    have hlength := h s List.mem_cons_self
    have hrest := ih (fun r hr => h r (List.mem_cons_of_mem _ hr)) (zero_le_add htotal hlength)
    exact le_trans (le_add htotal hlength) hrest

/-- Travel is put in or left out anywhere. -/
inductive SameMaterial : List Segment → List Segment → Prop
  | nil : SameMaterial [] []
  | kept (s : Segment) {segments others : List Segment} (h : SameMaterial segments others) :
      SameMaterial (s :: segments) (s :: others)
  | inserted {s : Segment} {segments others : List Segment} (hs : s.extrudes = false)
      (h : SameMaterial segments others) : SameMaterial segments (s :: others)
  | deleted {s : Segment} {segments others : List Segment} (hs : s.extrudes = false)
      (h : SameMaterial segments others) : SameMaterial (s :: segments) others

theorem SameMaterial.filter_eq {segments others : List Segment}
    (h : SameMaterial segments others) :
    others.filter (·.extrudes) = segments.filter (·.extrudes) := by
  induction h with
  | nil => rfl
  | kept s h ih => rw [List.filter_cons, List.filter_cons, ih]
  | inserted hs h ih => rw [List.filter_cons_of_neg (Bool.eq_false_iff.1 hs), ih]
  | deleted hs h ih => rw [List.filter_cons_of_neg (Bool.eq_false_iff.1 hs), ih]

namespace Program

variable {p q : Program}

/-- All coordinates of all segments are finite. -/
def Finite (p : Program) : Prop := ∀ q ∈ points p.segments, q.Finite

instance (p : Program) : Decidable p.Finite :=
  inferInstanceAs (Decidable (∀ q ∈ points p.segments, q.Finite))

theorem Finite.zero_le_length (h : p.Finite) :
    ∀ s ∈ p.printed, Binary64.le 0 s.length = true := by
  intro s hs
  have hmem := (List.mem_filter.1 hs).1
  exact Segment.zero_le_length (h _ (mem_points.2 ⟨s, hmem, Or.inl rfl⟩))
    (h _ (mem_points.2 ⟨s, hmem, Or.inr rfl⟩))

theorem zero_le_printedLength (h : p.Finite) : Binary64.le 0 p.printedLength = true :=
  le_totalLength h.zero_le_length zero_le_zero

theorem printedLength_le_append (hp : p.Finite) (hq : q.Finite) :
    p.printedLength.le (p ++ q).printedLength = true := by
  have htotal := le_totalLength hq.zero_le_length (zero_le_printedLength hp)
  rw [printedLength, printedLength, printed_append, List.foldl_append]
  exact htotal

theorem printedLength_of_sameMaterial (h : SameMaterial p.segments q.segments) :
    q.printedLength = p.printedLength := by
  rw [printedLength, printedLength, printed, printed, h.filter_eq]

/-! ### Estimates -/

/-- An estimate is a number of at least one second. It is the same with travel put in or left out.
Where coordinates are finite, the printed length is a number that is not negative, appended segments
take neither it nor the estimate down, and a greater feed rate does not take the estimate up. -/
theorem estimate_wellBehaved (p : Program) :
    (∀ feed, p.duration feed ≠ nan ∧ Binary64.le 1000 (p.duration feed) = true) ∧
      (∀ q : Program, SameMaterial p.segments q.segments →
        q.printedLength = p.printedLength ∧ ∀ feed, q.duration feed = p.duration feed) ∧
      (p.Finite →
        (p.printedLength ≠ nan ∧ Binary64.le 0 p.printedLength = true) ∧
          (∀ q : Program, q.Finite →
            p.printedLength.le (p ++ q).printedLength = true ∧
              ∀ feed, (p.duration feed).le ((p ++ q).duration feed) = true) ∧
          ∀ slow fast : Binary64, slow.le fast = true →
            (p.duration fast).le (p.duration slow) = true) := by
  refine ⟨fun feed => ?_, fun q hsame => ?_, fun hp => ⟨?_, fun q hq => ?_, ?_⟩⟩
  · exact ⟨ne_nan_of_lt (duration_pos p feed), leastDuration_le p feed⟩
  · have hlength := printedLength_of_sameMaterial hsame
    refine ⟨hlength, fun feed => ?_⟩
    rw [duration_eq, duration_eq, hlength]
  · have hlength := zero_le_printedLength hp
    exact ⟨ne_nan_of_le hlength, hlength⟩
  · have hlength := printedLength_le_append hp hq
    exact ⟨hlength, fun feed => timeFor_le_of_length (speedAt_pos feed) hlength⟩
  · intro slow fast hfeed
    exact timeFor_le_of_speed (zero_le_printedLength hp) (speedAt_pos slow) (speedAt_mono hfeed)

/- A length overflows, so that at an infinite feed rate its quotient is not a number. -/
theorem estimate_wellBehaved_overflow :
    let far : Point := ⟨.ofDecimal false 1 308, 0, 0⟩
    let p : Program := ⟨[⟨⟨0, 0, 0⟩, ⟨3, 4, 0⟩, true⟩]⟩
    let q : Program := ⟨[⟨⟨3, 4, 0⟩, far, true⟩]⟩
    let r : Program := ⟨⟨far, ⟨0, 0, 0⟩, false⟩ :: p.segments⟩
    p.Finite ∧ q.Finite ∧ (p ++ q).Finite ∧ SameMaterial p.segments r.segments ∧
      p.printedLength = 5 ∧ (p ++ q).printedLength = infinity false ∧
      (infinity false / speedAt (infinity false)) = nan ∧ p.duration nan ≠ nan ∧
      r.duration 600 = p.duration 600 ∧ (p.duration 600).le ((p ++ q).duration 600) = true ∧
      ((p ++ q).duration (infinity false)).le ((p ++ q).duration 600) = true := by
  intro far p q r
  have hp : p.Finite := by decide +kernel
  have hq : q.Finite := by decide +kernel
  have hpq : (p ++ q).Finite := by decide +kernel
  have hr : SameMaterial p.segments r.segments := .inserted rfl (.kept _ .nil)
  have hfeed : Binary64.le 600 (infinity false) = true := by decide +kernel
  obtain ⟨hnumber, htravel, hfinite⟩ := estimate_wellBehaved p
  obtain ⟨-, -, hlong⟩ := estimate_wellBehaved (p ++ q)
  exact ⟨hp, hq, hpq, hr, by decide +kernel, by decide +kernel, by decide +kernel,
    (hnumber nan).1, (htravel r hr).2 600, ((hfinite hp).2.1 q hq).2 600,
    (hlong hpq).2.2 600 (infinity false) hfeed⟩

end Program

end VirtualPrinter
