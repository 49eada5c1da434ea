import Mathlib.Data.Rat.Floor
import VirtualPrinter.Program.Duration
import VirtualPrinter.Proofs.Binary64.Digits
import VirtualPrinter.Proofs.Binary64.SixDigits
import VirtualPrinter.Proofs.Binary64.Whole
import VirtualPrinter.Proofs.GCode.Numerals

/-!
# Durations read back

The text of a duration has one to three fields, each a number with the letter of its unit behind it,
and a blank between two. A reader takes them in the order hours, minutes, seconds, where the first
ones may be absent. What it reads is the whole part of the duration, so nothing but the fraction is
lost by spelling it.
-/

namespace VirtualPrinter

open Binary64

/-! ### The reader -/

/-- The fields of a spelled duration, of which the seconds are always there. -/
structure SpelledTime where
  hours : Option Nat
  minutes : Option Nat
  seconds : Nat
deriving DecidableEq

namespace SpelledTime

/-- The number at the start of a text with the letter of a unit behind it, and what follows. -/
def readField? (unit : Char) (text : List Char) : Option (Nat × List Char) :=
  match text.takeWhile Char.isDigit, text.dropWhile Char.isDigit with
  | first :: digits, letter :: rest =>
    if letter = unit then some (digitsValue (first :: digits), rest) else none
  | _, _ => none

/-- A field that a blank parts from the fields after it; when there is none, nothing is taken. -/
def readLeading (unit : Char) (text : List Char) : Option Nat × List Char :=
  match readField? unit text with
  | some (value, ' ' :: rest) => (some value, rest)
  | _ => (none, text)

def read? (text : String) : Option SpelledTime :=
  let (hours, later) := readLeading 'h' text.toList
  let (minutes, last) := readLeading 'm' later
  match readField? 's' last with
  | some (seconds, []) => some { hours, minutes, seconds }
  | _ => none

/-- The duration in seconds; absent fields count as zero. -/
def total (t : SpelledTime) : Nat := 3600 * t.hours.getD 0 + 60 * t.minutes.getD 0 + t.seconds

/-- A field of a duration that reaches its unit. -/
def field? (unit value seconds : Nat) : Option Nat := if unit ≤ seconds then some value else none

def ofSeconds (seconds : Nat) : SpelledTime where
  hours := field? 3600 (seconds / 3600) seconds
  minutes := field? 60 (seconds % 3600 / 60) seconds
  seconds := seconds % 60

variable {n : Nat} {unit letter : Char} {rest : List Char}

/-! ### Fields -/

theorem readField?_digits (n : Nat) (hletter : letter.isDigit = false) (rest : List Char) :
    readField? unit (decimalDigits n ++ letter :: rest) =
      if letter = unit then some (n, rest) else none := by
  have hdigits : ∀ c ∈ decimalDigits n, c.isDigit = true := fun _ => isDigit_of_mem_decimalDigits
  unfold readField?
  rw [GCode.takeWhile_of_stop hdigits hletter, GCode.dropWhile_of_stop hdigits hletter]
  cases hn : decimalDigits n with
  | nil => exact absurd hn Nat.toDigits_ne_nil
  | cons first digits =>
    dsimp only
    rw [← hn, digitsValue_decimalDigits]

theorem readLeading_present (n : Nat) (hunit : unit.isDigit = false) (rest : List Char) :
    readLeading unit (decimalDigits n ++ unit :: ' ' :: rest) = (some n, rest) := by
  simp only [readLeading, readField?_digits n hunit, if_true]

theorem readLeading_absent (n : Nat) (hletter : letter.isDigit = false) (hne : letter ≠ unit)
    (rest : List Char) :
    readLeading unit (decimalDigits n ++ letter :: rest) =
      (none, decimalDigits n ++ letter :: rest) := by
  rw [readLeading, readField?_digits n hletter, if_neg hne]

theorem readLast (n : Nat) : readField? 's' (decimalDigits n ++ ['s']) = some (n, []) := by
  rw [readField?_digits n (by decide), if_pos rfl]

/-! ### The three shapes -/

theorem read?_three (h m s : Nat) :
    read? s!"{h}h {m}m {s}s" = some ⟨some h, some m, s⟩ := by
  have htext : s!"{h}h {m}m {s}s".toList = decimalDigits h ++ 'h' :: ' ' ::
      (decimalDigits m ++ 'm' :: ' ' :: (decimalDigits s ++ ['s'])) := by
    simp only [String.toList_append, toList_toString, List.append_assoc]
    rfl
  simp only [read?, htext, readLeading_present _ (by decide : 'h'.isDigit = false),
    readLeading_present _ (by decide : 'm'.isDigit = false), readLast]

theorem read?_two (m s : Nat) : read? s!"{m}m {s}s" = some ⟨none, some m, s⟩ := by
  have htext : s!"{m}m {s}s".toList =
      decimalDigits m ++ 'm' :: ' ' :: (decimalDigits s ++ ['s']) := by
    simp only [String.toList_append, toList_toString, List.append_assoc]
    rfl
  simp only [read?, htext, readLeading_absent _ (by decide : 'm'.isDigit = false)
      (by decide : 'm' ≠ 'h'),
    readLeading_present _ (by decide : 'm'.isDigit = false), readLast]

theorem read?_one (s : Nat) : read? s!"{s}s" = some ⟨none, none, s⟩ := by
  have htext : s!"{s}s".toList = decimalDigits s ++ ['s'] := by
    simp only [String.toList_append, toList_toString]
    rfl
  simp only [read?, htext, readLeading_absent _ (by decide : 's'.isDigit = false)
      (by decide : 's' ≠ 'h'),
    readLeading_absent _ (by decide : 's'.isDigit = false) (by decide : 's' ≠ 'm'), readLast]

theorem read?_spellSeconds (n : Nat) : read? (spellSeconds n) = some (ofSeconds n) := by
  simp only [spellSeconds, ofSeconds, field?]
  by_cases hhours : 3600 ≤ n
  · rw [if_pos (by omega : 0 < n / 3600), if_pos hhours, if_pos (by omega), read?_three]
  · rw [if_neg (by omega : ¬ 0 < n / 3600), if_neg hhours]
    by_cases hminutes : 60 ≤ n
    · rw [if_pos (by omega : 0 < n % 3600 / 60), if_pos hminutes, read?_two]
    · rw [if_neg (by omega : ¬ 0 < n % 3600 / 60), if_neg hminutes, read?_one]

theorem total_ofSeconds (n : Nat) : (ofSeconds n).total = n := by
  simp only [total, ofSeconds, field?]
  split <;> split <;> simp only [Option.getD_some, Option.getD_none] <;> omega

theorem field?_eq_none_iff {unit value : Nat} : field? unit value n = none ↔ n < unit := by
  simp [field?]

theorem minutes_lt {minutes : Nat} (h : (ofSeconds n).minutes = some minutes) : minutes < 60 := by
  have hminutes := Option.some.inj (Option.ite_none_right_eq_some.1 h).2
  omega

end SpelledTime

/-! ### Whole parts -/

variable {x y : Binary64}

/-- The whole part of a value, where everything below zero counts as zero. -/
def wholeSeconds (x : Binary64) : Nat := ⌊max 0 x.toRat⌋₊

theorem truncate_larger_zero (hx : x.isFinite = true) :
    (larger 0 x).truncate = .ok (wholeSeconds x : Int) := by
  have hzero : (0 : Binary64).IsWhole 0 := isWhole_ofNat (n := 0) (by omega)
  unfold larger
  split
  next hpos =>
    have hrat := toRat_pos hx hpos
    obtain ⟨m, rfl, -⟩ := exists_of_pos hx hpos
    change Except.ok ((m.units : Int).tdiv unitsPerOne) = _
    rw [wholeSeconds, max_eq_right hrat.le, toRat, signedUnits_false, Int.cast_natCast,
      Rat.natFloor_natCast_div_natCast]
    rfl
  next hpos =>
    have hrat : x.toRat ≤ 0 := by
      rw [lt_iff_toRat hzero.isFinite hx, hzero.toRat_eq, Int.cast_zero] at hpos
      exact not_lt.1 hpos
    have hunits : (0 : Binary64).units? = .ok 0 := by
      rw [hzero, Int.zero_mul]
    rw [wholeSeconds, max_eq_left hrat, Nat.floor_zero, truncate, hunits, Except.map,
      Int.zero_tdiv, Nat.cast_zero]

theorem spellDuration_eq (hx : x.isFinite = true) :
    spellDuration x = .ok (spellSeconds (wholeSeconds x)) := by
  rw [spellDuration, truncate_larger_zero hx]
  rfl

theorem spellSeconds_inj {n k : Nat} : spellSeconds n = spellSeconds k ↔ n = k := by
  constructor
  · intro h
    have hread := congrArg SpelledTime.read? h
    rw [SpelledTime.read?_spellSeconds, SpelledTime.read?_spellSeconds, Option.some.injEq] at hread
    rw [← SpelledTime.total_ofSeconds n, hread, SpelledTime.total_ofSeconds]
  · rintro rfl
    rfl

/-- Every finite duration can be spelled, and what is read back is its whole part: minutes and
seconds stay below sixty, a leading field is absent exactly when the duration does not reach its
unit, and durations with another whole part are spelled otherwise. -/
theorem spellDuration_readable (hx : x.isFinite = true) :
    ∃ text t, spellDuration x = .ok text ∧ SpelledTime.read? text = some t ∧
      t.total = wholeSeconds x ∧ t.seconds < 60 ∧
      (∀ minutes, t.minutes = some minutes → minutes < 60) ∧
      (t.hours = none ↔ wholeSeconds x < 3600) ∧ (t.minutes = none ↔ wholeSeconds x < 60) ∧
      ∀ y : Binary64, y.isFinite = true →
        (spellDuration y = .ok text ↔ wholeSeconds y = wholeSeconds x) := by
  refine ⟨_, _, spellDuration_eq hx, SpelledTime.read?_spellSeconds _,
    SpelledTime.total_ofSeconds _, Nat.mod_lt _ (by decide), fun _ => SpelledTime.minutes_lt,
    SpelledTime.field?_eq_none_iff, SpelledTime.field?_eq_none_iff, fun y hy => ?_⟩
  rw [spellDuration_eq hy, Except.ok.injEq, spellSeconds_inj]

/- A minute short of an hour and a half, with half a second that is lost. -/
theorem spellDuration_readable_hour :
    let x : Binary64 := ofRatio false 10681 2
    x.isFinite = true ∧ spellDuration x = .ok "1h 29m 0s" ∧
      SpelledTime.read? "1h 29m 0s" = some ⟨some 1, some 29, 0⟩ ∧ wholeSeconds x = 5340 ∧
      wholeSeconds 5340 = wholeSeconds x := by
  intro x
  have hfacts : x.isFinite = true ∧ (5340 : Binary64).isFinite = true ∧
      spellDuration x = .ok "1h 29m 0s" ∧ spellDuration 5340 = .ok "1h 29m 0s" ∧
      SpelledTime.read? "1h 29m 0s" = some ⟨some 1, some 29, 0⟩ := by
    decide +kernel
  obtain ⟨hx, hwhole, hspelled, hsame, hread⟩ := hfacts
  obtain ⟨text, t, htext, hfields, htotal, -, -, -, -, hiff⟩ := spellDuration_readable hx
  rw [hspelled, Except.ok.injEq] at htext
  subst htext
  rw [hread, Option.some.injEq] at hfields
  subst hfields
  exact ⟨hx, hspelled, hread, htotal.symm, (hiff 5340 hwhole).1 hsame⟩

end VirtualPrinter
