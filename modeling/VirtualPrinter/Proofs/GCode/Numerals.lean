import Mathlib.Data.List.TakeWhile
import VirtualPrinter.GCode.Line

/-!
# Numerals and their grammar

A numeral is an optional sign with digits, with digits around a point, or with a point and digits.
What is read at the start of a text is the longest numeral there, so that nothing is read exactly
where no numeral begins.
-/

namespace VirtualPrinter.GCode

open Text

/-! ### The grammar -/

def AllDigits (text : List Char) : Prop := ∀ c ∈ text, isAsciiDigit c = true

inductive SignText : Bool → List Char → Prop
  | minus : SignText true ['-']
  | plus : SignText false ['+']
  | absent : SignText false []

/-- The texts of digits before and after a point: digits alone, or a point with digits behind it
and maybe before it. -/
inductive UnsignedText : List Char → List Char → List Char → Prop
  | digits {whole : List Char} (hne : whole ≠ []) (hwhole : AllDigits whole) :
      UnsignedText whole [] whole
  | point {whole fraction : List Char} (hwhole : AllDigits whole) (hne : fraction ≠ [])
      (hfraction : AllDigits fraction) : UnsignedText whole fraction (whole ++ '.' :: fraction)

namespace Numeral

inductive WrittenAs : Numeral → List Char → Prop
  | intro {n : Numeral} {sign body : List Char} (hsign : SignText n.negative sign)
      (hbody : UnsignedText n.whole n.fraction body) : WrittenAs n (sign ++ body)

/-- A numeral at the start of a text, no other one there being longer. -/
def LongestIn (n : Numeral) (text : List Char) : Prop :=
  ∃ t, n.WrittenAs t ∧ t <+: text ∧ ∀ m s, WrittenAs m s → s <+: text → s.length ≤ t.length

end Numeral

/-! ### Digits -/

variable {whole fraction body rest text : List Char} {negative : Bool}

theorem allDigits_takeWhile (text : List Char) : AllDigits (text.takeWhile isAsciiDigit) :=
  fun _ hc => List.mem_takeWhile_imp hc

theorem takeWhile_of_stop {kind : Char → Bool} {before : List Char}
    (h : ∀ c ∈ before, kind c = true) {stop : Char} (hstop : kind stop = false) (rest : List Char) :
    (before ++ stop :: rest).takeWhile kind = before := by
  rw [List.takeWhile_append_of_pos h, List.takeWhile_cons_of_neg (Bool.eq_false_iff.1 hstop),
    List.append_nil]

theorem dropWhile_of_stop {kind : Char → Bool} {before : List Char}
    (h : ∀ c ∈ before, kind c = true) {stop : Char} (hstop : kind stop = false) (rest : List Char) :
    (before ++ stop :: rest).dropWhile kind = stop :: rest := by
  rw [List.dropWhile_append_of_pos h, List.dropWhile_cons_of_neg (Bool.eq_false_iff.1 hstop)]

theorem takeWhile_point (hwhole : AllDigits whole) (rest : List Char) :
    (whole ++ '.' :: rest).takeWhile isAsciiDigit = whole :=
  takeWhile_of_stop hwhole (by decide) rest

theorem dropWhile_point (hwhole : AllDigits whole) (rest : List Char) :
    (whole ++ '.' :: rest).dropWhile isAsciiDigit = '.' :: rest :=
  dropWhile_of_stop hwhole (by decide) rest

theorem UnsignedText.exists_head (h : UnsignedText whole fraction body) :
    ∃ c tail, body = c :: tail ∧ (isAsciiDigit c = true ∨ c = '.') := by
  cases h with
  | digits hne hwhole =>
    cases hbody : whole with
    | nil => contradiction
    | cons c tail => exact ⟨c, tail, rfl, Or.inl (hwhole c (by simp [hbody]))⟩
  | point hwhole hne hfraction =>
    cases hbody : whole with
    | nil => exact ⟨'.', fraction, rfl, Or.inr rfl⟩
    | cons c tail => exact ⟨c, _, rfl, Or.inl (hwhole c (by simp [hbody]))⟩

theorem UnsignedText.whole_prefix (h : UnsignedText whole fraction body) : whole <+: body := by
  cases h with
  | digits hne hwhole => exact List.prefix_rfl
  | point hwhole hne hfraction => exact List.prefix_append _ _

theorem UnsignedText.unique {other : List Char} (h : UnsignedText whole fraction body)
    (hother : UnsignedText whole fraction other) : body = other := by
  cases h with
  | digits hne hwhole =>
    cases hother with
    | digits _ _ => rfl
    | point _ hne _ => contradiction
  | point hwhole hne hfraction =>
    cases hother with
    | digits _ _ => contradiction
    | point _ _ _ => rfl

/-- The digits behind the point that a text begins with. -/
def fractionOf : List Char → List Char
  | '.' :: after => after.takeWhile isAsciiDigit
  | _ => []

theorem exists_of_fractionOf (h : fractionOf rest ≠ []) :
    ∃ after, rest = '.' :: after ∧ fractionOf rest = after.takeWhile isAsciiDigit := by
  unfold fractionOf at h ⊢
  split at h
  · exact ⟨_, rfl, rfl⟩
  · contradiction

/- The digits that are read make an unsigned numeral, if there are any. -/
theorem exists_unsignedText (h : ¬ (text.takeWhile isAsciiDigit = [] ∧
    fractionOf (text.dropWhile isAsciiDigit) = [])) :
    ∃ b, UnsignedText (text.takeWhile isAsciiDigit)
        (fractionOf (text.dropWhile isAsciiDigit)) b ∧ b <+: text := by
  have hsplit := List.takeWhile_append_dropWhile (p := isAsciiDigit) (l := text)
  by_cases hfraction : fractionOf (text.dropWhile isAsciiDigit) = []
  · rw [hfraction] at h ⊢
    have hwhole : text.takeWhile isAsciiDigit ≠ [] := fun hnil => h ⟨hnil, rfl⟩
    exact ⟨_, .digits hwhole (allDigits_takeWhile text), List.takeWhile_prefix _⟩
  · obtain ⟨after, hafter, heq⟩ := exists_of_fractionOf hfraction
    rw [heq] at hfraction ⊢
    refine ⟨_, .point (allDigits_takeWhile text) hfraction (allDigits_takeWhile after), ?_⟩
    refine ⟨after.dropWhile isAsciiDigit, ?_⟩
    simpa [hafter] using hsplit

/- No unsigned numeral at the start of a text is longer than what is read: a run of digits ends with
the digits of the text, and a point is only taken with the digits behind it. -/
theorem UnsignedText.exists_longer (h : UnsignedText whole fraction body) (rest : List Char) :
    ∃ b, UnsignedText ((body ++ rest).takeWhile isAsciiDigit)
        (fractionOf ((body ++ rest).dropWhile isAsciiDigit)) b ∧ b <+: body ++ rest ∧
      body.length ≤ b.length := by
  cases h with
  | digits hne hwhole =>
    have htake : (whole ++ rest).takeWhile isAsciiDigit =
        whole ++ rest.takeWhile isAsciiDigit := List.takeWhile_append_of_pos hwhole
    have hread : (whole ++ rest).takeWhile isAsciiDigit ≠ [] := by
      rw [htake]
      simp [hne]
    obtain ⟨b, hb, hbegins⟩ := exists_unsignedText fun h => hread h.1
    have hlength := hb.whole_prefix.length_le
    rw [htake, List.length_append] at hlength
    exact ⟨b, hb, hbegins, by omega⟩
  | point hwhole hne hfraction =>
    have hfractionOf : fractionOf ('.' :: (fraction ++ rest)) =
        fraction ++ rest.takeWhile isAsciiDigit := by
      simp [fractionOf, List.takeWhile_append_of_pos hfraction]
    rw [List.append_assoc, List.cons_append, takeWhile_point hwhole, dropWhile_point hwhole,
      hfractionOf]
    refine ⟨_, .point hwhole (by simp [hne]) ?_, ⟨rest.dropWhile isAsciiDigit, by simp⟩, by simp⟩
    intro c hc
    rcases List.mem_append.1 hc with hc | hc
    · exact hfraction c hc
    · exact allDigits_takeWhile rest c hc

/-! ### Signs -/

theorem splitSign_eq {sign : List Char} (hsign : SignText negative sign)
    (hbody : UnsignedText whole fraction body) (rest : List Char) :
    splitSign (sign ++ (body ++ rest)) = (negative, body ++ rest) := by
  obtain ⟨c, tail, rfl, hc⟩ := hbody.exists_head
  have hminus : c ≠ '-' := by
    rintro rfl
    revert hc
    decide
  have hplus : c ≠ '+' := by
    rintro rfl
    revert hc
    decide
  cases hsign with
  | minus => rfl
  | plus => rfl
  | absent => simp [splitSign, hminus, hplus]

theorem exists_signText (text : List Char) :
    ∃ sign, SignText (splitSign text).1 sign ∧ text = sign ++ (splitSign text).2 := by
  unfold splitSign
  split
  · exact ⟨_, .minus, rfl⟩
  · exact ⟨_, .plus, rfl⟩
  · exact ⟨_, .absent, rfl⟩

/-! ### Reading -/

namespace Numeral

variable {n m : Numeral} {t s : List Char}

theorem read?_eq (text : List Char) :
    read? text =
      if (splitSign text).2.takeWhile isAsciiDigit = [] ∧
          fractionOf ((splitSign text).2.dropWhile isAsciiDigit) = [] then none
      else some ⟨(splitSign text).1, (splitSign text).2.takeWhile isAsciiDigit,
        fractionOf ((splitSign text).2.dropWhile isAsciiDigit)⟩ :=
  rfl

/- The whole text of a numeral is read as that numeral, so no text is that of two numerals. -/
theorem WrittenAs.read?_self (h : n.WrittenAs t) : read? t = some n := by
  obtain ⟨hsign, hbody⟩ := h
  have hsplit := splitSign_eq hsign hbody []
  obtain ⟨negative, whole, fraction⟩ := n
  rw [List.append_nil] at hsplit
  rw [read?_eq, hsplit]
  cases hbody with
  | digits hne hwhole =>
    have htake := List.takeWhile_eq_self_iff.2 hwhole
    have hdrop := List.dropWhile_eq_nil_iff.2 hwhole
    simp [htake, hdrop, hne, fractionOf]
  | point hwhole hne hfraction =>
    have htake := List.takeWhile_eq_self_iff.2 hfraction
    simp [takeWhile_point hwhole, dropWhile_point hwhole, fractionOf, htake, hne]

theorem WrittenAs.exists_read? (h : n.WrittenAs t) (hbegins : t <+: text) :
    ∃ m, read? text = some m := by
  obtain ⟨rest, rfl⟩ := hbegins
  obtain ⟨hsign, hbody⟩ := h
  obtain ⟨b, hb, -, -⟩ := hbody.exists_longer rest
  rw [List.append_assoc, read?_eq, splitSign_eq hsign hbody rest, if_neg]
  · exact ⟨_, rfl⟩
  · rintro ⟨hwhole, hfraction⟩
    rw [hwhole, hfraction] at hb
    cases hb with
    | digits hne _ => contradiction
    | point _ hne _ => contradiction

theorem longestIn_of_read? (h : read? text = some n) : n.LongestIn text := by
  rw [read?_eq] at h
  split at h
  · contradiction
  · rename_i hsome
    cases h
    obtain ⟨sign, hsign, htext⟩ := exists_signText text
    obtain ⟨b, hb, hbegins⟩ := exists_unsignedText hsome
    refine ⟨sign ++ b, ⟨hsign, hb⟩, ?_, ?_⟩
    · generalize (splitSign text).2 = unsigned at htext hbegins
      rw [htext]
      exact (List.prefix_append_right_inj sign).2 hbegins
    · rintro m _ ⟨hsign', hbody⟩ ⟨rest, hrest⟩
      rename_i sign' body
      -- What is behind the sign is the same for both, and so is the sign itself.
      rw [List.append_assoc] at hrest
      have hunsigned : (splitSign text).2 = body ++ rest := by
        rw [← hrest, splitSign_eq hsign' hbody rest]
      rw [hunsigned] at htext hb
      have hsame : sign' = sign := List.append_cancel_right (hrest.trans htext)
      obtain ⟨c, hc, -, hlength⟩ := hbody.exists_longer rest
      rw [hb.unique hc, hsame, List.length_append, List.length_append]
      omega

theorem read?_eq_some_iff : read? text = some n ↔ n.LongestIn text := by
  constructor
  · exact longestIn_of_read?
  · rintro ⟨t, ht, hbegins, hlongest⟩
    obtain ⟨m, hm⟩ := ht.exists_read? hbegins
    obtain ⟨s, hs, hsbegins, hslongest⟩ := longestIn_of_read? hm
    have hlength : t.length = s.length :=
      Nat.le_antisymm (hslongest n t ht hbegins) (hlongest m s hs hsbegins)
    have hsame : t = s :=
      (List.prefix_of_prefix_length_le hbegins hsbegins hlength.le).eq_of_length hlength
    have hn := ht.read?_self
    rw [hsame, hs.read?_self] at hn
    rw [hm, hn]

theorem exists_longestIn_iff : (∃ n, LongestIn n text) ↔ ∃ n t, WrittenAs n t ∧ t <+: text := by
  constructor
  · rintro ⟨n, t, ht, hbegins, -⟩
    exact ⟨n, t, ht, hbegins⟩
  · rintro ⟨n, t, ht, hbegins⟩
    obtain ⟨m, hm⟩ := ht.exists_read? hbegins
    exact ⟨m, longestIn_of_read? hm⟩

end Numeral

end VirtualPrinter.GCode
