import Mathlib.Data.List.Basic
import Mathlib.Data.List.TakeWhile
import VirtualPrinter.GCode.Line

/-!
# The significant part of a line

What a line says does not hang on how it is written: blanks around it, a comment behind it and the
case of its letters are gone from its significant part, and nothing else of a line is read.
-/

namespace VirtualPrinter

/-! ### Blanks around a text -/

namespace Text

def AllBlank (text : List Char) : Prop := ∀ c ∈ text, isBlank c = true

instance (text : List Char) : Decidable (AllBlank text) := List.decidableBAll _ text

variable {text blanks : List Char}

theorem trim_blanks_append (h : AllBlank blanks) (text : List Char) :
    trim (blanks ++ text) = trim text := by
  rw [trim, trim, trimWhile, trimWhile, List.dropWhile_append_of_pos h]

theorem trim_append_blanks (h : AllBlank blanks) (text : List Char) :
    trim (text ++ blanks) = trim text := by
  unfold trim trimWhile
  rw [List.dropWhile_append]
  split
  · rename_i hall
    rw [List.isEmpty_iff.1 hall, List.dropWhile_eq_nil_iff.2 h]
  · rw [List.reverse_append,
      List.dropWhile_append_of_pos fun c hc => h c (List.mem_reverse.1 hc)]

theorem exists_trim (text : List Char) : ∃ front back, AllBlank front ∧ AllBlank back ∧
    text = front ++ trim text ++ back := by
  have hfront := List.takeWhile_append_dropWhile (p := isBlank) (l := text)
  have hback := List.takeWhile_append_dropWhile (p := isBlank)
    (l := (text.dropWhile isBlank).reverse)
  refine ⟨text.takeWhile isBlank,
    ((text.dropWhile isBlank).reverse.takeWhile isBlank).reverse, ?_, ?_, ?_⟩
  · exact fun c hc => List.mem_takeWhile_imp hc
  · exact fun c hc => List.mem_takeWhile_imp (List.mem_reverse.1 hc)
  · rw [trim, trimWhile, List.append_assoc, ← List.reverse_append, hback, List.reverse_reverse,
      hfront]

/-! ### The case of letters -/

theorem toUpper_cases (c : Char) : c.toUpper = c ∨ ∃ n < 26, c = Char.ofNat (97 + n) := by
  unfold Char.toUpper
  split
  · rename_i h
    have hfirst : 97 ≤ c.toNat := h.1
    have hlast : c.toNat ≤ 122 := h.2
    refine Or.inr ⟨c.toNat - 97, by omega, ?_⟩
    rw [Nat.add_sub_cancel' hfirst, Char.ofNat_toNat]
  · exact Or.inl rfl

/- A letter is no blank in either case, it stands behind the marks of ASCII, and its two cases have
one upper case. -/
theorem letter_cases : ∀ n < 26,
    isBlank (Char.ofNat (97 + n)).toUpper = isBlank (Char.ofNat (97 + n)) ∧
      (64 < (Char.ofNat (97 + n)).toUpper.toNat ∧ 64 < (Char.ofNat (97 + n)).toNat) ∧
      upperChar (Char.ofNat (97 + n)).toUpper = upperChar (Char.ofNat (97 + n)) := by
  decide +kernel

theorem isBlank_toUpper (c : Char) : isBlank c.toUpper = isBlank c := by
  rcases toUpper_cases c with h | ⟨n, hn, rfl⟩
  · rw [h]
  · exact (letter_cases n hn).1

theorem toUpper_eq_iff {d : Char} (hd : d.toNat ≤ 64) (c : Char) : c.toUpper = d ↔ c = d := by
  rcases toUpper_cases c with h | ⟨n, hn, rfl⟩
  · rw [h]
  · obtain ⟨hupper, hlower⟩ := (letter_cases n hn).2.1
    constructor
    · intro h
      rw [h] at hupper
      omega
    · intro h
      rw [h] at hlower
      omega

theorem upperChar_toUpper (c : Char) : upperChar c.toUpper = upperChar c := by
  rcases toUpper_cases c with h | ⟨n, hn, rfl⟩
  · rw [h]
  · exact (letter_cases n hn).2.2

theorem trim_map_toUpper (text : List Char) :
    trim (text.map Char.toUpper) = (trim text).map Char.toUpper := by
  have hblank : isBlank ∘ Char.toUpper = isBlank := funext isBlank_toUpper
  unfold trim trimWhile
  rw [List.dropWhile_map, hblank, ← List.map_reverse, List.dropWhile_map, hblank, ← List.map_reverse]

theorem upper_map_toUpper (text : List Char) : upper (text.map Char.toUpper) = upper text := by
  unfold upper
  rw [List.flatMap_map]
  exact List.flatMap_congr fun c _ => upperChar_toUpper c

end Text

/-! ### Lines written differently -/

namespace GCode

open Text

variable {line text other : List Char}

theorem significant_blanks_append {blanks : List Char} (h : AllBlank blanks) (line : List Char) :
    significant (blanks ++ line) = significant line := by
  have hplain : ∀ c ∈ blanks, decide (c ≠ ';') = true := by
    intro c hc
    rw [decide_eq_true_eq]
    rintro rfl
    exact absurd (h ';' hc) (by decide)
  unfold significant
  rw [List.takeWhile_append_of_pos hplain, trim_blanks_append h]

/- Behind a line stands nothing that counts as long as only blanks stand before a semicolon. -/
theorem significant_append_of_blank {tail : List Char} (h : AllBlank (tail.takeWhile (· ≠ ';')))
    (line : List Char) : significant (line ++ tail) = significant line := by
  unfold significant
  rw [List.takeWhile_append]
  split
  · rename_i hall
    have hself := (List.takeWhile_prefix (· ≠ ';')).eq_of_length hall
    rw [trim_append_blanks h, hself]
  · rfl

theorem significant_trim (line : List Char) : significant (trim line) = significant line := by
  obtain ⟨front, back, hfront, hback, hline⟩ := exists_trim line
  have hbehind : AllBlank (back.takeWhile (· ≠ ';')) :=
    fun c hc => hback c (List.takeWhile_subset _ hc)
  conv_rhs => rw [hline]
  rw [List.append_assoc, significant_blanks_append hfront, significant_append_of_blank hbehind]

theorem significant_map_toUpper (line : List Char) :
    significant (line.map Char.toUpper) = significant line := by
  have hplain : (fun c : Char => decide (c ≠ ';')) ∘ Char.toUpper = fun c => decide (c ≠ ';') := by
    funext c
    exact decide_eq_decide.2 (toUpper_eq_iff (by decide) c).not
  unfold significant
  rw [List.takeWhile_map, hplain, trim_map_toUpper, upper_map_toUpper]

theorem Line.parse_congr (h : significant text = significant other) : parse text = parse other := by
  unfold parse
  rw [h]

end GCode

end VirtualPrinter
