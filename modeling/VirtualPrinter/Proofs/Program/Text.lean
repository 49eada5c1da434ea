import VirtualPrinter.Program.Text

/-!
# Texts that can be encoded

A text can be written in UTF-8 exactly when all its code points are characters, and then it is read
as it is written.
-/

namespace VirtualPrinter.ProgramText

variable {text : String} {t : ProgramText} {points : List CodePoint} {position : Nat}

@[simp]
theorem legible_ofString (text : String) : (ofString text).legible = text := by
  have hmap : (text.toList.map CodePoint.character).map (·.legible) = text.toList := by
    rw [List.map_map]
    exact List.map_id _
  rw [legible, ofString, hmap, String.ofList_toList]

@[simp]
theorem ofString_inj {other : String} : ofString text = ofString other ↔ text = other := by
  refine ⟨fun h => ?_, fun h => h ▸ rfl⟩
  rw [← legible_ofString text, h, legible_ofString]

@[simp]
theorem isEmpty_iff : t.isEmpty = true ↔ t = ofString "" := by
  cases t with
  | mk points => simp [isEmpty, ofString]

theorem faultFrom?_eq_none_iff :
    faultFrom? position points = none ↔ ∃ text : List Char, points = text.map .character := by
  induction points generalizing position with
  | nil => exact ⟨fun _ => ⟨[], rfl⟩, fun _ => rfl⟩
  | cons point rest ih =>
    cases point with
    | character c =>
      rw [faultFrom?, ih]
      constructor
      · rintro ⟨text, rfl⟩
        exact ⟨c :: text, rfl⟩
      · rintro ⟨text, htext⟩
        obtain ⟨_, tail, rfl, _, htail⟩ := List.map_eq_cons_iff.1 htext.symm
        exact ⟨tail, htail.symm⟩
    | surrogate index =>
      constructor
      · intro h
        contradiction
      · rintro ⟨text, htext⟩
        obtain ⟨_, _, _, hpoint, _⟩ := List.map_eq_cons_iff.1 htext.symm
        contradiction

@[simp]
theorem encodable_ofString (text : String) : (ofString text).encodable = .ok text := by
  have hnone : faultFrom? 0 (ofString text).points = none :=
    faultFrom?_eq_none_iff.2 ⟨text.toList, rfl⟩
  rw [encodable, hnone, legible_ofString]

theorem encodable_eq_ok_iff : t.encodable = .ok text ↔ t = text := by
  constructor
  · intro h
    unfold encodable at h
    split at h
    · contradiction
    · rename_i hnone
      obtain ⟨chars, hchars⟩ := faultFrom?_eq_none_iff.1 hnone
      have ht : t = ofString (String.ofList chars) := by
        rw [ofString, String.toList_ofList, ← hchars]
      rw [ht, legible_ofString, Except.ok.injEq] at h
      rw [ht, h]
  · rintro rfl
    exact encodable_ofString text

end VirtualPrinter.ProgramText
