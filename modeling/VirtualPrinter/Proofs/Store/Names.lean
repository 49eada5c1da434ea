import Mathlib.Data.List.TakeWhile
import VirtualPrinter.Store.Basic

/-!
# Names and paths

What a name is without its leading slashes and what the last part of a path is, said without the
functions that find them. Every name has exactly one normal form and every path exactly one base
name.
-/

namespace VirtualPrinter

/-! ### Normal forms -/

/-- The normal form of a name is its text without the slashes at its front; no name counts as an
empty text. -/
structure NormalForm (name : Option String) (form : String) : Prop where
  slashes : ∃ count, (name.getD "").toList = List.replicate count '/' ++ form.toList
  unrooted : form.toList.head? ≠ some '/'

theorem toList_ofText (name : Option String) :
    (ProgramName.ofText name).text.toList = (name.getD "").toList.dropWhile (· = '/') :=
  String.toList_ofList

theorem takeWhile_slashes (text : List Char) :
    ∃ count, text.takeWhile (· = '/') = List.replicate count '/' := by
  refine ⟨_, List.eq_replicate_iff.2 ⟨rfl, fun c hc => ?_⟩⟩
  simpa using List.mem_takeWhile_imp hc

theorem dropWhile_slashes (count : Nat) {form : List Char} (h : form.head? ≠ some '/') :
    (List.replicate count '/' ++ form).dropWhile (· = '/') = form := by
  rw [List.dropWhile_append_of_pos (by simp)]
  cases form with
  | nil => rfl
  | cons c form =>
    refine List.dropWhile_cons_of_neg ?_
    simpa using h

theorem normalForm_ofText (name : Option String) :
    NormalForm name (ProgramName.ofText name).text where
  slashes := by
    obtain ⟨count, hcount⟩ := takeWhile_slashes (name.getD "").toList
    refine ⟨count, ?_⟩
    rw [toList_ofText, ← hcount, List.takeWhile_append_dropWhile]
  unrooted := (ProgramName.ofText name).unrooted

theorem normalForm_iff {name : Option String} {form : String} :
    NormalForm name form ↔ (ProgramName.ofText name).text = form := by
  constructor
  · rintro ⟨⟨count, hname⟩, hform⟩
    apply String.toList_injective
    rw [toList_ofText, hname, dropWhile_slashes count hform]
  · rintro rfl
    exact normalForm_ofText name

theorem normalForm_unrooted {form : String} (h : form.toList.head? ≠ some '/') :
    NormalForm (some form) form := ⟨⟨0, rfl⟩, h⟩

theorem ofText_text (name : ProgramName) : ProgramName.ofText (some name.text) = name :=
  ProgramName.text_injective (normalForm_iff.1 (normalForm_unrooted name.unrooted))

theorem ofText_rooted (name : ProgramName) : ProgramName.ofText (some name.rooted) = name := by
  refine ProgramName.text_injective (normalForm_iff.1 ⟨⟨1, ?_⟩, name.unrooted⟩)
  exact String.toList_append

/-! ### Base names -/

/-- The base name of a path has no slash, and what is in front of it is empty or ends with one. -/
structure IsBaseName (path base : String) : Prop where
  slashless : '/' ∉ base.toList
  folder : ∃ folder, path.toList = folder ++ base.toList ∧ ∀ c ∈ folder.getLast?, c = '/'

theorem isBaseName_baseName (path : String) : IsBaseName path (baseName path) where
  slashless := by
    rw [baseName, String.toList_ofList, List.mem_reverse]
    intro h
    simpa using List.mem_takeWhile_imp h
  folder := by
    refine ⟨(path.toList.reverse.dropWhile (· ≠ '/')).reverse, ?_, ?_⟩
    · rw [baseName, String.toList_ofList, ← List.reverse_append, List.takeWhile_append_dropWhile,
        List.reverse_reverse]
    · intro c hc
      rw [List.getLast?_reverse] at hc
      have hhead := List.head?_dropWhile_not (fun c : Char => decide (c ≠ '/')) path.toList.reverse
      rw [hc] at hhead
      simpa using hhead

theorem isBaseName_iff {path base : String} : IsBaseName path base ↔ baseName path = base := by
  constructor
  · rintro ⟨hslash, folder, hpath, hfolder⟩
    have hall : ∀ c ∈ base.toList.reverse, decide (c ≠ '/') = true := by
      intro c hc
      rw [decide_eq_true_eq]
      rintro rfl
      exact hslash (List.mem_reverse.1 hc)
    have hstop : folder.reverse.takeWhile (· ≠ '/') = [] := by
      cases hhead : folder.reverse with
      | nil => rfl
      | cons c rest =>
        have hc : c = '/' := hfolder c (by rw [← List.head?_reverse, hhead]; rfl)
        rw [hc]
        rfl
    rw [baseName, hpath, List.reverse_append, List.takeWhile_append_of_pos hall, hstop,
      List.append_nil, List.reverse_reverse, String.ofList_toList]
  · rintro rfl
    exact isBaseName_baseName path

end VirtualPrinter
