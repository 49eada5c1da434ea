import VirtualPrinter.Program.Basic

/-!
# The size of a program

A line of text gives one segment at most, so a program has no more printed endpoints than its text
has bytes, but for one.
-/

namespace VirtualPrinter

theorem size_utf8Encode_cons (c : Char) (l : List Char) :
    (c :: l).utf8Encode.size = c.utf8Size + l.utf8Encode.size := by
  rw [List.utf8Encode_cons, ByteArray.size_append]
  simp only [List.utf8Encode_singleton, List.size_toByteArray, String.length_utf8EncodeChar]

theorem length_le_utf8ByteSize (text : String) : text.toList.length ≤ text.utf8ByteSize := by
  rw [← String.size_toByteArray, ← String.utf8Encode_toList]
  generalize text.toList = l
  induction l with
  | nil => exact Nat.zero_le _
  | cons c l ih =>
    have hc := c.utf8Size_pos
    have hsize := size_utf8Encode_cons c l
    rw [List.length_cons]
    omega

theorem length_splitLines (text : List Char) :
    (splitLines text).length = text.count '\n' + 1 := by
  unfold splitLines
  induction text with
  | nil => rfl
  | cons c text ih =>
    rw [List.foldr_cons]
    split
    · rename_i hc
      rw [List.length_cons, ih, hc, List.count_cons_self]
    · rename_i hc
      rw [List.count_cons_of_ne hc]
      split
      · rename_i hlines
        rw [hlines] at ih
        contradiction
      · rename_i line later hlines
        rw [← ih, hlines, List.length_cons, List.length_cons]

namespace Toolpath

theorem step_size (path : Toolpath) (line : List Char) :
    (path.step line).segments.size ≤ path.segments.size + 1 := by
  unfold step
  split
  · omega
  · split
    · exact Nat.le_succ _
    · rename_i parsed hparsed
      simp only [extend, Array.size_append]
      cases (path.modal.interpret parsed).segment with
      | none => simp
      | some s => simp

theorem foldl_step_size (lines : List (List Char)) (path : Toolpath) :
    (lines.foldl step path).segments.size ≤ path.segments.size + lines.length := by
  induction lines generalizing path with
  | nil => exact Nat.le_refl _
  | cons line lines ih =>
    have hstep := step_size path line
    have hrest := ih (path.step line)
    rw [List.foldl_cons, List.length_cons]
    omega

theorem ofText_size (m : ModalState) (text : String) :
    (ofText m text).segments.size ≤ text.utf8ByteSize + 1 := by
  have hfold := foldl_step_size (splitLines text.toList) { modal := m }
  have hlines := length_splitLines text.toList
  have hcount : text.toList.count '\n' ≤ text.toList.length := List.count_le_length
  have hbytes := length_le_utf8ByteSize text
  change (ofText m text).segments.size ≤ 0 + (splitLines text.toList).length at hfold
  omega

end Toolpath

namespace Program

theorem endpoints_length_le {text : String} {p : Program} (h : ofText text = .ok p) :
    p.endpoints.length ≤ text.utf8ByteSize + 1 := by
  have hsize := Toolpath.ofText_size {} text
  unfold ofText Toolpath.program at h
  split at h
  · contradiction
  · cases h
    rw [endpoints, printed, List.length_map]
    refine Nat.le_trans (List.length_filter_le _ _) ?_
    rwa [Array.length_toList]

end Program

end VirtualPrinter
