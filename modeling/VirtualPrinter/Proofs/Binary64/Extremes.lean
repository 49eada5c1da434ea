import VirtualPrinter.Program.Basic
import VirtualPrinter.Proofs.Binary64.Monotone

/-!
# The least and the greatest of some values

Among numbers the least and the greatest of a list are two of them that bound all of them, whatever
infinities and signed zeros there are. Those of a joined list are the ones of its parts together.
-/

namespace VirtualPrinter

namespace Binary64

variable {x y z first : Binary64} {others : List Binary64}

/-! ### Extremes -/

theorem le_self_of_le (h : x.le y = true) : x.le x = true ∧ y.le y = true := by
  obtain ⟨a, b, ha, hb, -⟩ := le_iff.1 h
  exact ⟨le_iff.2 ⟨a, a, ha, ha, le_rfl⟩, le_iff.2 ⟨b, b, hb, hb, le_rfl⟩⟩

/- What a choice between two numbers has to do for a choice from a list to be beyond all of it. -/
structure Extreme (beyond : Binary64 → Binary64 → Prop) (choose : Binary64 → Binary64 → Binary64) :
    Prop where
  refl : ∀ {x}, x ≠ nan → beyond x x
  trans : ∀ {x y z}, beyond x y → beyond y z → beyond x z
  number : ∀ {x y}, x ≠ nan → y ≠ nan → choose x y ≠ nan
  left : ∀ {x y}, x ≠ nan → y ≠ nan → beyond (choose x y) x
  right : ∀ {x y}, x ≠ nan → y ≠ nan → beyond (choose x y) y

theorem Extreme.foldl {beyond : Binary64 → Binary64 → Prop}
    {choose : Binary64 → Binary64 → Binary64} (h : Extreme beyond choose) (hfirst : first ≠ nan)
    (hothers : nan ∉ others) : ∀ x ∈ first :: others, beyond (others.foldl choose first) x := by
  induction others generalizing first with
  | nil =>
    intro x hx
    rw [List.mem_singleton.1 hx]
    exact h.refl hfirst
  | cons y others ih =>
    rw [List.mem_cons, not_or] at hothers
    have hy : y ≠ nan := Ne.symm hothers.1
    have hrest := ih (h.number hfirst hy) hothers.2
    intro x hx
    rw [List.mem_cons, List.mem_cons] at hx
    rcases hx with rfl | rfl | hx
    · exact h.trans (hrest _ List.mem_cons_self) (h.left hfirst hy)
    · exact h.trans (hrest _ List.mem_cons_self) (h.right hfirst hy)
    · exact hrest x (List.mem_cons_of_mem _ hx)

theorem extreme_smaller : Extreme (fun x y => x.le y = true) smaller where
  refl := le_refl_of_ne_nan
  trans := le_trans
  number hx hy := by
    unfold smaller
    split
    · exact hy
    · exact hx
  left hx hy := by
    unfold smaller
    split
    · rename_i hlt
      exact le_of_lt hlt
    · exact le_refl_of_ne_nan hx
  right hx hy := by
    unfold smaller
    split
    · exact le_refl_of_ne_nan hy
    · rename_i hlt
      exact (eq_nan_or_le_of_not_lt hx (Bool.eq_false_iff.2 hlt)).resolve_left hy

theorem extreme_larger : Extreme (fun x y => y.le x = true) larger where
  refl := le_refl_of_ne_nan
  trans hxy hyz := le_trans hyz hxy
  number hx hy := by
    unfold larger
    split
    · exact hy
    · exact hx
  left hx hy := by
    unfold larger
    split
    · rename_i hlt
      exact le_of_lt hlt
    · exact le_refl_of_ne_nan hx
  right hx hy := by
    unfold larger
    split
    · exact le_refl_of_ne_nan hy
    · rename_i hlt
      exact (eq_nan_or_le_of_not_lt hy (Bool.eq_false_iff.2 hlt)).resolve_left hx

theorem least_le (hfirst : first ≠ nan) (hothers : nan ∉ others) :
    ∀ x ∈ first :: others, (least first others).le x = true :=
  extreme_smaller.foldl hfirst hothers

theorem le_greatest (hfirst : first ≠ nan) (hothers : nan ∉ others) :
    ∀ x ∈ first :: others, x.le (greatest first others) = true :=
  extreme_larger.foldl hfirst hothers

theorem smaller_eq (x y : Binary64) : x.smaller y = x ∨ x.smaller y = y := by
  unfold smaller
  split
  · exact Or.inr rfl
  · exact Or.inl rfl

theorem foldl_mem {choose : Binary64 → Binary64 → Binary64}
    (h : ∀ x y, choose x y = x ∨ choose x y = y) : others.foldl choose first ∈ first :: others := by
  induction others generalizing first with
  | nil => exact List.mem_singleton_self first
  | cons y others ih =>
    have hrest : others.foldl choose (choose first y) ∈ choose first y :: others := ih
    rw [List.foldl_cons]
    rcases List.mem_cons.1 hrest with hkept | hmem
    · rw [hkept]
      rcases h first y with hfirst | hy
      · rw [hfirst]
        exact List.mem_cons_self
      · rw [hy]
        exact List.mem_cons_of_mem _ List.mem_cons_self
    · exact List.mem_cons_of_mem _ (List.mem_cons_of_mem _ hmem)

theorem least_mem : least first others ∈ first :: others := foldl_mem smaller_eq

theorem greatest_mem : greatest first others ∈ first :: others :=
  foldl_mem fun x y => (larger_eq x y).elim (fun h => Or.inr h.2) Or.inl

/-! ### Spans -/

/-- Two of some values, with all of the values from the one to the other. -/
structure Spans (low high : Binary64) (values : Binary64 → Prop) : Prop where
  low_attained : values low
  high_attained : values high
  low_le : ∀ v, values v → low.le v = true
  le_high : ∀ v, values v → v.le high = true

theorem spans_extremes (h : nan ∉ first :: others) :
    Spans (least first others) (greatest first others) (· ∈ first :: others) where
  low_attained := least_mem
  high_attained := greatest_mem
  low_le := least_le (List.ne_of_not_mem_cons h).symm (List.not_mem_of_not_mem_cons h)
  le_high := le_greatest (List.ne_of_not_mem_cons h).symm (List.not_mem_of_not_mem_cons h)

theorem sameNumber_of_le (hxy : x.le y = true) (hyx : y.le x = true) : x.sameNumber y = true := by
  obtain ⟨a, b, ha, hb, hab⟩ := le_iff.1 hxy
  obtain ⟨b', a', hb', ha', hba⟩ := le_iff.1 hyx
  rw [hb] at hb'
  rw [ha] at ha'
  cases hb'
  cases ha'
  have heq : a = b := by omega
  simp only [sameNumber, ha, hb, heq, decide_true]

variable {low high low' high' : Binary64} {values values' : Binary64 → Prop}

theorem Spans.congr (h : Spans low high values) (hiff : ∀ v, values v ↔ values' v) :
    Spans low high values' where
  low_attained := (hiff low).1 h.low_attained
  high_attained := (hiff high).1 h.high_attained
  low_le v hv := h.low_le v ((hiff v).2 hv)
  le_high v hv := h.le_high v ((hiff v).2 hv)

/- The two may differ in the sign of a zero only. -/
theorem Spans.sameNumber (h : Spans low high values) (h' : Spans low' high' values) :
    low.sameNumber low' = true ∧ high.sameNumber high' = true :=
  ⟨sameNumber_of_le (h.low_le _ h'.low_attained) (h'.low_le _ h.low_attained),
    sameNumber_of_le (h'.le_high _ h.high_attained) (h.le_high _ h'.high_attained)⟩

/-! ### Joined lists -/

/- A choice that keeps the first of two numbers unless the second is strictly beyond it. -/
structure FirstExtreme (beyond : Binary64 → Binary64 → Prop)
    (choose : Binary64 → Binary64 → Binary64) : Prop extends Extreme beyond choose where
  keep : ∀ {x y}, beyond x y → choose x y = x
  take : ∀ {x y}, x ≠ nan → y ≠ nan → ¬ beyond x y → choose x y = y

theorem firstExtreme_smaller : FirstExtreme (fun x y => x.le y = true) smaller where
  toExtreme := extreme_smaller
  keep {x y} h := by
    have hlt : y.lt x = false := lt_eq_false_iff.2 (Or.inr (Or.inr h))
    simp only [smaller, hlt, Bool.false_eq_true, if_false]
  take hx hy h := if_pos ((eq_nan_or_lt_of_not_le hy h).resolve_left hx)

theorem firstExtreme_larger : FirstExtreme (fun x y => y.le x = true) larger where
  toExtreme := extreme_larger
  keep {x y} h := by
    have hlt : x.lt y = false := lt_eq_false_iff.2 (Or.inr (Or.inr h))
    simp only [larger, hlt, Bool.false_eq_true, if_false]
  take hx hy h := if_pos ((eq_nan_or_lt_of_not_le hx h).resolve_left hy)

section

variable {beyond : Binary64 → Binary64 → Prop} {choose : Binary64 → Binary64 → Binary64}

theorem FirstExtreme.assoc (h : FirstExtreme beyond choose) (hx : x ≠ nan) (hy : y ≠ nan)
    (hz : z ≠ nan) : choose (choose x y) z = choose x (choose y z) := by
  by_cases hxy : beyond x y
  · rw [h.keep hxy]
    by_cases hyz : beyond y z
    · rw [h.keep hyz, h.keep hxy, h.keep (h.trans hxy hyz)]
    · rw [h.take hy hz hyz]
  · -- The first is not beyond what is taken of the other two either.
    have hlater : ¬ beyond x (choose y z) := fun hx' => hxy (h.trans hx' (h.left hy hz))
    rw [h.take hx hy hxy, h.take hx (h.number hy hz) hlater]

theorem FirstExtreme.foldl_choose (h : FirstExtreme beyond choose) (hx : x ≠ nan)
    (hfirst : first ≠ nan) (hothers : nan ∉ others) :
    others.foldl choose (choose x first) = choose x (others.foldl choose first) := by
  induction others generalizing first with
  | nil => rfl
  | cons y others ih =>
    have hy := List.ne_of_not_mem_cons hothers
    rw [List.foldl_cons, List.foldl_cons, h.assoc hx hfirst hy.symm]
    exact ih (h.number hfirst hy.symm) (List.not_mem_of_not_mem_cons hothers)

theorem FirstExtreme.foldl_append (h : FirstExtreme beyond choose) {second : Binary64}
    {more : List Binary64} (hfirst : nan ∉ first :: others) (hsecond : nan ∉ second :: more)
    (hmem : others.foldl choose first ∈ first :: others) :
    (others ++ second :: more).foldl choose first =
      choose (others.foldl choose first) (more.foldl choose second) := by
  have hnumber : others.foldl choose first ≠ nan := fun hnan => hfirst (hnan ▸ hmem)
  rw [List.foldl_append, List.foldl_cons]
  exact h.foldl_choose hnumber (List.ne_of_not_mem_cons hsecond).symm
    (List.not_mem_of_not_mem_cons hsecond)

end

theorem least_append {second : Binary64} {more : List Binary64} (hfirst : nan ∉ first :: others)
    (hsecond : nan ∉ second :: more) :
    least first (others ++ second :: more) = (least first others).smaller (least second more) :=
  firstExtreme_smaller.foldl_append hfirst hsecond least_mem

theorem greatest_append {second : Binary64} {more : List Binary64}
    (hfirst : nan ∉ first :: others) (hsecond : nan ∉ second :: more) :
    greatest first (others ++ second :: more) =
      (greatest first others).larger (greatest second more) :=
  firstExtreme_larger.foldl_append hfirst hsecond greatest_mem

end Binary64

end VirtualPrinter
