import VirtualPrinter.Proofs.Binary64.Extremes

/-!
# The layers of a program

Where all coordinates are numbers, the box spans the ends of all segments and the layers span the
heights of the printed ones, so every printed endpoint lies between the lowest and the highest
layer.
-/

namespace VirtualPrinter

open Binary64

/-- All coordinates are numbers. -/
structure Point.Numeric (q : Point) : Prop where
  x : q.x ≠ nan
  y : q.y ≠ nan
  z : q.z ≠ nan

instance (q : Point) : Decidable q.Numeric :=
  decidable_of_iff (q.x ≠ nan ∧ q.y ≠ nan ∧ q.z ≠ nan)
    ⟨fun h => ⟨h.1, h.2.1, h.2.2⟩, fun h => ⟨h.x, h.y, h.z⟩⟩

/-- An end of one of the segments has this coordinate. -/
def EndAt (axis : Point → Binary64) (segments : List Segment) (v : Binary64) : Prop :=
  ∃ s ∈ segments, v = axis s.start ∨ v = axis s.stop

/-- On each axis the corners are coordinates of ends, with all ends from the one to the other. -/
structure Box.Hugs (b : Box) (segments : List Segment) : Prop where
  x : Spans b.low.x b.high.x (EndAt (·.x) segments)
  y : Spans b.low.y b.high.y (EndAt (·.y) segments)
  z : Spans b.low.z b.high.z (EndAt (·.z) segments)

def LayerRange.Hugs (r : LayerRange) (segments : List Segment) : Prop :=
  Spans r.low r.high (EndAt (·.z) segments)

namespace Program

variable {p : Program} {q : Point} {segments : List Segment} {axis : Point → Binary64}

/-- All coordinates of all segments are numbers. -/
def Numeric (p : Program) : Prop := ∀ q ∈ points p.segments, q.Numeric

instance (p : Program) : Decidable p.Numeric :=
  inferInstanceAs (Decidable (∀ q ∈ points p.segments, q.Numeric))

def Extrudes (p : Program) : Prop := ∃ s ∈ p.segments, s.extrudes = true

instance (p : Program) : Decidable p.Extrudes :=
  inferInstanceAs (Decidable (∃ s ∈ p.segments, s.extrudes = true))

/-- The segments of the one program and then those of the other. -/
instance : Append Program := ⟨fun p q => ⟨p.segments ++ q.segments⟩⟩

/-! ### Points -/

theorem mem_points : q ∈ points segments ↔ ∃ s ∈ segments, q = s.start ∨ q = s.stop := by
  simp [points]

theorem mem_points_of_printed (h : q ∈ points p.printed) : q ∈ points p.segments := by
  obtain ⟨s, hs, hq⟩ := mem_points.1 h
  exact mem_points.2 ⟨s, (List.mem_filter.1 hs).1, hq⟩

theorem points_eq_nil_iff : points segments = [] ↔ segments = [] := by
  cases segments with
  | nil => exact ⟨fun _ => rfl, fun _ => rfl⟩
  | cons s segments => exact ⟨nofun, nofun⟩

theorem exists_points (h : segments ≠ []) :
    ∃ first others, points segments = first :: others :=
  List.exists_cons_of_ne_nil (mt points_eq_nil_iff.1 h)

theorem printed_ne_nil_iff : p.printed ≠ [] ↔ p.Extrudes := by
  rw [printed, ne_eq, List.filter_eq_nil_iff]
  simp [Extrudes]

theorem printed_of_not_extrudes (h : ¬ p.Extrudes) : p.printed = [] :=
  Classical.not_not.1 (mt printed_ne_nil_iff.1 h)

theorem endAt_iff {v : Binary64} : EndAt axis segments v ↔ v ∈ (points segments).map axis := by
  rw [List.mem_map]
  constructor
  · rintro ⟨s, hs, rfl | rfl⟩
    · exact ⟨s.start, mem_points.2 ⟨s, hs, Or.inl rfl⟩, rfl⟩
    · exact ⟨s.stop, mem_points.2 ⟨s, hs, Or.inr rfl⟩, rfl⟩
  · rintro ⟨q, hq, rfl⟩
    obtain ⟨s, hs, hend⟩ := mem_points.1 hq
    exact ⟨s, hs, hend.imp (congrArg axis) (congrArg axis)⟩

theorem points_append (others : List Segment) :
    points (segments ++ others) = points segments ++ points others :=
  List.flatMap_append

theorem printed_append (p q : Program) : (p ++ q).printed = p.printed ++ q.printed :=
  List.filter_append _ _

theorem nan_not_mem_map {corners : List Point} (h : ∀ q ∈ corners, axis q ≠ nan) :
    nan ∉ corners.map axis := by
  intro hmem
  obtain ⟨q, hq, heq⟩ := List.mem_map.1 hmem
  exact h q hq heq

/-! ### Spans -/

theorem spans_axis {first : Point} {others : List Point} (h : ∀ q ∈ points segments, axis q ≠ nan)
    (hpoints : points segments = first :: others) :
    Spans (least (axis first) (others.map axis)) (greatest (axis first) (others.map axis))
      (EndAt axis segments) := by
  have hnan := nan_not_mem_map h
  rw [hpoints, List.map_cons] at hnan
  refine (spans_extremes hnan).congr fun v => ?_
  rw [endAt_iff, hpoints, List.map_cons]

theorem box_hugs (h : p.Numeric) (hne : p.segments ≠ []) : p.box.Hugs p.segments := by
  obtain ⟨first, others, hpoints⟩ := exists_points hne
  rw [box, hpoints]
  exact {
    x := spans_axis (fun q hq => (h q hq).x) hpoints
    y := spans_axis (fun q hq => (h q hq).y) hpoints
    z := spans_axis (fun q hq => (h q hq).z) hpoints }

theorem layers_hug (h : p.Numeric) (hextrudes : p.Extrudes) : p.layers.Hugs p.printed := by
  obtain ⟨first, others, hpoints⟩ := exists_points (printed_ne_nil_iff.2 hextrudes)
  rw [layers, hpoints]
  exact spans_axis (fun q hq => (h q (mem_points_of_printed hq)).z) hpoints

/-! ### Heights -/

theorem zero_le_zero : Binary64.le 0 0 = true := by decide +kernel

theorem box_low_le_high (h : p.Numeric) : p.box.low.z.le p.box.high.z = true := by
  by_cases hne : p.segments = []
  · rw [box, points_eq_nil_iff.2 hne]
    exact zero_le_zero
  · have hspans := (box_hugs h hne).z
    exact hspans.low_le _ hspans.high_attained

theorem layers_of_not_extrudes (h : ¬ p.Extrudes) : p.layers = ⟨p.box.low.z, p.box.high.z⟩ := by
  rw [layers, points_eq_nil_iff.2 (printed_of_not_extrudes h)]

theorem layers_bounds (h : p.Numeric) (hq : q ∈ points p.printed) :
    p.layers.low.le q.z = true ∧ q.z.le p.layers.high = true := by
  obtain ⟨s, hs, hend⟩ := mem_points.1 hq
  have hhug := layers_hug h (printed_ne_nil_iff.1 (List.ne_nil_of_mem hs))
  have hz : EndAt (·.z) p.printed q.z := ⟨s, hs, hend.imp (congrArg _) (congrArg _)⟩
  exact ⟨hhug.low_le _ hz, hhug.le_high _ hz⟩

theorem low_le_high (h : p.Numeric) : p.layers.low.le p.layers.high = true := by
  by_cases hextrudes : p.Extrudes
  · have hhug := layers_hug h hextrudes
    exact hhug.low_le _ hhug.high_attained
  · rw [layers_of_not_extrudes hextrudes]
    exact box_low_le_high h

theorem endpoint_bounds (h : p.Numeric) (hq : q ∈ p.endpoints) :
    p.layers.low.le q.z = true ∧ q.z.le p.layers.high = true := by
  obtain ⟨s, hs, rfl⟩ := List.mem_map.1 hq
  exact layers_bounds h (mem_points.2 ⟨s, hs, Or.inr rfl⟩)

end Program

end VirtualPrinter
