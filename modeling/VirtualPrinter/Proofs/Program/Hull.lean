import VirtualPrinter.Proofs.Program.Layers

/-!
# The hull of a program

Where all coordinates are numbers, infinities and signed zeros among them, the box is exactly the
hull of all ends of segments and the layers are exactly the range of the printed heights. Neither
depends on the order of the segments. Two programs in sequence have the hull of their boxes, and the
hull of their layers unless only one of them extrudes.
-/

namespace VirtualPrinter

open Binary64

/-! ### Boxes and ranges of layers -/

/-- No coordinate is greater than that of the other point. -/
structure Point.AtMost (q r : Point) : Prop where
  x : q.x.le r.x = true
  y : q.y.le r.y = true
  z : q.z.le r.z = true

/-- The coordinates are the same numbers, whatever the signs of zeros are. -/
structure Point.SameNumbers (q r : Point) : Prop where
  x : q.x.sameNumber r.x = true
  y : q.y.sameNumber r.y = true
  z : q.z.sameNumber r.z = true

def Point.lower (q r : Point) : Point := ⟨q.x.smaller r.x, q.y.smaller r.y, q.z.smaller r.z⟩

def Point.upper (q r : Point) : Point := ⟨q.x.larger r.x, q.y.larger r.y, q.z.larger r.z⟩

structure Box.Contains (b : Box) (q : Point) : Prop where
  low : b.low.AtMost q
  high : q.AtMost b.high

structure Box.SameNumbers (b c : Box) : Prop where
  low : b.low.SameNumbers c.low
  high : b.high.SameNumbers c.high

def Box.hull (b c : Box) : Box := ⟨b.low.lower c.low, b.high.upper c.high⟩

def Box.heights (b : Box) : LayerRange := ⟨b.low.z, b.high.z⟩

structure LayerRange.Contains (r : LayerRange) (z : Binary64) : Prop where
  low : r.low.le z = true
  high : z.le r.high = true

structure LayerRange.Within (r outer : LayerRange) : Prop where
  low : outer.low.le r.low = true
  high : r.high.le outer.high = true

structure LayerRange.SameNumbers (r s : LayerRange) : Prop where
  low : r.low.sameNumber s.low = true
  high : r.high.sameNumber s.high = true

def LayerRange.hull (r s : LayerRange) : LayerRange := ⟨r.low.smaller s.low, r.high.larger s.high⟩

/-- The path of some segments: the ends of those that extrude, in their order. -/
inductive PathOf : List Segment → List Point → Prop
  | nil : PathOf [] []
  | travel {s : Segment} {segments : List Segment} {path : List Point} (hs : s.extrudes = false)
      (h : PathOf segments path) : PathOf (s :: segments) path
  | printed {s : Segment} {segments : List Segment} {path : List Point} (hs : s.extrudes = true)
      (h : PathOf segments path) : PathOf (s :: segments) (s.stop :: path)

namespace Program

variable {p q : Program} {e : Point} {segments others : List Segment} {axis : Point → Binary64}

/-! ### One program -/

theorem box_contains (h : p.Numeric) (he : e ∈ points p.segments) : p.box.Contains e := by
  obtain ⟨s, hs, hend⟩ := mem_points.1 he
  have hhug := box_hugs h (List.ne_nil_of_mem hs)
  have hat : ∀ axis : Point → Binary64, EndAt axis p.segments (axis e) := fun axis =>
    ⟨s, hs, hend.imp (congrArg axis) (congrArg axis)⟩
  constructor
  · exact ⟨hhug.x.low_le _ (hat _), hhug.y.low_le _ (hat _), hhug.z.low_le _ (hat _)⟩
  · exact ⟨hhug.x.le_high _ (hat _), hhug.y.le_high _ (hat _), hhug.z.le_high _ (hat _)⟩

theorem endAt_of_printed {v : Binary64} (h : EndAt axis p.printed v) : EndAt axis p.segments v := by
  obtain ⟨s, hs, hv⟩ := h
  exact ⟨s, (List.mem_filter.1 hs).1, hv⟩

theorem layers_within (h : p.Numeric) : p.layers.Within p.box.heights := by
  by_cases hextrudes : p.Extrudes
  · have hlayers := layers_hug h hextrudes
    obtain ⟨s, hs, -⟩ := hextrudes
    have hbox := (box_hugs h (List.ne_nil_of_mem hs)).z
    exact ⟨hbox.low_le _ (endAt_of_printed hlayers.low_attained),
      hbox.le_high _ (endAt_of_printed hlayers.high_attained)⟩
  · rw [layers_of_not_extrudes hextrudes]
    obtain ⟨hlow, hhigh⟩ := le_self_of_le (box_low_le_high h)
    exact ⟨hlow, hhigh⟩

theorem pathOf_printed (segments : List Segment) :
    PathOf segments ((segments.filter (·.extrudes)).map (·.stop)) := by
  induction segments with
  | nil => exact .nil
  | cons s segments ih =>
    cases hs : s.extrudes with
    | false =>
      rw [List.filter_cons_of_neg (by rw [hs]; exact Bool.false_ne_true)]
      exact .travel hs ih
    | true =>
      rw [List.filter_cons_of_pos hs]
      exact .printed hs ih

/-! ### Shuffled programs -/

theorem endAt_perm {v : Binary64} (h : segments.Perm others) :
    EndAt axis segments v ↔ EndAt axis others v := by
  simp only [EndAt, h.mem_iff]

theorem Numeric.perm (h : p.Numeric) (hperm : q.segments.Perm p.segments) : q.Numeric := by
  intro r hr
  obtain ⟨s, hs, hend⟩ := mem_points.1 hr
  exact h r (mem_points.2 ⟨s, hperm.mem_iff.1 hs, hend⟩)

theorem sameNumbers_empty : Box.empty.SameNumbers Box.empty := by
  refine ⟨⟨?_, ?_, ?_⟩, ⟨?_, ?_, ?_⟩⟩ <;> decide +kernel

theorem box_perm (h : p.Numeric) (hperm : q.segments.Perm p.segments) :
    q.box.SameNumbers p.box := by
  by_cases hne : p.segments = []
  · rw [hne, List.perm_nil] at hperm
    rw [box, box, points_eq_nil_iff.2 hne, points_eq_nil_iff.2 hperm]
    exact sameNumbers_empty
  · have hother : q.segments ≠ [] := fun hnil => hne (List.nil_perm.1 (hnil ▸ hperm))
    have hp := box_hugs h hne
    have hq := box_hugs (h.perm hperm) hother
    obtain ⟨hxlow, hxhigh⟩ := (hq.x.congr fun _ => endAt_perm hperm).sameNumber hp.x
    obtain ⟨hylow, hyhigh⟩ := (hq.y.congr fun _ => endAt_perm hperm).sameNumber hp.y
    obtain ⟨hzlow, hzhigh⟩ := (hq.z.congr fun _ => endAt_perm hperm).sameNumber hp.z
    exact ⟨⟨hxlow, hylow, hzlow⟩, ⟨hxhigh, hyhigh, hzhigh⟩⟩

theorem layers_perm (h : p.Numeric) (hperm : q.segments.Perm p.segments) :
    q.layers.SameNumbers p.layers := by
  have hextrudes : q.Extrudes ↔ p.Extrudes := by simp only [Extrudes, hperm.mem_iff]
  by_cases hp : p.Extrudes
  · have hprinted : q.printed.Perm p.printed := hperm.filter _
    have hq := layers_hug (h.perm hperm) (hextrudes.2 hp)
    obtain ⟨hlow, hhigh⟩ :=
      (hq.congr fun _ => endAt_perm hprinted).sameNumber (layers_hug h hp)
    exact ⟨hlow, hhigh⟩
  · rw [layers_of_not_extrudes hp, layers_of_not_extrudes (mt hextrudes.1 hp)]
    have hbox := box_perm h hperm
    exact ⟨hbox.low.z, hbox.high.z⟩

/-! ### Programs in sequence -/

theorem extremes_append {first second : Point} {rest more : List Point}
    (hfirst : ∀ r ∈ first :: rest, axis r ≠ nan) (hsecond : ∀ r ∈ second :: more, axis r ≠ nan) :
    least (axis first) ((rest ++ second :: more).map axis) =
        (least (axis first) (rest.map axis)).smaller (least (axis second) (more.map axis)) ∧
      greatest (axis first) ((rest ++ second :: more).map axis) =
        (greatest (axis first) (rest.map axis)).larger
          (greatest (axis second) (more.map axis)) := by
  have hleft := nan_not_mem_map hfirst
  have hright := nan_not_mem_map hsecond
  rw [List.map_append, List.map_cons]
  exact ⟨least_append hleft hright, greatest_append hleft hright⟩

theorem box_append (hp : p.Numeric) (hq : q.Numeric) (hpne : p.segments ≠ [])
    (hqne : q.segments ≠ []) : (p ++ q).box = p.box.hull q.box := by
  obtain ⟨first, rest, hfirst⟩ := exists_points hpne
  obtain ⟨second, more, hsecond⟩ := exists_points hqne
  have hall : points (p ++ q).segments = first :: (rest ++ second :: more) := by
    rw [← List.cons_append, ← hfirst, ← hsecond]
    exact points_append _
  have hleft : ∀ r ∈ first :: rest, r.Numeric := hfirst ▸ hp
  have hright : ∀ r ∈ second :: more, r.Numeric := hsecond ▸ hq
  obtain ⟨hxlow, hxhigh⟩ :=
    extremes_append (fun r hr => (hleft r hr).x) (fun r hr => (hright r hr).x)
  obtain ⟨hylow, hyhigh⟩ :=
    extremes_append (fun r hr => (hleft r hr).y) (fun r hr => (hright r hr).y)
  obtain ⟨hzlow, hzhigh⟩ :=
    extremes_append (fun r hr => (hleft r hr).z) (fun r hr => (hright r hr).z)
  simp only [box, hall, hfirst, hsecond, Box.around, Box.hull, Point.lower, Point.upper, hxlow,
    hxhigh, hylow, hyhigh, hzlow, hzhigh]

theorem endpoints_append (p q : Program) : (p ++ q).endpoints = p.endpoints ++ q.endpoints := by
  rw [endpoints, printed_append, List.map_append]
  rfl

theorem extrudes_append : (p ++ q).Extrudes ↔ p.Extrudes ∨ q.Extrudes := by
  rw [← printed_ne_nil_iff, printed_append, ← printed_ne_nil_iff, ← printed_ne_nil_iff, ne_eq,
    List.append_eq_nil_iff, not_and_or]

theorem layers_append (hp : p.Numeric) (hq : q.Numeric) (hpextrudes : p.Extrudes)
    (hqextrudes : q.Extrudes) : (p ++ q).layers = p.layers.hull q.layers := by
  obtain ⟨first, rest, hfirst⟩ := exists_points (printed_ne_nil_iff.2 hpextrudes)
  obtain ⟨second, more, hsecond⟩ := exists_points (printed_ne_nil_iff.2 hqextrudes)
  have hall : points (p ++ q).printed = first :: (rest ++ second :: more) := by
    rw [printed_append, points_append, hfirst, hsecond, List.cons_append]
  have hleft : ∀ r ∈ first :: rest, r.Numeric := fun r hr =>
    hp r (mem_points_of_printed (hfirst ▸ hr))
  have hright : ∀ r ∈ second :: more, r.Numeric := fun r hr =>
    hq r (mem_points_of_printed (hsecond ▸ hr))
  obtain ⟨hlow, hhigh⟩ :=
    extremes_append (fun r hr => (hleft r hr).z) (fun r hr => (hright r hr).z)
  simp only [layers, hall, hfirst, hsecond, LayerRange.hull, hlow, hhigh]

/- Printed material alone decides, as soon as there is some. -/
theorem layers_congr (h : p.printed = q.printed) (hextrudes : p.Extrudes) :
    p.layers = q.layers := by
  obtain ⟨first, rest, hfirst⟩ := exists_points (printed_ne_nil_iff.2 hextrudes)
  simp only [layers, ← h, hfirst]

/-! ### The geometry of programs -/

/-- Box, layers and endpoints are exactly what the segments make them, in any order of the
segments. -/
structure ExactGeometry (p : Program) : Prop where
  box_hugs : p.segments ≠ [] → p.box.Hugs p.segments
  layers_hug : p.Extrudes → p.layers.Hugs p.printed
  layers_travel : ¬ p.Extrudes → p.layers = p.box.heights
  layers_within : p.layers.Within p.box.heights
  endpoint_within : ∀ e ∈ p.endpoints, p.box.Contains e ∧ p.layers.Contains e.z
  endpoints_path : PathOf p.segments p.endpoints
  shuffled : ∀ q : Program, q.segments.Perm p.segments →
    q.box.SameNumbers p.box ∧ q.layers.SameNumbers p.layers

/-- The geometry of two programs in sequence, in terms of the geometry of each. -/
structure JoinedGeometry (p q : Program) : Prop where
  box : (p ++ q).box = p.box.hull q.box
  endpoints : (p ++ q).endpoints = p.endpoints ++ q.endpoints
  layers_alike : (p.Extrudes ↔ q.Extrudes) → (p ++ q).layers = p.layers.hull q.layers
  layers_left : p.Extrudes → ¬ q.Extrudes → (p ++ q).layers = p.layers
  layers_right : ¬ p.Extrudes → q.Extrudes → (p ++ q).layers = q.layers

theorem exactGeometry (h : p.Numeric) : p.ExactGeometry where
  box_hugs := box_hugs h
  layers_hug := layers_hug h
  layers_travel := layers_of_not_extrudes
  layers_within := layers_within h
  endpoint_within e he := by
    obtain ⟨s, hs, rfl⟩ := List.mem_map.1 he
    have hpoint : s.stop ∈ points p.printed := mem_points.2 ⟨s, hs, Or.inr rfl⟩
    obtain ⟨hlow, hhigh⟩ := layers_bounds h hpoint
    exact ⟨box_contains h (mem_points_of_printed hpoint), hlow, hhigh⟩
  endpoints_path := pathOf_printed p.segments
  shuffled q hperm := ⟨box_perm h hperm, layers_perm h hperm⟩

theorem joinedGeometry (hp : p.Numeric) (hq : q.Numeric) (hpne : p.segments ≠ [])
    (hqne : q.segments ≠ []) : JoinedGeometry p q where
  box := box_append hp hq hpne hqne
  endpoints := endpoints_append p q
  layers_alike halike := by
    by_cases hextrudes : p.Extrudes
    · exact layers_append hp hq hextrudes (halike.1 hextrudes)
    · -- Where nothing is printed the layers are those of the boxes.
      have hother := mt halike.2 hextrudes
      have hboth : ¬ (p ++ q).Extrudes := fun h => (extrudes_append.1 h).elim hextrudes hother
      rw [layers_of_not_extrudes hboth, layers_of_not_extrudes hextrudes,
        layers_of_not_extrudes hother, box_append hp hq hpne hqne]
      rfl
  layers_left hextrudes hother := by
    refine layers_congr ?_ (extrudes_append.2 (Or.inl hextrudes))
    rw [printed_append, printed_of_not_extrudes hother, List.append_nil]
  layers_right hother hextrudes := by
    refine layers_congr ?_ (extrudes_append.2 (Or.inr hextrudes))
    rw [printed_append, printed_of_not_extrudes hother, List.nil_append]

/-- Programs whose coordinates are numbers have exact geometry, alone and in sequence. -/
theorem geometry_exact (h : p.Numeric) :
    p.ExactGeometry ∧
      ∀ q : Program, q.Numeric → p.segments ≠ [] → q.segments ≠ [] → JoinedGeometry p q :=
  ⟨exactGeometry h, fun _ hq hpne hqne => joinedGeometry h hq hpne hqne⟩

/- Coordinates are infinite and zeros have signs, so that the order of the segments shows in a sign;
what follows is travel only. -/
theorem geometry_exact_infinite :
    let low : Point := ⟨signedZero true, infinity true, signedZero true⟩
    let high : Point := ⟨0, infinity false, 2⟩
    let p : Program := ⟨[⟨low, high, true⟩, ⟨high, ⟨0, 5, 0⟩, true⟩]⟩
    let q : Program := ⟨[⟨⟨infinity true, 0, 7⟩, ⟨3, 3, infinity false⟩, false⟩]⟩
    p.Numeric ∧ q.Numeric ∧ p.ExactGeometry ∧ JoinedGeometry p q ∧
      (p ++ q).layers = p.layers ∧ (p ++ q).layers ≠ p.layers.hull q.layers ∧
      Program.box ⟨p.segments.reverse⟩ ≠ p.box ∧
      (Program.box ⟨p.segments.reverse⟩).SameNumbers p.box := by
  intro low high p q
  have hp : p.Numeric := by decide +kernel
  have hq : q.Numeric := by decide +kernel
  obtain ⟨hexact, hjoined⟩ := geometry_exact hp
  have hpq := hjoined q hq (List.cons_ne_nil _ _) (List.cons_ne_nil _ _)
  have hextrudes : p.Extrudes := by decide +kernel
  have htravel : ¬ q.Extrudes := by decide +kernel
  refine ⟨hp, hq, hexact, hpq, hpq.layers_left hextrudes htravel, by decide +kernel,
    by decide +kernel, (hexact.shuffled ⟨p.segments.reverse⟩ p.segments.reverse_perm).1⟩

end Program

end VirtualPrinter
