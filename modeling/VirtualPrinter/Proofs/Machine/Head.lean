import VirtualPrinter.Proofs.Machine.Coherence
import VirtualPrinter.Proofs.Machine.Monotone
import VirtualPrinter.Proofs.Program.Layers

/-!
# Where the head is

Whatever commands are given, the head stays between the lowest and the highest layer of the loaded
program, at the origin of the plane or above a printed endpoint, and the observer is shown no other
place. An idle machine that has been told the time holds its head at the lowest layer.
-/

namespace VirtualPrinter

open Binary64

attribute [local irreducible] Binary64.ofNat

namespace Program

variable {p : Program} {size : Nat} {t : Binary64} {g : Progress}

/-- The head is between the lowest and the highest layer, and either at the origin of the plane or
above a printed endpoint. -/
structure Within (p : Program) (head : Point) : Prop where
  low : p.layers.low.le head.z = true
  high : head.z.le p.layers.high = true
  place : (head.x = 0 ∧ head.y = 0) ∨ ∃ e ∈ p.endpoints, head.x = e.x ∧ head.y = e.y

theorem within_low (h : p.Numeric) : p.Within (parked p.layers.low) where
  low := (le_self_of_le (low_le_high h)).1
  high := low_le_high h
  place := Or.inl ⟨rfl, rfl⟩

theorem within_high (h : p.Numeric) : p.Within (parked p.layers.high) where
  low := low_le_high h
  high := (le_self_of_le (low_le_high h)).2
  place := Or.inl ⟨rfl, rfl⟩

theorem within_endpoint (h : p.Numeric) {e : Point} (he : e ∈ p.endpoints) : p.Within e := by
  obtain ⟨hlow, hhigh⟩ := endpoint_bounds h he
  exact ⟨hlow, hhigh, Or.inr ⟨e, he, rfl, rfl⟩⟩

theorem within_progress (h : p.Numeric) (hg : p.progress size t = .ok g) : p.Within g.head := by
  by_cases hlong : 1 < p.endpoints.length
  · obtain ⟨i, -, hhead, -⟩ := progress_path_inv hlong hg
    exact within_endpoint h (List.mem_of_getElem? hhead)
  · rw [(progress_timed_inv hlong hg).1]
    exact within_low h

theorem within_finished (h : p.Numeric) : p.Within p.finishedHead := by
  unfold finishedHead
  cases hlast : p.endpoints.getLast? with
  | none => exact within_high h
  | some e => exact within_endpoint h (List.mem_of_getLast? hlast)

end Program

namespace Machine

variable {m : Machine} {now : Binary64} {observer : Observer}

/-! ### Ticks -/

/-- The loaded program has numbers for coordinates. -/
def Numeric (m : Machine) : Prop := ∀ p, m.program = some p → p.Numeric

theorem Numeric.of_frame {m n : Machine} (h : Numeric m) (hp : n.program = m.program) :
    Numeric n := fun p hprogram => h p (hp ▸ hprogram)

/-- The loaded program has numbers for coordinates, and the head is within its layers. -/
def Sited (m : Machine) : Prop := ∀ p, m.program = some p → p.Numeric ∧ p.Within m.head

theorem Sited.of_frame {m n : Machine} (h : Sited m) (hp : n.program = m.program)
    (hhead : n.head = m.head) : Sited n := by
  intro p hprogram
  rw [hhead]
  exact h p (hp ▸ hprogram)

theorem Sited.moved {n : Machine} {program : Program} (h : Sited m)
    (hloaded : m.program = some program) (hp : n.program = m.program)
    (hhead : program.Numeric → program.Within n.head) : Sited n := by
  intro p hprogram
  rw [hp, hloaded, Option.some.injEq] at hprogram
  have hnumeric := (h program hloaded).1
  exact hprogram ▸ ⟨hnumeric, hhead hnumeric⟩

theorem sited_idle (h : Sited m) : Sited { m with head := { m.head with z := m.idleHeight } } := by
  intro p hp
  obtain ⟨hnumeric, hwithin⟩ := h p hp
  have hheight : m.idleHeight = p.layers.low := by
    unfold idleHeight
    rw [show m.program = some p from hp]
  obtain ⟨hlow, hhigh, -⟩ := Program.within_low hnumeric
  refine ⟨hnumeric, ?_, ?_, hwithin.place⟩
  · exact hheight ▸ hlow
  · exact hheight ▸ hhigh

theorem sited_tick {tick : Tick} (h : Sited m) (ht : m.tick now observer = .ok tick) :
    Sited tick.machine := by
  cases passing_of_tick ht with
  | idle hmode => exact sited_idle h
  | early hmode hp hs hd hg hlt =>
    exact h.moved hp rfl fun hnumeric => Program.within_progress hnumeric hg
  | late hmode hp hs hd hg hlt =>
    rw [wrap_eq]
    exact h.moved hp rfl fun hnumeric => Program.within_finished hnumeric
  | held hidle hjob => exact h

theorem published_within {tick : Tick} {s : Snapshot} (h : Numeric m)
    (ht : m.tick now observer = .ok tick) (hs : s ∈ tick.published) :
    ∃ p, m.program = some p ∧ p.Within s.head := by
  obtain ⟨p, g, hp, hview⟩ := (passing_of_tick ht).snapshot_of_published hs
  have hhead : s.head = p.finishedHead := congrArg Progress.head (snapshot_shown hview)
  exact ⟨p, hp, hhead ▸ Program.within_finished (h p hp)⟩

/-! ### Idle machines -/

/-- An idle machine holds its head at its height. -/
def Settled (m : Machine) : Prop := m.runMode = .idle → m.head.z = m.idleHeight

theorem settled_tick {tick : Tick} (ht : m.tick now observer = .ok tick) :
    Settled tick.machine := by
  intro hidle
  have hpassing := passing_of_tick ht
  cases hpassing with
  | idle hmode => rfl
  | early hmode hp hs hd hg hlt =>
    have hmode' : m.runMode = .idle := hidle
    rw [hmode] at hmode'
    contradiction
  | late hmode hp hs hd hg hlt =>
    rw [wrap_eq] at hidle
    have hmode' : m.runMode = .idle := hidle
    rw [hmode] at hmode'
    contradiction
  | held hne hjob => exact absurd hidle hne

end Machine

namespace Controller

open Machine

variable {c : Controller} {op : Operation} {now : Binary64}

/-! ### Commands -/

/-- A text that a command starts has numbers for coordinates. -/
def Operation.Numeric : Operation → Prop
  | .start _ text _ _ => ∀ program, Program.ofText text.legible = .ok program → program.Numeric
  | _ => True

theorem sited_settle {m : Machine} (h : Sited m) : Sited (op.settle m) := by
  cases op <;> exact h.of_frame rfl rfl

/- The premise can be evaluated. -/
theorem numeric_of_all {name : Option String} {text : ProgramText} {given : Option Binary64}
    (h : (Program.ofText text.legible).toOption.all (decide ·.Numeric) = true) :
    (Operation.start name text now given).Numeric := by
  intro program hp
  rw [hp] at h
  exact of_decide_eq_true h

theorem numeric_next (h : Numeric c.machine) (hn : op.Numeric) :
    Numeric (c.next op).machine := by
  change Numeric (c.perform op).machine
  rcases time_or_start_or_reset op with ⟨now, hop⟩ | ⟨name, text, now, given, rfl⟩ | rfl
  · obtain ⟨m, l, hm, hl, heffect⟩ := exists_effect c hop
    rw [hm]
    exact h.of_frame heffect.sameJob.program
  · obtain ⟨answer, hstarted⟩ := exists_started c name text now given
    change Numeric (c.start name text now given).machine
    generalize (c.start name text now given).machine = m at hstarted ⊢
    cases hstarted with
    | refused hnone => exact h
    | torn hp hd hfault =>
      intro p hloaded
      exact Option.some.inj hloaded ▸ hn _ hp
    | installed htext hp hd =>
      intro p hloaded
      subst htext
      exact Option.some.inj hloaded ▸ hn _ (ofText_legible hp)
  · exact h.of_frame rfl

theorem numeric_run (h : Numeric c.machine) {ops : List Operation} (hn : ∀ op ∈ ops, op.Numeric) :
    Numeric (c.run ops).machine :=
  run_invariant h fun _ op hop hd => numeric_next hd (hn op hop)

theorem sited_install {name : Option String} {plain : String} {program : Program}
    {duration : Binary64} (hn : program.Numeric) :
    Sited (c.install name plain program now duration) := by
  intro p hloaded
  have heq : program = p := Option.some.inj hloaded
  exact heq ▸ ⟨hn, Program.within_low hn⟩

theorem sited_start (h : Sited c.machine) {name : Option String} {text : ProgramText}
    {given : Option Binary64} (hn : (Operation.start name text now given).Numeric)
    (hwhole : c.tears (.start name text now given) = false) :
    Sited (c.start name text now given).machine := by
  obtain ⟨answer, hstarted⟩ := exists_started c name text now given
  generalize (c.start name text now given).machine = m at hstarted ⊢
  cases hstarted with
  | refused hnone => exact h
  | torn hp hd hfault =>
    rw [tears_of_fault hp hd hfault] at hwhole
    contradiction
  | installed htext hp hd =>
    subst htext
    exact sited_install (hn _ (ofText_legible hp))

theorem sited_next (h : Sited c.machine) (hn : op.Numeric) (hwhole : c.tears op = false) :
    Sited (c.next op).machine := by
  change Sited (c.perform op).machine
  rcases time_or_start_or_reset op with ⟨now, hop⟩ | ⟨name, text, now, given, rfl⟩ | rfl
  · obtain ⟨m, l, hm, hl, heffect⟩ := exists_effect c hop
    rw [hm]
    cases heffect with
    | ticked hop hmode ht => exact sited_settle (sited_tick h ht)
    | failed hop ht => exact h
    | resumed hmode => exact h.of_frame rfl rfl
    | refused hmode => exact h
    | viewed => exact h
  · exact sited_start h hn hwhole
  · exact h.of_frame rfl rfl

/- A start that installs its text puts the head in its place, wherever it was. -/
theorem sited_of_begun (hn : op.Numeric) (hbegun : (c.begun? op).isSome = true) :
    Sited (c.next op).machine := by
  cases op with
  | start name text now given =>
    obtain ⟨answer, hstarted⟩ := exists_started c name text now given
    change Sited (c.start name text now given).machine
    generalize (c.start name text now given).machine = m at hstarted ⊢
    cases hstarted with
    | refused hnone =>
      rw [begun?_none (loaded?_none name now hnone)] at hbegun
      contradiction
    | torn hp hd hfault =>
      rw [begun?, loaded?_some name now hp hd, Option.bind_some, hfault] at hbegun
      contradiction
    | installed htext hp hd =>
      subst htext
      exact sited_install (hn _ (ofText_legible hp))
  | _ => contradiction

theorem sited_run (h : Sited c.machine) {ops : List Operation} (hn : ∀ op ∈ ops, op.Numeric)
    (hintact : c.Intact ops) : Sited (c.run ops).machine := by
  -- A later start mends what an earlier one tore, so the induction adds commands at the end.
  induction ops using List.reverseRecOn with
  | nil => exact h
  | append_singleton ops op ih =>
    have hfeed := (run_settings c ops).1
    have hop : op.Numeric := hn op (List.mem_append_right _ (List.mem_singleton_self op))
    rw [run_append]
    change Sited ((c.run ops).next op).machine
    rw [Intact, lastLoaded, getLast?_filterMap_concat] at hintact
    cases hloaded : c.loaded? op with
    | none =>
      rw [hloaded, Option.none_or] at hintact
      have hsited := ih (fun other hother => hn other (List.mem_append_left _ hother)) hintact
      refine sited_next hsited hop ?_
      rw [tears, loaded?_congr hfeed, hloaded]
      rfl
    | some entry =>
      rw [hloaded] at hintact
      obtain ⟨plain, hplain⟩ := hintact entry.1 entry.2 rfl
      refine sited_of_begun hop ?_
      rw [begun?_congr hfeed, begun?, hloaded, Option.bind_some, hplain,
        ProgramText.encodable_ofString]
      rfl

theorem published_within_perform {s : Snapshot} (h : Numeric c.machine)
    (hs : s ∈ (c.perform op).published) : ∃ p, c.machine.program = some p ∧ p.Within s.head := by
  rcases time_or_start_or_reset op with ⟨now, hop⟩ | ⟨name, text, now, given, rfl⟩ | rfl
  · obtain ⟨m, l, hm, hl, heffect⟩ := exists_effect c hop
    rw [hl] at hs
    cases heffect with
    | ticked hop hmode ht => exact published_within h ht hs
    | failed hop ht => contradiction
    | resumed hmode => contradiction
    | refused hmode => contradiction
    | viewed => contradiction
  · change s ∈ (c.start name text now given).published at hs
    rw [start_published] at hs
    contradiction
  · contradiction

theorem settled_settle {m : Machine} (h : Settled m) : Settled (op.settle m) := by
  cases op with
  | pause time =>
    intro hidle
    contradiction
  | stop time =>
    intro hidle
    contradiction
  | _ => exact h

theorem settled_next (h : Settled c.machine) (hop : op ≠ .reset) (hwhole : c.tears op = false) :
    Settled (c.next op).machine := by
  change Settled (c.perform op).machine
  rcases time_or_start_or_reset op with ⟨now, htime⟩ | ⟨name, text, now, given, rfl⟩ | rfl
  · obtain ⟨m, l, hm, hl, heffect⟩ := exists_effect c htime
    rw [hm]
    cases heffect with
    | ticked hop hmode ht => exact settled_settle (settled_tick ht)
    | failed hop ht => exact h
    | resumed hmode =>
      intro hidle
      contradiction
    | refused hmode => exact h
    | viewed => exact h
  · change Settled (c.start name text now given).machine
    obtain ⟨answer, hstarted⟩ := exists_started c name text now given
    generalize (c.start name text now given).machine = m at hstarted ⊢
    cases hstarted with
    | refused hnone => exact h
    | torn hp hd hfault =>
      rw [tears_of_fault hp hd hfault] at hwhole
      contradiction
    | installed htext hp hd =>
      intro hidle
      contradiction
  · contradiction

theorem settled_poll (hop : op.pollTime? = some now) : Settled (c.next op).machine := by
  cases ht : c.machine.tick now c.observer with
  | ok tick =>
    rw [(poll_next hop ht).1]
    exact settled_tick ht
  | error fault =>
    -- The tick of an idle machine never fails.
    have hactive : c.machine.runMode ≠ .idle := by
      intro hidle
      rw [tick_idle hidle] at ht
      contradiction
    refine settled_next (fun hidle => absurd hidle hactive) ?_ ?_
    · rintro rfl
      contradiction
    · cases op <;> first | rfl | contradiction

theorem settled_run (h : Settled c.machine) {ops : List Operation}
    (hops : ∀ op ∈ ops, op ≠ .reset ∧ c.tears op = false) : Settled (c.run ops).machine := by
  induction ops generalizing c with
  | nil => exact h
  | cons op ops ih =>
    obtain ⟨hreset, hwhole⟩ := hops op List.mem_cons_self
    refine ih (settled_next h hreset hwhole) fun other hother => ?_
    rw [tears_congr (c := c) (d := c.next op) rfl]
    exact hops other (List.mem_cons_of_mem _ hother)

end Controller

end VirtualPrinter
