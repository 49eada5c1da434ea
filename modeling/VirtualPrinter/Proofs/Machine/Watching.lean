import VirtualPrinter.Proofs.Machine.Restart

/-!
# Watching a machine

Whether anybody is shown the finished runs, and in which of its calls an observer fails, makes no
difference to the machine: it goes the same way and gives the same answers. An observer is called in
the middle of a wrap, and what it does there goes no further than a record.
-/

namespace VirtualPrinter

/-- Who is shown the finished runs over the life of a controller: nobody, or an observer that fails in
some of its calls. -/
inductive Watcher where
  | absent
  | present (fails : Nat → Bool)

/-- The observer that a watcher is at its next call, after as many as it has had. -/
def Watcher.observer (w : Watcher) (calls : Nat) : Observer :=
  match w with
  | .absent => .absent
  | .present fails => if fails calls then .failing else .accepting

theorem Watcher.present_observer (fails : Nat → Bool) (calls : Nat) :
    (present fails).observer calls ≠ .absent := by
  cases h : fails calls <;> simp [observer, h]

namespace Machine

variable {m : Machine} {now : Binary64} {observer : Observer}

theorem receive_length_le (observer : Observer) (m : Machine) (now : Binary64) :
    (observer.receive m now).1.length ≤ 1 := by
  rw [receive_published]
  split
  · exact Nat.zero_le 1
  · cases m.snapshot now with
    | error fault => exact Nat.zero_le 1
    | ok view => exact Nat.le_refl 1

theorem Passing.published_length_le {t : Tick} (h : Passing m now observer t) :
    t.published.length ≤ 1 := by
  cases h with
  | idle hmode => exact Nat.zero_le 1
  | early hmode hp hs hd hg hlt => exact Nat.zero_le 1
  | late hmode hp hs hd hg hlt =>
    rw [wrap_eq]
    exact receive_length_le observer _ now
  | held hidle hjob => exact Nat.zero_le 1

end Machine

namespace Controller

/-! ### Single commands -/

def observedBy (c : Controller) (other : Observer) : Controller := { c with observer := other }

/- A command calls its observer once at most, so during a command a watcher is one observer. -/
theorem published_length_le (c : Controller) (op : Operation) :
    (c.perform op).published.length ≤ 1 := by
  rcases time_or_start_or_reset op with ⟨now, hop⟩ | ⟨name, text, now, given, rfl⟩ | rfl
  · obtain ⟨m, l, -, hl, heffect⟩ := exists_effect c hop
    rw [hl]
    cases heffect with
    | ticked hop hmode ht => exact (Machine.passing_of_tick ht).published_length_le
    | failed hop ht => exact Nat.zero_le 1
    | resumed hmode => exact Nat.zero_le 1
    | refused hmode => exact Nat.zero_le 1
    | viewed => exact Nat.zero_le 1
  · change (c.start name text now given).published.length ≤ 1
    rw [start_published]
    exact Nat.zero_le 1
  · exact Nat.zero_le 1

/- The observer is another, and no run has been completed more. -/
theorem perform_observedBy (c : Controller) (other : Observer) (op : Operation) :
    Agrees 0 c.observer other (c.perform op) ((c.observedBy other).perform op) := by
  have hagrees := perform_ahead c 0 other op
  rwa [ite_self] at hagrees

theorem next_observedBy (c : Controller) (other : Observer) (op : Operation) :
    (c.observedBy other).next op = (c.next op).observedBy other := by
  unfold next
  rw [(perform_observedBy c other op).machine]
  rfl

/-! ### Sequences of commands -/

/-- The machines that commands leave, one after the other. -/
def machines (c : Controller) : List Operation → List Machine
  | [] => []
  | op :: ops => (c.perform op).machine :: (c.next op).machines ops

/-- The outcomes of commands under a watcher that has had some calls. -/
def watched (c : Controller) (w : Watcher) (calls : Nat) : List Operation → List (Outcome Answer)
  | [] => []
  | op :: ops =>
    let met := c.observedBy (w.observer calls)
    let outcome := met.perform op
    outcome :: (met.next op).watched w (calls + outcome.published.length) ops

/- A controller meets its watcher anew at each command. -/
theorem watched_observedBy (c : Controller) (other : Observer) (w : Watcher) (calls : Nat)
    (ops : List Operation) : (c.observedBy other).watched w calls ops = c.watched w calls ops := by
  cases ops with
  | nil => rfl
  | cons op ops => rfl

theorem watched_eq (c : Controller) (w : Watcher) (calls : Nat) (ops : List Operation) :
    (c.watched w calls ops).map Outcome.answer = c.answers ops ∧
      (c.watched w calls ops).map Outcome.machine = c.machines ops := by
  induction ops generalizing c calls with
  | nil => exact ⟨rfl, rfl⟩
  | cons op ops ih =>
    have hop := perform_observedBy c (w.observer calls) op
    have hrest := ih (c.next op)
      (calls + ((c.observedBy (w.observer calls)).perform op).published.length)
    simp only [watched, next_observedBy, watched_observedBy, List.map_cons, answers, machines,
      hop.answer, hop.machine, hrest.1, hrest.2]
    exact ⟨trivial, rfl⟩

/- A failing call is a call: what an observer is shown, it is shown whether it fails or not. -/
theorem published_watched (c : Controller) (fails : Nat → Bool) (calls : Nat)
    (ops : List Operation) :
    (c.watched (.present fails) calls ops).flatMap Outcome.published =
      (c.observedBy .accepting).published ops := by
  induction ops generalizing c calls with
  | nil => rfl
  | cons op ops ih =>
    have hpresent : Observer.accepting = .absent ↔
        (Watcher.present fails).observer calls = .absent :=
      iff_of_false (by decide) (Watcher.present_observer fails calls)
    have hop := (perform_observedBy (c.observedBy .accepting)
      ((Watcher.present fails).observer calls) op).published hpresent
    rw [published, next_observedBy, ← hop]
    simp only [watched, next_observedBy, watched_observedBy, List.flatMap_cons, ih]
    rfl

/-- Two controllers that differ only in who watches them give the same answers, failures included,
and have the same machine after every command. -/
theorem watched_alike (c : Controller) (v w : Watcher) (ops : List Operation) :
    (c.watched v 0 ops).map Outcome.answer = (c.watched w 0 ops).map Outcome.answer ∧
      (c.watched v 0 ops).map Outcome.machine = (c.watched w 0 ops).map Outcome.machine := by
  obtain ⟨hanswer, hmachine⟩ := watched_eq c v 0 ops
  obtain ⟨hanswer', hmachine'⟩ := watched_eq c w 0 ops
  exact ⟨hanswer.trans hanswer'.symm, hmachine.trans hmachine'.symm⟩

/- At an infinite time there is no view of the finished run to show; the job starts again all the
same. -/
example :
    let ops : List Operation := [.start none "" 0 (some 1000), .tick (.infinity false),
      .status (.infinity false)]
    let outcomes := (boot 0 none .absent).watched (.present fun _ => true) 0 ops
    outcomes.map Outcome.published = [[], [], []] ∧
      outcomes.map (fun o => o.machine.job.loops) = [0, 1, 2] := by
  decide +kernel

end Controller

end VirtualPrinter
