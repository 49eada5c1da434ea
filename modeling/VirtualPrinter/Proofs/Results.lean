/-!
# Results and faults

How results go on: a value is handed to what comes next, a value at the end has come through every
step, and mapping values or faults leaves every value a value and every fault a fault.
-/

namespace VirtualPrinter

variable {ε δ α β : Type} {result : Except ε α}

theorem ok_bind (a : α) (f : α → Except ε β) : (Except.ok a >>= f) = f a := rfl

theorem bind_eq_ok_iff {f : α → Except ε β} {b : β} :
    (result >>= f) = .ok b ↔ ∃ a, result = .ok a ∧ f a = .ok b := by
  cases result with
  | error e => exact iff_of_false nofun nofun
  | ok a => exact ⟨fun h => ⟨a, rfl, h⟩, fun ⟨_, h, hf⟩ => Except.ok.inj h ▸ hf⟩

theorem bind_eq_error_iff {f : α → Except ε β} {e : ε} :
    (result >>= f) = .error e ↔ result = .error e ∨ ∃ a, result = .ok a ∧ f a = .error e := by
  cases result with
  | error d =>
    refine ⟨fun h => Or.inl (congrArg _ (Except.error.inj h)), fun h => ?_⟩
    rcases h with h | ⟨_, h, -⟩
    · exact congrArg _ (Except.error.inj h)
    · contradiction
  | ok a =>
    refine ⟨fun h => Or.inr ⟨a, rfl, h⟩, fun h => ?_⟩
    rcases h with h | ⟨_, h, hf⟩
    · contradiction
    · exact Except.ok.inj h ▸ hf

theorem exists_of_map_eq_ok {f : α → β} {b : β} (h : result.map f = .ok b) :
    ∃ a, result = .ok a ∧ f a = b := by
  cases result with
  | error e => contradiction
  | ok a => exact ⟨a, rfl, Except.ok.inj h⟩

theorem eq_of_map_eq_error {f : α → β} {e : ε} (h : result.map f = .error e) :
    result = .error e := by
  cases result with
  | error d => exact congrArg _ (Except.error.inj h)
  | ok a => contradiction

theorem exists_of_mapError_eq_error {f : ε → δ} {d : δ} (h : result.mapError f = .error d) :
    ∃ e, result = .error e ∧ f e = d := by
  cases result with
  | error e => exact ⟨e, rfl, Except.error.inj h⟩
  | ok a => contradiction

theorem eq_of_mapError_eq_ok {f : ε → δ} {a : α} (h : result.mapError f = .ok a) :
    result = .ok a := by
  cases result with
  | error e => contradiction
  | ok b => exact congrArg _ (Except.ok.inj h)

theorem toOption_eq_some_iff {a : α} : result.toOption = some a ↔ result = .ok a := by
  cases result <;> simp [Except.toOption]

end VirtualPrinter
