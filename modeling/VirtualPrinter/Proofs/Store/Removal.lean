import VirtualPrinter.Proofs.Store.Refinement

/-!
# What a removal tells

A removal is answered by the text that it takes out of the store and not by whether the name is
there. After any calls the two agree, and a refused removal leaves the store as it was, unless what
was stored last under the name is no text: then the name is there, the removal is refused, and the
name is gone all the same.
-/

namespace VirtualPrinter.ProgramStore

open StoreCall (LastStored)

variable {s : ProgramStore} {calls : List StoreCall} {path : Option String} {form : String}
  {name : ProgramName}

theorem answer_contains (s : ProgramStore) (path : Option String) :
    (s.perform (.contains path)).answer = .ok (.flag (s.get? (.ofText path)).isSome) := rfl

theorem answer_contains_false_iff :
    (s.perform (.contains path)).answer = .ok (.flag false) ↔ s.get? (.ofText path) = none := by
  rw [answer_contains]
  cases s.get? (.ofText path) <;> simp

theorem answer_remove_refused_iff :
    (s.perform (.remove path)).answer = .error (.notFound (.ofText path)) ↔
      s.get? (.ofText path) = none ∨ s.get? (.ofText path) = some none := by
  rw [answer_remove]
  cases s.get? (.ofText path) with
  | none => simp
  | some text => cases text <;> simp

/- A removal has no other answer. -/
theorem answer_remove_cases (s : ProgramStore) (path : Option String) :
    (s.perform (.remove path)).answer = .ok .done ∨
      (s.perform (.remove path)).answer = .error (.notFound (.ofText path)) := by
  rw [answer_remove]
  split
  · exact Or.inl rfl
  · exact Or.inr rfl

theorem text_mem_names_iff : name.text ∈ s.names ↔ (s.get? name).isSome = true := by
  rw [mem_names_iff]
  constructor
  · rintro ⟨other, hother, hsome⟩
    rwa [← ProgramName.text_injective hother]
  · exact fun hsome => ⟨name, rfl, hsome⟩

theorem text_notMem_names_erase (s : ProgramStore) (name : ProgramName) :
    name.text ∉ (s.erase name).names := by
  rw [text_mem_names_iff, get?_erase, if_pos rfl]
  exact nofun

/-- After any calls, a removal is done or is refused as not found. Unless the name was last stored
without a text, it is refused exactly when the name is not contained, and then leaves the store as
it is. A name that was last stored without a text is contained, its removal is refused, and it is no
longer listed after that. -/
theorem remove_truthful_unless_textless (calls : List StoreCall) (hform : NormalForm path form) :
    let s := empty.run calls
    let removal := s.perform (.remove path)
    let refused := removal.answer = .error (.notFound (.ofText path))
    (removal.answer = .ok .done ∨ refused) ∧
      (¬ LastStored calls form none →
        (refused ↔ (s.perform (.contains path)).answer = .ok (.flag false)) ∧
          (refused → removal.store = s)) ∧
      (LastStored calls form none →
        (s.perform (.contains path)).answer = .ok (.flag true) ∧ refused ∧
          form ∈ s.names ∧ form ∉ removal.store.names) := by
  intro s removal refused
  obtain rfl := normalForm_iff.1 hform
  have hlast := get?_run_iff calls (.ofText path) none
  refine ⟨answer_remove_cases s path, ?_, ?_⟩
  · intro htext
    have hne : s.get? (.ofText path) ≠ some none := fun h => htext (hlast.1 h)
    have habsent : refused ↔ s.get? (.ofText path) = none :=
      answer_remove_refused_iff.trans (or_iff_left hne)
    refine ⟨habsent.trans answer_contains_false_iff.symm, ?_⟩
    exact fun hrefused => s.erase_of_absent (habsent.1 hrefused)
  · intro htextless
    have hfound : s.get? (.ofText path) = some none := hlast.2 htextless
    refine ⟨?_, answer_remove_refused_iff.2 (Or.inr hfound), ?_, text_notMem_names_erase s _⟩
    · rw [answer_contains, hfound]
      rfl
    · rw [text_mem_names_iff, hfound]
      rfl

/- A text replaces what was no text, under another spelling of the name. -/
theorem remove_truthful_unless_textless_replaced :
    let calls : List StoreCall := [
      .put (some "gcodes/a") none,
      .uploadForm (some "old/b") none,
      .uploadRaw (some "//gcodes/a") (some (.bytes [71, 49]))]
    let s := empty.run calls
    NormalForm (some "/gcodes/a") "gcodes/a" ∧ ¬ LastStored calls "gcodes/a" none ∧
      ((s.perform (.remove (some "/gcodes/a"))).answer =
          .error (.notFound (.ofText (some "/gcodes/a"))) ↔
        (s.perform (.contains (some "/gcodes/a"))).answer = .ok (.flag false)) ∧
      NormalForm (some "gcodes/b") "gcodes/b" ∧ LastStored calls "gcodes/b" none ∧
      "gcodes/b" ∉ (s.perform (.remove (some "gcodes/b"))).store.names := by
  intro calls s
  have ha : NormalForm (some "/gcodes/a") "gcodes/a" := normalForm_iff.2 (by decide +kernel)
  have hb : NormalForm (some "gcodes/b") "gcodes/b" := normalForm_iff.2 (by decide +kernel)
  have hbtext : (ProgramName.ofText (some "gcodes/b")).text = "gcodes/b" := normalForm_iff.1 hb
  have hatext : (ProgramName.ofText (some "/gcodes/a")).text = "gcodes/a" := normalForm_iff.1 ha
  have hkept : ¬ LastStored calls "gcodes/a" none := by
    rw [← hatext, ← get?_run_iff]
    decide +kernel
  have htextless : LastStored calls "gcodes/b" none := by
    rw [← hbtext, ← get?_run_iff]
    decide +kernel
  obtain ⟨-, htruthful, -⟩ := remove_truthful_unless_textless calls ha
  obtain ⟨-, -, hdropped⟩ := remove_truthful_unless_textless calls hb
  exact ⟨ha, hkept, (htruthful hkept).1, hb, htextless, (hdropped htextless).2.2.2⟩

/- The name is contained, its removal is refused, and the refused removal takes it out. -/
theorem textless_removal_refused :
    let s := empty.run [.put (some "a") none]
    let removal := s.perform (.remove (some "a"))
    (s.perform (.contains (some "a"))).answer = .ok (.flag true) ∧
      removal.answer = .error (.notFound (.ofText (some "a"))) ∧
      s.names = ["a"] ∧ removal.store.names = [] := by
  decide +kernel

end VirtualPrinter.ProgramStore
