import VirtualPrinter.Proofs.Store.Names
import VirtualPrinter.Store.Call

/-!
# What is found under a name

A store is known by what is found in it: storing and removing change what is found under one name
only, and the names that are listed are those under which anything is found.
-/

namespace VirtualPrinter

/-! ### Entries -/

section Entries

variable {α β : Type} [DecidableEq α] {name other : α} {entries : List (α × β)}

theorem lookup_cons_eq (entry : α × β) :
    (entry :: entries).lookup name =
      if name = entry.1 then some entry.2 else entries.lookup name := by
  by_cases h : name = entry.1
  · rw [if_pos h, List.lookup_cons, beq_iff_eq.2 h]
  · rw [if_neg h, List.lookup_cons, beq_false_of_ne h]

theorem lookup_filter_ne :
    (entries.filter (·.1 ≠ name)).lookup other =
      if other = name then none else entries.lookup other := by
  induction entries with
  | nil => split <;> rfl
  | cons entry rest ih =>
    by_cases hentry : entry.1 = name
    · rw [List.filter_cons_of_neg (by simpa using hentry), ih, lookup_cons_eq, hentry]
      by_cases hother : other = name
      · rw [if_pos hother, if_pos hother]
      · rw [if_neg hother, if_neg hother, if_neg hother]
    · rw [List.filter_cons_of_pos (by simpa using hentry), lookup_cons_eq, lookup_cons_eq, ih]
      by_cases hother : other = entry.1
      · rw [if_pos hother, if_pos hother, if_neg (hother ▸ hentry)]
      · rw [if_neg hother, if_neg hother]

theorem isSome_lookup_iff :
    (entries.lookup name).isSome = true ↔ ∃ entry ∈ entries, entry.1 = name := by
  induction entries with
  | nil => simp
  | cons entry rest ih =>
    rw [lookup_cons_eq]
    by_cases h : name = entry.1
    · simp [h]
    · rw [if_neg h, ih]
      simp [Ne.symm h]

end Entries

variable {name other : ProgramName} {entries : List StoreEntry}

theorem lookup_insertEntry (entry : StoreEntry) :
    (insertEntry entry entries).lookup name =
      if name = entry.1 then some entry.2 else entries.lookup name := by
  induction entries with
  | nil => exact lookup_cons_eq entry
  | cons first rest ih =>
    by_cases hless : entry.1.text < first.1.text
    · rw [insertEntry, if_pos hless, lookup_cons_eq]
    · by_cases hsame : entry.1 = first.1
      · rw [insertEntry, if_neg hless, if_pos hsame, lookup_cons_eq, lookup_cons_eq first, ← hsame]
        by_cases hname : name = entry.1
        · rw [if_pos hname, if_pos hname]
        · rw [if_neg hname, if_neg hname, if_neg hname]
      · rw [insertEntry, if_neg hless, if_neg hsame, lookup_cons_eq, lookup_cons_eq first, ih]
        by_cases hname : name = first.1
        · rw [if_pos hname, if_pos hname, if_neg (hname ▸ Ne.symm hsame)]
        · rw [if_neg hname, if_neg hname]

/-! ### Stores -/

namespace ProgramStore

variable (s : ProgramStore)

theorem get?_put (name other : ProgramName) (body : Option Body) :
    (s.put name body).get? other =
      if other = name then some (body.map (·.decoded)) else s.get? other :=
  lookup_insertEntry (name, body.map Body.decoded)

theorem get?_erase (name other : ProgramName) :
    (s.erase name).get? other = if other = name then none else s.get? other :=
  lookup_filter_ne

theorem mem_names_iff {form : String} :
    form ∈ s.names ↔ ∃ name : ProgramName, name.text = form ∧ (s.get? name).isSome = true := by
  unfold names get?
  rw [List.mem_map]
  constructor
  · rintro ⟨entry, hentry, hform⟩
    exact ⟨entry.1, hform, isSome_lookup_iff.2 ⟨entry, hentry, rfl⟩⟩
  · rintro ⟨name, hform, hsome⟩
    obtain ⟨entry, hentry, rfl⟩ := isSome_lookup_iff.1 hsome
    exact ⟨entry, hentry, hform⟩

theorem names_increasing : s.names.Pairwise (· < ·) := List.pairwise_map.2 s.sorted

theorem erase_of_absent {name : ProgramName} (h : s.get? name = none) : s.erase name = s := by
  obtain ⟨entries, sorted⟩ := s
  have hfilter : entries.filter (·.1 ≠ name) = entries := by
    refine List.filter_eq_self.2 fun entry hentry => ?_
    rw [decide_eq_true_eq]
    intro hname
    have hsome := isSome_lookup_iff.2 ⟨entry, hentry, hname⟩
    unfold get? at h
    rw [h] at hsome
    contradiction
  simp only [erase, hfilter]

end ProgramStore

end VirtualPrinter
