import Mathlib.Data.List.Induction
import VirtualPrinter.Proofs.Store.Lookup

/-!
# The store as a history

What is found in a store after any calls is what was stored last under the same normal form, unless
it was removed since. Which names a call stores under and removes is said by its arguments alone,
without the store.
-/

namespace VirtualPrinter

open ProgramStore (directory defaultFile empty)

/-! ### What a call does -/

namespace StoreCall

/-- The name of a form upload: the base name of its file, or else the default one, in the program
directory. -/
def FormTarget (file : Option String) (form : String) : Prop :=
  ∃ base, IsBaseName (file.getD "") base ∧
    form = directory ++ if base = "" then defaultFile else base

/-- The normal form of the name that a call is about. -/
def Concerns : StoreCall → String → Prop
  | .uploadForm file _, form => FormTarget file form
  | .put name _, form | .uploadRaw name _, form | .get name, form | .contains name, form
  | .remove name, form => NormalForm name form

/-- The form lies in the program directory. -/
def InDirectory (form : String) : Prop := directory.toList <+: form.toList

def HasData (body : Option Body) : Prop := ∃ data, body = some data ∧ data.isEmpty = false

/-- What a call stores and under which normal form. A raw upload is accepted in the program
directory only, and not without data. -/
def Stores : StoreCall → String → Option ProgramText → Prop
  | .put name body, form, text => NormalForm name form ∧ text = body.map (·.decoded)
  | .uploadForm file body, form, text => FormTarget file form ∧ text = body.map (·.decoded)
  | .uploadRaw path body, form, text =>
    NormalForm path form ∧ InDirectory form ∧ HasData body ∧ text = body.map (·.decoded)
  | _, _, _ => False

def Removes : StoreCall → String → Prop
  | .remove name, form => NormalForm name form
  | _, _ => False

/-- The call changes what is found under a normal form. -/
def Rewrites (call : StoreCall) (form : String) : Prop :=
  (∃ text, call.Stores form text) ∨ call.Removes form

/-- What was stored last under a normal form, and not removed since. -/
def LastStored (calls : List StoreCall) (form : String) (text : Option ProgramText) : Prop :=
  ∃ before call after, calls = before ++ call :: after ∧ call.Stores form text ∧
    ∀ later ∈ after, ¬ later.Rewrites form

/-- Whatever the call stores is a text or bytes. -/
def Given : StoreCall → Prop
  | .put _ body | .uploadForm _ body | .uploadRaw _ body => body ≠ none
  | _ => True

def isUpload : StoreCall → Bool
  | .uploadForm .. | .uploadRaw .. => true
  | _ => false

variable {call : StoreCall} {calls : List StoreCall} {form : String}
  {text other : Option ProgramText} {name : ProgramName} {file path : Option String}
  {body : Option Body}

/-! ### Names of calls -/

theorem normalForm_text_iff : NormalForm file name.text ↔ ProgramName.ofText file = name :=
  normalForm_iff.trans ⟨ProgramName.text_injective, fun h => h ▸ rfl⟩

theorem text_inDirectory (file : String) :
    (ProgramStore.inDirectory file).text = directory ++ file := by
  refine normalForm_iff.1 (normalForm_unrooted ?_)
  rw [String.toList_append]
  exact nofun

theorem formTarget_iff : FormTarget file form ↔ (ProgramStore.formName file).text = form := by
  have htext : (ProgramStore.formName file).text = directory ++
      if baseName (file.getD "") = "" then defaultFile else baseName (file.getD "") := by
    simp only [ProgramStore.formName, text_inDirectory, String.isEmpty_iff]
  constructor
  · rintro ⟨base, hbase, rfl⟩
    rw [htext, isBaseName_iff.1 hbase]
  · rintro rfl
    exact ⟨_, isBaseName_baseName _, htext⟩

theorem formTarget_text_iff : FormTarget file name.text ↔ ProgramStore.formName file = name :=
  formTarget_iff.trans ⟨ProgramName.text_injective, fun h => h ▸ rfl⟩

theorem inDirectory_of_formTarget (h : FormTarget file form) : InDirectory form := by
  obtain ⟨base, -, rfl⟩ := h
  rw [InDirectory, String.toList_append]
  exact List.prefix_append _ _

theorem liesInDirectory_iff : ProgramStore.liesInDirectory name = true ↔ InDirectory name.text :=
  List.isPrefixOf_iff_prefix

theorem Stores.unique (h : call.Stores form text) (h' : call.Stores form other) : text = other := by
  cases call with
  | put name body => exact h.2.trans h'.2.symm
  | uploadForm file body => exact h.2.trans h'.2.symm
  | uploadRaw path body => exact h.2.2.2.trans h'.2.2.2.symm
  | _ => contradiction

theorem Stores.concerns (h : call.Stores form text) : call.Concerns form := by
  cases call with
  | put name body => exact h.1
  | uploadForm file body => exact h.1
  | uploadRaw path body => exact h.1
  | _ => contradiction

/- Whatever is stored under is a normal form. -/
theorem Stores.exists_name (h : call.Stores form text) :
    ∃ name : ProgramName, name.text = form := by
  cases call with
  | put name body => exact ⟨_, normalForm_iff.1 h.1⟩
  | uploadForm file body => exact ⟨_, formTarget_iff.1 h.1⟩
  | uploadRaw path body => exact ⟨_, normalForm_iff.1 h.1⟩
  | _ => contradiction

theorem Removes.concerns (h : call.Removes form) : call.Concerns form := by
  cases call with
  | remove name => exact h
  | _ => contradiction

theorem Stores.inDirectory (hupload : call.isUpload = true) (h : call.Stores form text) :
    InDirectory form := by
  cases call with
  | uploadForm file body => exact inDirectory_of_formTarget h.1
  | uploadRaw path body => exact h.2.1
  | _ => contradiction

/-! ### Histories -/

theorem LastStored.exists_name (h : LastStored calls form text) :
    ∃ name : ProgramName, name.text = form := by
  obtain ⟨before, call, after, -, hstores, -⟩ := h
  exact hstores.exists_name

theorem lastStored_concat :
    LastStored (calls ++ [call]) form text ↔
      call.Stores form text ∨ (¬ call.Rewrites form ∧ LastStored calls form text) := by
  constructor
  · rintro ⟨before, storing, after, hcalls, hstores, hlater⟩
    rcases List.eq_nil_or_concat after with rfl | ⟨after, last, rfl⟩
    · obtain ⟨-, hlast⟩ := List.append_inj' hcalls rfl
      rw [List.cons.injEq] at hlast
      exact Or.inl (hlast.1 ▸ hstores)
    · rw [List.concat_eq_append, ← List.cons_append, ← List.append_assoc] at hcalls
      obtain ⟨hbefore, hlast⟩ := List.append_inj' hcalls rfl
      rw [List.cons.injEq] at hlast
      rw [List.concat_eq_append, List.forall_mem_append, List.forall_mem_singleton] at hlater
      exact Or.inr ⟨hlast.1 ▸ hlater.2, before, storing, after, hbefore, hstores, hlater.1⟩
  · rintro (hstores | ⟨hkeeps, before, storing, after, rfl, hstores, hlater⟩)
    · exact ⟨calls, call, [], rfl, hstores, nofun⟩
    · refine ⟨before, storing, after ++ [call], by simp, hstores, ?_⟩
      rw [List.forall_mem_append, List.forall_mem_singleton]
      exact ⟨hlater, hkeeps⟩

end StoreCall

namespace ProgramStore

open StoreCall

variable {s : ProgramStore} {call : StoreCall} {name : ProgramName} {text : Option ProgramText}
  {path : Option String} {body : Option Body}

/-! ### One call -/

theorem elim_isEmpty_iff : body.elim true (·.isEmpty) = false ↔ HasData body := by
  cases body <;> simp [HasData]

theorem uploadRaw_eq_ok_iff {t : ProgramStore} :
    s.uploadRaw name body = .ok t ↔ InDirectory name.text ∧ HasData body ∧ s.put name body = t := by
  rw [← liesInDirectory_iff, ← elim_isEmpty_iff]
  unfold uploadRaw
  cases liesInDirectory name <;> cases body.elim true (·.isEmpty) <;> simp

theorem perform_uploadRaw_ok (hdirectory : InDirectory (ProgramName.ofText path).text)
    (hbody : HasData body) :
    s.perform (.uploadRaw path body) =
      { answer := .ok (.name (ProgramName.ofText path).text)
        store := s.put (.ofText path) body } := by
  simp only [perform, uploadRaw_eq_ok_iff.2 ⟨hdirectory, hbody, rfl⟩]

theorem perform_uploadRaw_refused
    (h : ¬ (InDirectory (ProgramName.ofText path).text ∧ HasData body)) :
    ∃ error, s.perform (.uploadRaw path body) = { answer := .error error, store := s } := by
  cases hupload : s.uploadRaw (.ofText path) body with
  | error error =>
    simp only [perform, hupload]
    exact ⟨_, rfl⟩
  | ok t =>
    obtain ⟨hdirectory, hbody, -⟩ := uploadRaw_eq_ok_iff.1 hupload
    exact absurd ⟨hdirectory, hbody⟩ h

theorem get?_perform_of_stores (h : call.Stores name.text text) :
    (s.perform call).store.get? name = some text := by
  cases call with
  | put given body =>
    obtain ⟨hform, rfl⟩ := h
    rw [normalForm_text_iff] at hform
    exact (s.get?_put _ _ body).trans (if_pos hform.symm)
  | uploadForm file body =>
    obtain ⟨hform, rfl⟩ := h
    rw [formTarget_text_iff] at hform
    exact (s.get?_put _ _ body).trans (if_pos hform.symm)
  | uploadRaw path body =>
    obtain ⟨hform, hdirectory, hbody, rfl⟩ := h
    rw [normalForm_text_iff] at hform
    subst hform
    rw [perform_uploadRaw_ok hdirectory hbody]
    exact (s.get?_put _ _ body).trans (if_pos rfl)
  | _ => contradiction

theorem get?_perform_of_removes (h : call.Removes name.text) :
    (s.perform call).store.get? name = none := by
  cases call with
  | remove given =>
    rw [Removes, normalForm_text_iff] at h
    exact (s.get?_erase _ _).trans (if_pos h.symm)
  | _ => contradiction

theorem get?_perform_of_keeps (h : ¬ call.Rewrites name.text) :
    (s.perform call).store.get? name = s.get? name := by
  rw [Rewrites, not_or] at h
  obtain ⟨hstores, hremoves⟩ := h
  cases call with
  | put given body =>
    refine (s.get?_put _ _ body).trans (if_neg fun hname => hstores ⟨_, ?_, rfl⟩)
    exact normalForm_text_iff.2 hname.symm
  | uploadForm file body =>
    refine (s.get?_put _ _ body).trans (if_neg fun hname => hstores ⟨_, ?_, rfl⟩)
    exact formTarget_text_iff.2 hname.symm
  | uploadRaw path body =>
    by_cases h : InDirectory (ProgramName.ofText path).text ∧ HasData body
    · rw [perform_uploadRaw_ok h.1 h.2]
      refine (s.get?_put _ _ body).trans (if_neg fun hname => hstores ⟨_, ?_, ?_, h.2, rfl⟩)
      · exact normalForm_text_iff.2 hname.symm
      · exact hname ▸ h.1
    · obtain ⟨error, herror⟩ := perform_uploadRaw_refused (s := s) h
      rw [herror]
  | get given =>
    simp only [perform]
    cases s.get? (.ofText given) <;> rfl
  | contains given => rfl
  | remove given =>
    refine (s.get?_erase _ _).trans (if_neg fun hname => hremoves ?_)
    exact normalForm_text_iff.2 hname.symm

theorem answer_get (s : ProgramStore) (path : Option String) :
    (s.perform (.get path)).answer =
      match s.get? (.ofText path) with
      | some text => .ok (.text text)
      | none => .error (.notFound (.ofText path)) := by
  simp only [perform]
  cases s.get? (.ofText path) <;> rfl

theorem answer_get_ok_iff :
    (s.perform (.get path)).answer = .ok (.text text) ↔ s.get? (.ofText path) = some text := by
  rw [answer_get]
  cases s.get? (.ofText path) <;> simp

theorem answer_get_error_iff :
    (s.perform (.get path)).answer = .error (.notFound (.ofText path)) ↔
      s.get? (.ofText path) = none := by
  rw [answer_get]
  cases s.get? (.ofText path) <;> simp

theorem answer_get_congr {t : ProgramStore} (h : t.get? (.ofText path) = s.get? (.ofText path)) :
    (t.perform (.get path)).answer = (s.perform (.get path)).answer := by
  rw [answer_get, answer_get, h]

theorem answer_remove (s : ProgramStore) (path : Option String) :
    (s.perform (.remove path)).answer =
      if (s.get? (.ofText path)).join.isSome then .ok .done
      else .error (.notFound (.ofText path)) := rfl

/- The answer to a call that stores is a name, and the call stores under its normal form. -/
theorem answer_name_iff {form : String} :
    (∃ stored, (s.perform call).answer = .ok (.name stored) ∧ NormalForm (some stored) form) ↔
      ∃ text, call.Stores form text := by
  cases call with
  | put given body =>
    simp only [perform, Except.ok.injEq, StoreAnswer.name.injEq, exists_eq_left', Stores,
      exists_and_left, exists_eq, and_true]
    rw [normalForm_iff, normalForm_iff, ofText_text]
  | uploadForm file body =>
    simp only [perform, uploadForm, Except.ok.injEq, StoreAnswer.name.injEq, exists_eq_left',
      Stores, exists_and_left, exists_eq, and_true]
    rw [normalForm_iff, formTarget_iff, ofText_rooted]
  | uploadRaw path body =>
    by_cases h : InDirectory (ProgramName.ofText path).text ∧ HasData body
    · rw [perform_uploadRaw_ok h.1 h.2]
      simp only [Except.ok.injEq, StoreAnswer.name.injEq, exists_eq_left', Stores,
        exists_and_left, exists_eq, and_true]
      rw [normalForm_iff, normalForm_iff, ofText_text]
      exact ⟨fun hform => ⟨hform, hform ▸ h.1, h.2⟩, fun hform => hform.1⟩
    · obtain ⟨error, herror⟩ := perform_uploadRaw_refused (s := s) h
      rw [herror]
      refine ⟨nofun, ?_⟩
      rintro ⟨text, hform, hdirectory, hbody, -⟩
      exact absurd ⟨normalForm_iff.1 hform ▸ hdirectory, hbody⟩ h
  | get given =>
    refine ⟨?_, nofun⟩
    rintro ⟨stored, hanswer, -⟩
    rw [answer_get] at hanswer
    split at hanswer <;> cases hanswer
  | contains given => exact ⟨nofun, nofun⟩
  | remove given =>
    refine ⟨?_, nofun⟩
    rintro ⟨stored, hanswer, -⟩
    rw [answer_remove] at hanswer
    split at hanswer <;> cases hanswer

theorem store_of_error (hget : ∀ name, s.get? name ≠ some none) {error : StoreError}
    (h : (s.perform call).answer = .error error) : (s.perform call).store = s := by
  cases call with
  | put given body => contradiction
  | uploadForm file body => contradiction
  | uploadRaw path body =>
    by_cases haccepted : InDirectory (ProgramName.ofText path).text ∧ HasData body
    · rw [perform_uploadRaw_ok haccepted.1 haccepted.2] at h
      contradiction
    · obtain ⟨refusal, hrefusal⟩ := perform_uploadRaw_refused (s := s) haccepted
      rw [hrefusal]
  | get given =>
    simp only [perform]
    cases s.get? (.ofText given) <;> rfl
  | contains given => rfl
  | remove given =>
    rw [answer_remove] at h
    refine s.erase_of_absent ?_
    cases hfound : s.get? (.ofText given) with
    | none => rfl
    | some text =>
      cases text with
      | none => exact absurd hfound (hget _)
      | some text =>
        rw [hfound] at h
        cases h

/-! ### All calls -/

theorem run_concat (s : ProgramStore) (calls : List StoreCall) (call : StoreCall) :
    s.run (calls ++ [call]) = ((s.run calls).perform call).store := by
  rw [run, List.foldl_append]
  rfl

theorem get?_run_iff (calls : List StoreCall) (name : ProgramName) :
    ∀ text, (empty.run calls).get? name = some text ↔ LastStored calls name.text text := by
  induction calls using List.reverseRecOn with
  | nil =>
    intro text
    refine ⟨nofun, ?_⟩
    rintro ⟨before, call, after, hcalls, -⟩
    simp at hcalls
  | append_singleton calls call ih =>
    intro text
    rw [run_concat, lastStored_concat]
    by_cases hrewrites : call.Rewrites name.text
    · rcases hrewrites with ⟨stored, hstored⟩ | hremoves
      · rw [get?_perform_of_stores hstored, Option.some.injEq]
        constructor
        · rintro rfl
          exact Or.inl hstored
        · rintro (hstores | ⟨hkeeps, -⟩)
          · exact hstored.unique hstores
          · exact absurd (Or.inl ⟨stored, hstored⟩) hkeeps
      · rw [get?_perform_of_removes hremoves]
        refine ⟨nofun, ?_⟩
        rintro (hstores | ⟨hkeeps, -⟩)
        · cases call <;> contradiction
        · exact absurd (Or.inr hremoves) hkeeps
    · rw [get?_perform_of_keeps hrewrites, ih]
      constructor
      · exact fun h => Or.inr ⟨hrewrites, h⟩
      · rintro (hstores | ⟨-, h⟩)
        · exact absurd (Or.inl ⟨text, hstores⟩) hrewrites
        · exact h

theorem get?_run_none_iff (calls : List StoreCall) (name : ProgramName) :
    (empty.run calls).get? name = none ↔ ∀ text, ¬ LastStored calls name.text text := by
  rw [Option.eq_none_iff_forall_ne_some]
  exact forall_congr' fun text => not_congr (get?_run_iff calls name text)

theorem get?_run_ne {calls : List StoreCall} (h : ∀ call ∈ calls, call.Given)
    (name : ProgramName) : (empty.run calls).get? name ≠ some none := by
  rw [Ne, get?_run_iff]
  rintro ⟨before, call, after, rfl, hstores, -⟩
  have hgiven := h call (by simp)
  cases call with
  | put given body => exact hgiven (Option.map_eq_none_iff.1 hstores.2.symm)
  | uploadForm file body => exact hgiven (Option.map_eq_none_iff.1 hstores.2.symm)
  | uploadRaw path body => exact hgiven (Option.map_eq_none_iff.1 hstores.2.2.2.symm)
  | _ => contradiction

/-- The store behaves as the finite map that its history says: what is asked of it next is answered
by what was stored last under the same normal form. -/
structure Recalls (s : ProgramStore) (calls : List StoreCall) : Prop where
  found : ∀ name form text, NormalForm name form →
    ((s.perform (.get name)).answer = .ok (.text text) ↔ LastStored calls form text)
  absent : ∀ name form, NormalForm name form →
    ((s.perform (.get name)).answer = .error (.notFound (.ofText name)) ↔
      ∀ text, ¬ LastStored calls form text)
  contained : ∀ name, ∃ present, (s.perform (.contains name)).answer = .ok (.flag present) ∧
    (present = true ↔ ∃ text, (s.perform (.get name)).answer = .ok (.text text))
  answered : ∀ call form,
    (∃ stored, (s.perform call).answer = .ok (.name stored) ∧ NormalForm (some stored) form) ↔
      ∃ text, call.Stores form text
  untouched : ∀ call name form, NormalForm name form → ¬ call.Concerns form →
    ((s.perform call).store.perform (.get name)).answer = (s.perform (.get name)).answer
  uploaded : ∀ call name form, call.isUpload = true → NormalForm name form → ¬ InDirectory form →
    ((s.perform call).store.perform (.get name)).answer = (s.perform (.get name)).answer
  increasing : s.names.Pairwise (· < ·)
  listed : ∀ form, form ∈ s.names ↔ ∃ text, LastStored calls form text
  unrooted : ∀ form ∈ s.names, form.toList.head? ≠ some '/'
  -- A name that holds no text at all is removed although the removal fails.
  unchanged : (∀ call ∈ calls, call.Given) → ∀ call error,
    (s.perform call).answer = .error error → (s.perform call).store = s

/-- A store that began empty recalls all that it was asked, whatever the names and the order. -/
theorem run_recalls (calls : List StoreCall) : (empty.run calls).Recalls calls where
  found := by
    intro name form text hform
    rw [answer_get_ok_iff, get?_run_iff, normalForm_iff.1 hform]
  absent := by
    intro name form hform
    rw [answer_get_error_iff, get?_run_none_iff, normalForm_iff.1 hform]
  contained := by
    intro name
    refine ⟨_, rfl, ?_⟩
    rw [contains, Option.isSome_iff_exists]
    exact exists_congr fun text => answer_get_ok_iff.symm
  answered := fun call form => answer_name_iff
  untouched := by
    intro call name form hform hother
    refine answer_get_congr (get?_perform_of_keeps ?_)
    rw [normalForm_iff.1 hform]
    rintro (⟨text, hstores⟩ | hremoves)
    · exact hother hstores.concerns
    · exact hother hremoves.concerns
  uploaded := by
    intro call name form hupload hform houtside
    refine answer_get_congr (get?_perform_of_keeps ?_)
    rw [normalForm_iff.1 hform]
    rintro (⟨text, hstores⟩ | hremoves)
    · exact houtside (hstores.inDirectory hupload)
    · cases call <;> contradiction
  increasing := names_increasing _
  listed := by
    intro form
    rw [mem_names_iff]
    constructor
    · rintro ⟨name, rfl, hsome⟩
      obtain ⟨text, htext⟩ := Option.isSome_iff_exists.1 hsome
      exact ⟨text, (get?_run_iff calls name text).1 htext⟩
    · rintro ⟨text, hstored⟩
      obtain ⟨name, rfl⟩ := hstored.exists_name
      exact ⟨name, rfl, Option.isSome_iff_exists.2 ⟨text, (get?_run_iff calls name text).2 hstored⟩⟩
  unrooted := by
    intro form hform
    obtain ⟨name, rfl, -⟩ := (mem_names_iff _).1 hform
    exact name.unrooted
  unchanged := fun hgiven call error => store_of_error (get?_run_ne hgiven)

/-- Calls whose names collide: a file name that ends with a slash is stored under the default name,
and a name of nothing but slashes is no name. -/
def collidingCalls : List StoreCall := [
  .uploadForm (some "old/") (some (.text "G28")),
  .put (some "//gcodes/upload.gcode") (some (.bytes [71, 49, 255])),
  .put none (some (.text "G0")),
  .uploadRaw (some "/gcodes/a") (some (.text "")),
  .uploadRaw (some "/gcodes/b") (some (.bytes [71])),
  .remove (some "gcodes/b"),
  .put (some "///") (some (.text ""))]

theorem run_recalls_collisions :
    (empty.run collidingCalls).names = ["", "gcodes/upload.gcode"] ∧
      LastStored collidingCalls "gcodes/upload.gcode" (some "G1\uFFFD") ∧
      LastStored collidingCalls "" (some "") ∧
      (∀ text, ¬ LastStored collidingCalls "gcodes/b" text) ∧
      ((empty.run collidingCalls).perform (.remove (some "b"))).store =
        empty.run collidingCalls := by
  have hrecalls := run_recalls collidingCalls
  refine ⟨by decide +kernel, ?_, ?_, ?_, ?_⟩
  · have hform : NormalForm (some "/gcodes/upload.gcode") "gcodes/upload.gcode" :=
      normalForm_iff.2 (by decide +kernel)
    exact (hrecalls.found _ _ _ hform).1 (answer_get_ok_iff.2 (by decide +kernel))
  · have hform : NormalForm none "" := normalForm_iff.2 (by decide +kernel)
    exact (hrecalls.found _ _ _ hform).1 (answer_get_ok_iff.2 (by decide +kernel))
  · have hform : NormalForm (some "gcodes/b") "gcodes/b" := normalForm_iff.2 (by decide +kernel)
    exact (hrecalls.absent _ _ hform).1 (answer_get_error_iff.2 (by decide +kernel))
  · have hgiven : ∀ call ∈ collidingCalls, call.Given := by
      simp [collidingCalls, StoreCall.Given]
    have habsent : ((empty.run collidingCalls).get? (.ofText (some "b"))).join.isSome = false := by
      decide +kernel
    refine hrecalls.unchanged hgiven _ (.notFound (.ofText (some "b"))) ?_
    rw [answer_remove, habsent]
    rfl

end ProgramStore

end VirtualPrinter
