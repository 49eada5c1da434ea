import VirtualPrinter.Printer.Gcode
import VirtualPrinter.Proofs.GCode.Significant
import VirtualPrinter.Proofs.GCode.Words

/-!
# Start commands in a text

A start command is `M32` in either case, blanks, and a name between double quotes. The first one in
a text counts, wherever it stands, also behind a semicolon. It begins and ends with no blank, and no
semicolon stands in it before its first quote.
-/

namespace VirtualPrinter

open GCode Text

variable {text form name other rest blanks : List Char} {position : Nat} {c : Char}

/-- The texts of the command that starts a name. -/
inductive StartForm (name : List Char) : List Char → Prop
  | quoted {letter : Char} {blanks : List Char} (hletter : letter = 'M' ∨ letter = 'm')
      (hblanks : AllBlank blanks) (hne : blanks ≠ []) (hname : name ≠ []) (hquote : '"' ∉ name) :
      StartForm name (letter :: '3' :: '2' :: (blanks ++ '"' :: (name ++ ['"'])))

/-- A start command at a place of a text. -/
def StartAt (text : List Char) (position : Nat) (name : List Char) : Prop :=
  ∃ form, StartForm name form ∧ form <+: text.drop position

/-- A start command with no other before it. -/
def FirstStart (text name : List Char) : Prop :=
  ∃ position, StartAt text position name ∧
    ∀ earlier < position, ∀ other, ¬ StartAt text earlier other

/-! ### Reading a start command -/

theorem ne_quote_of_not_mem (h : '"' ∉ name) : ∀ c ∈ name, decide (c ≠ '"') = true := by
  intro c hc
  rw [decide_eq_true_eq]
  rintro rfl
  contradiction

theorem startCommandAt?_of_form (h : StartForm name form) (rest : List Char) :
    startCommandAt? (form ++ rest) = some name := by
  cases h with
  | @quoted letter blanks hletter hblanks hne hname hquote =>
    have hplain := ne_quote_of_not_mem hquote
    have hstop : isBlank '"' = false := by decide
    obtain ⟨first, later, hcons⟩ := List.exists_cons_of_ne_nil hne
    have htext : blanks ++ '"' :: (name ++ ['"']) ++ rest =
        blanks ++ '"' :: (name ++ '"' :: rest) := by
      simp
    simp only [List.cons_append, htext, startCommandAt?, if_pos hletter]
    rw [takeWhile_of_stop hblanks hstop, dropWhile_of_stop hblanks hstop, hcons]
    simp only
    rw [takeWhile_of_stop hplain (by decide), dropWhile_of_stop hplain (by decide)]
    exact if_pos ⟨hname, nofun⟩

/- What is left behind the name begins with the quote that closes it. -/
theorem exists_closed (h : text.dropWhile (· ≠ '"') ≠ []) :
    ∃ rest, text = text.takeWhile (· ≠ '"') ++ '"' :: rest := by
  have hhead := List.head_dropWhile_not (· ≠ '"') h
  have hsplit := List.takeWhile_append_dropWhile (p := (· ≠ '"')) (l := text)
  cases hdrop : text.dropWhile (· ≠ '"') with
  | nil => contradiction
  | cons first rest =>
    simp only [hdrop, List.head_cons, decide_eq_false_iff_not, not_not] at hhead
    subst hhead
    rw [hdrop] at hsplit
    exact ⟨rest, hsplit.symm⟩

theorem quote_not_mem_takeWhile (text : List Char) : '"' ∉ text.takeWhile (· ≠ '"') := by
  intro h
  simpa using List.mem_takeWhile_imp h

theorem exists_form_of_startCommandAt? (h : startCommandAt? text = some name) :
    ∃ form, StartForm name form ∧ form <+: text := by
  unfold startCommandAt? at h
  split at h
  next letter rest =>
    split at h
    next hletter =>
      split at h
      next first later quoted hblanks hquoted =>
        obtain ⟨⟨hname, hclosed⟩, hfound⟩ := Option.ite_none_right_eq_some.1 h
        cases hfound
        obtain ⟨after, hafter⟩ := exists_closed hclosed
        have hrest : rest = rest.takeWhile isBlank ++ '"' :: quoted := by
          rw [← hquoted, List.takeWhile_append_dropWhile]
        have hform := StartForm.quoted hletter (fun _ hc => List.mem_takeWhile_imp hc)
          (by rw [hblanks]; exact nofun) hname (quote_not_mem_takeWhile quoted)
        refine ⟨_, hform, after, ?_⟩
        simp only [List.cons_append, List.append_assoc, List.nil_append, ← hafter, ← hrest]
      next => contradiction
    next => contradiction
  next => contradiction

theorem startCommandAt?_eq_some_iff :
    startCommandAt? text = some name ↔ ∃ form, StartForm name form ∧ form <+: text := by
  constructor
  · exact exists_form_of_startCommandAt?
  · rintro ⟨form, hform, rest, rfl⟩
    exact startCommandAt?_of_form hform rest

/-! ### Places of start commands -/

theorem startAt_zero_iff : StartAt text 0 name ↔ startCommandAt? text = some name := by
  rw [startCommandAt?_eq_some_iff, StartAt, List.drop_zero]

theorem startAt_succ_iff : StartAt (c :: rest) (position + 1) name ↔ StartAt rest position name :=
  Iff.rfl

theorem StartForm.firstStart (h : StartForm name form) : FirstStart form name :=
  ⟨0, ⟨form, h, List.prefix_rfl⟩, fun _ hearlier => absurd hearlier (Nat.not_lt_zero _)⟩

theorem not_startAt_nil : ¬ StartAt [] position name := by
  rintro ⟨form, hform, hbegins⟩
  rw [List.drop_nil, List.prefix_nil] at hbegins
  subst hbegins
  cases hform

theorem firstStart_cons_iff : FirstStart (c :: rest) name ↔
    StartAt (c :: rest) 0 name ∨
      (∀ other, ¬ StartAt (c :: rest) 0 other) ∧ FirstStart rest name := by
  rw [FirstStart, exists_first_iff]
  simp only [startAt_succ_iff]
  rfl

/- The search finds the first start command. -/
theorem startCommand?_eq_some_iff : startCommand? text = some name ↔ FirstStart text name := by
  induction text with
  | nil =>
    refine iff_of_false nofun ?_
    rintro ⟨position, hat, -⟩
    exact not_startAt_nil hat
  | cons c rest ih =>
    rw [firstStart_cons_iff, ← ih]
    simp only [startAt_zero_iff, startCommand?]
    cases startCommandAt? (c :: rest) with
    | none => simp
    | some found => simp

theorem startCommand?_eq_none_iff :
    startCommand? text = none ↔ ∀ position name, ¬ StartAt text position name := by
  induction text with
  | nil => exact iff_of_true rfl fun _ _ => not_startAt_nil
  | cons c rest ih =>
    have hhere : startCommandAt? (c :: rest) = none ↔ ∀ name, ¬ StartAt (c :: rest) 0 name := by
      simp only [startAt_zero_iff, Option.eq_none_iff_forall_ne_some]
    rw [startCommand?, Option.or_eq_none_iff, hhere, ih]
    constructor
    · rintro ⟨hzero, hlater⟩ position name
      cases position with
      | zero => exact hzero name
      | succ position => exact hlater position name
    · intro h
      exact ⟨h 0, fun position => h (position + 1)⟩

/-! ### Blanks around a start command -/

theorem StartForm.exists_last (h : StartForm name form) : ∃ front, form = front ++ ['"'] := by
  cases h with
  | @quoted letter blanks hletter hblanks hne hname hquote =>
    exact ⟨letter :: '3' :: '2' :: (blanks ++ '"' :: name), by simp⟩

theorem StartForm.prefix_of_append (h : StartForm name form) (hblanks : AllBlank blanks)
    (hbegins : form <+: text ++ blanks) : form <+: text := by
  rcases List.prefix_or_prefix_of_prefix hbegins (List.prefix_append text blanks) with hpre | hpre
  · exact hpre
  · obtain ⟨tail, rfl⟩ := hpre
    rw [List.prefix_append_right_inj] at hbegins
    cases htail : tail.getLast? with
    | none =>
      rw [List.getLast?_eq_none_iff] at htail
      simp only [htail, List.append_nil, List.prefix_rfl]
    | some last =>
      obtain ⟨front, hfront⟩ := h.exists_last
      have hlast : (text ++ tail).getLast? = some '"' := by
        rw [hfront, List.getLast?_concat]
      rw [List.getLast?_append, htail, Option.some_or] at hlast
      cases hlast
      exact absurd (hblanks _ (hbegins.subset (List.mem_of_getLast? htail))) (by decide)

theorem startCommandAt?_append_blanks (h : AllBlank blanks) (text : List Char) :
    startCommandAt? (text ++ blanks) = startCommandAt? text := by
  apply Option.ext
  intro name
  rw [startCommandAt?_eq_some_iff, startCommandAt?_eq_some_iff]
  constructor
  · rintro ⟨form, hform, hbegins⟩
    exact ⟨form, hform, hform.prefix_of_append h hbegins⟩
  · rintro ⟨form, hform, hbegins⟩
    exact ⟨form, hform, hbegins.trans (List.prefix_append text blanks)⟩

theorem startCommandAt?_blank_cons (h : isBlank c = true) (rest : List Char) :
    startCommandAt? (c :: rest) = none := by
  rw [Option.eq_none_iff_forall_ne_some]
  intro name hname
  obtain ⟨form, hform, hbegins⟩ := startCommandAt?_eq_some_iff.1 hname
  cases hform with
  | @quoted letter blanks hletter hblanks hne hname hquote =>
    obtain rfl := (List.cons_prefix_cons.1 hbegins).1
    rcases hletter with rfl | rfl
    · exact absurd h (by decide)
    · exact absurd h (by decide)

theorem startCommand?_blanks_append (h : AllBlank blanks) (text : List Char) :
    startCommand? (blanks ++ text) = startCommand? text := by
  induction blanks with
  | nil => rfl
  | cons c blanks ih =>
    have hc : isBlank c = true := h c List.mem_cons_self
    have hblanks : AllBlank blanks := fun d hd => h d (List.mem_cons_of_mem c hd)
    rw [List.cons_append, startCommand?, startCommandAt?_blank_cons hc, Option.none_or, ih hblanks]

theorem startCommand?_append_blanks (h : AllBlank blanks) (text : List Char) :
    startCommand? (text ++ blanks) = startCommand? text := by
  induction text with
  | nil =>
    have hnone := startCommand?_blanks_append h []
    rwa [List.append_nil] at hnone
  | cons c rest ih =>
    have hhere := startCommandAt?_append_blanks h (c :: rest)
    rw [List.cons_append] at hhere
    rw [List.cons_append, startCommand?, startCommand?, hhere, ih]

theorem startCommand?_trim (text : List Char) : startCommand? (trim text) = startCommand? text := by
  obtain ⟨front, back, hfront, hback, htext⟩ := exists_trim text
  conv_rhs => rw [htext]
  rw [List.append_assoc, startCommand?_blanks_append hfront, startCommand?_append_blanks hback]

/-! ### Start commands behind a semicolon -/

/- Before the first quote of a start command stand its letter, its digits and blanks. -/
theorem StartForm.exists_opening (h : StartForm name form) :
    ∃ opening later, form = opening ++ '"' :: later ∧ ';' ∉ opening := by
  cases h with
  | @quoted letter blanks hletter hblanks hne hname hquote =>
    refine ⟨letter :: '3' :: '2' :: blanks, name ++ ['"'], rfl, ?_⟩
    intro hmem
    simp only [List.mem_cons] at hmem
    rcases hmem with hmem | hmem | hmem | hmem
    · rcases hletter with rfl | rfl <;> contradiction
    · contradiction
    · contradiction
    · exact absurd (hblanks _ hmem) (by decide)

theorem startCommandAt?_semicolon (h : '"' ∉ text) (rest : List Char) :
    startCommandAt? (text ++ ';' :: rest) = none := by
  rw [Option.eq_none_iff_forall_ne_some]
  intro name hname
  obtain ⟨form, hform, tail, htail⟩ := startCommandAt?_eq_some_iff.1 hname
  obtain ⟨opening, later, rfl, hopening⟩ := hform.exists_opening
  rw [List.append_assoc, List.cons_append, List.append_eq_append_iff] at htail
  rcases htail with ⟨between, rfl, hbetween⟩ | ⟨between, rfl, hbetween⟩
  · -- The quote stands in the text, before the semicolon.
    cases between with
    | nil => cases hbetween
    | cons c between =>
      obtain rfl := (List.cons.inj hbetween).1
      exact h (List.mem_append_right _ List.mem_cons_self)
  · -- The semicolon stands before the quote.
    cases between with
    | nil => cases hbetween
    | cons c between =>
      obtain rfl := (List.cons.inj hbetween).1
      exact hopening (List.mem_append_right _ List.mem_cons_self)

theorem startCommand?_semicolon (h : '"' ∉ text) (rest : List Char) :
    startCommand? (text ++ ';' :: rest) = startCommand? rest := by
  induction text with
  | nil =>
    have hhere := startCommandAt?_semicolon h rest
    rw [List.nil_append] at hhere ⊢
    rw [startCommand?, hhere, Option.none_or]
  | cons c text ih =>
    have hhere := startCommandAt?_semicolon h rest
    have htext : '"' ∉ text := fun hmem => h (List.mem_cons_of_mem c hmem)
    rw [List.cons_append] at hhere ⊢
    rw [startCommand?, hhere, Option.none_or, ih htext]

theorem startCommand?_of_no_quote (h : '"' ∉ text) : startCommand? text = none := by
  rw [startCommand?_eq_none_iff]
  rintro position name ⟨form, hform, hbegins⟩
  obtain ⟨opening, later, rfl, -⟩ := hform.exists_opening
  have hmem : '"' ∈ text.drop position := hbegins.subset (by simp)
  exact h (List.mem_of_mem_drop hmem)

end VirtualPrinter
