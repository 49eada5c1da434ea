import Mathlib.Data.List.Infix
import Mathlib.Data.List.TakeWhile
import VirtualPrinter.CommandLine.Options
import VirtualPrinter.Proofs.Results

/-!
# What an argument list asks for

An argument list spells options when it is made of the program file, of options by their names or by
the beginning of one, and of their values, behind the name or attached to it. What is spelled is what
is read, one argument after the other.
-/

namespace VirtualPrinter.CommandLine

variable {word text value : String} {flag : Flag} {o p : Options}

/-! ### Words for options -/

/-- A word begins the long spelling of one option, and of no other. -/
def Abbreviates (word : String) (flag : Flag) : Prop :=
  ['-', '-'] <+: word.toList ∧ (∃ spelling ∈ Flag.spellings, word.toList <+: spelling.1.toList) ∧
    ∀ spelling ∈ Flag.spellings, word.toList <+: spelling.1.toList → spelling.2 = flag

instance (word : String) (flag : Flag) : Decidable (Abbreviates word flag) :=
  inferInstanceAs (Decidable (_ ∧ _ ∧ _))

def Names (word : String) (flag : Flag) : Prop :=
  (word, flag) ∈ Flag.spellings ∨ Abbreviates word flag

instance (word : String) (flag : Flag) : Decidable (Names word flag) :=
  inferInstanceAs (Decidable (_ ∨ _))

theorem lookup_spelling : ∀ spelling ∈ Flag.spellings,
    Flag.spellings.lookup spelling.1 = some spelling.2 := by
  decide

theorem mem_of_lookup_spelling (h : Flag.spellings.lookup word = some flag) :
    (word, flag) ∈ Flag.spellings := by
  obtain ⟨before, after, hsplit, -⟩ := List.lookup_eq_some_iff.1 h
  rw [hsplit]
  exact List.mem_append_right _ List.mem_cons_self

/- Spellings begin with a dash and have no equals sign. -/
theorem spelling_plain : ∀ spelling ∈ Flag.spellings,
    spelling.1.toList.head? = some '-' ∧ '=' ∉ spelling.1.toList := by
  decide

/- No spelling of an option is the beginning of another one. -/
theorem filter_beginning : ∀ spelling ∈ Flag.spellings, ∀ name ∈ spelling.1.toList.inits,
    ['-', '-'] <+: name →
      (∀ other ∈ Flag.spellings, name <+: other.1.toList → other.2 = spelling.2) →
        (Flag.spellings.filter fun other => name.isPrefixOf other.1.toList).map (·.2) =
          [spelling.2] := by
  decide

theorem Abbreviates.filter (h : Abbreviates word flag) :
    ∃ long, (Flag.spellings.filter fun other => word.toList.isPrefixOf other.1.toList) =
      [(long, flag)] := by
  obtain ⟨hdashes, ⟨spelling, hspelling, hbegins⟩, honly⟩ := h
  obtain rfl := honly spelling hspelling hbegins
  have hmap := filter_beginning spelling hspelling _ ((List.mem_inits _ _).2 hbegins) hdashes honly
  obtain ⟨entry, hentry, hflag⟩ := List.map_eq_singleton_iff.1 hmap
  exact ⟨entry.1, hentry.trans (by rw [← hflag])⟩

theorem Abbreviates.plain (h : Abbreviates word flag) : '=' ∉ word.toList := by
  obtain ⟨-, ⟨spelling, hspelling, hbegins⟩, -⟩ := h
  exact fun hmem => (spelling_plain spelling hspelling).2 (hbegins.subset hmem)

theorem splitEquals_plain (h : '=' ∉ word.toList) : splitEquals word.toList = (word, .none) := by
  have hdrop : word.toList.dropWhile (· ≠ '=') = [] := by
    rw [List.dropWhile_eq_nil_iff]
    intro c hc
    simpa using fun heq : c = '=' => h (heq ▸ hc)
  simp only [splitEquals, hdrop, String.ofList_toList]

theorem splitEquals_attached (h : '=' ∉ word.toList) (value : String) :
    splitEquals (word.toList ++ '=' :: value.toList) = (word, .equals value) := by
  have hall : ∀ c ∈ word.toList, decide (c ≠ '=') = true := by
    intro c hc
    simpa using fun heq : c = '=' => h (heq ▸ hc)
  have hdrop : (word.toList ++ '=' :: value.toList).dropWhile (· ≠ '=') = '=' :: value.toList := by
    rw [List.dropWhile_append_of_pos hall, List.dropWhile_cons_of_neg (by simp)]
  have htake : (word.toList ++ '=' :: value.toList).takeWhile (· ≠ '=') = word.toList := by
    rw [List.takeWhile_append_of_pos hall, List.takeWhile_cons_of_neg (by simp), List.append_nil]
  simp only [splitEquals, hdrop, htake, String.ofList_toList]

/- A text that begins with two dashes and is no spelling is read as a long option. -/
theorem classify?_long {rest : List Char} (hnone : Flag.spellings.lookup text = none)
    (h : text.toList = '-' :: '-' :: rest) : classify? text = longArgument? text := by
  simp only [classify?, hnone, h]

theorem classify?_of_names (h : Names word flag) :
    classify? word = some (.option flag .none) := by
  cases hlookup : Flag.spellings.lookup word with
  | some found =>
    have hfound := mem_of_lookup_spelling hlookup
    have hflag : found = flag := by
      rcases h with hmem | ⟨-, -, honly⟩
      · have hsame := lookup_spelling _ hmem
        rw [hlookup, Option.some.injEq] at hsame
        exact hsame
      · exact honly _ hfound List.prefix_rfl
    rw [classify?, hlookup, hflag]
  | none =>
    rcases h with hmem | habbreviates
    · have hsome := lookup_spelling _ hmem
      rw [hlookup] at hsome
      contradiction
    · obtain ⟨rest, hrest⟩ := habbreviates.1
      obtain ⟨long, hlong⟩ := habbreviates.filter
      rw [classify?_long hlookup hrest.symm, longArgument?, splitEquals_plain habbreviates.plain]
      dsimp only
      rw [hlong]

theorem toList_attached (word value : String) :
    (word ++ "=" ++ value).toList = word.toList ++ '=' :: value.toList := by
  rw [String.toList_append, String.toList_append, List.append_assoc]
  rfl

theorem classify?_attached (h : Abbreviates word flag) (value : String) :
    classify? (word ++ "=" ++ value) = some (.option flag (.equals value)) := by
  have hnone : Flag.spellings.lookup (word ++ "=" ++ value) = none := by
    cases hlookup : Flag.spellings.lookup (word ++ "=" ++ value) with
    | none => rfl
    | some found =>
      have hplain := (spelling_plain _ (mem_of_lookup_spelling hlookup)).2
      rw [toList_attached] at hplain
      exact absurd (List.mem_append_right _ List.mem_cons_self) hplain
  obtain ⟨rest, hrest⟩ := h.1
  obtain ⟨long, hlong⟩ := h.filter
  have hdashes : (word ++ "=" ++ value).toList = '-' :: '-' :: (rest ++ '=' :: value.toList) := by
    rw [toList_attached, ← hrest]
    rfl
  rw [classify?_long hnone hdashes, longArgument?, toList_attached, splitEquals_attached h.plain]
  dsimp only
  rw [hlong]

/-! ### Operands -/

/-- A text that begins with no dash, or a negative number. -/
def IsOperand (text : String) : Prop :=
  text.toList.head? = some '-' → isNegativeNumber text.toList = true

instance (text : String) : Decidable (IsOperand text) := inferInstanceAs (Decidable (_ → _))

/- What follows the dash of a negative number is a digit or a point. -/
theorem exists_letter_of_isNegativeNumber {chars : List Char} (h : isNegativeNumber chars = true) :
    ∃ letter rest, chars = '-' :: letter :: rest ∧
      (Text.isDecimalDigit letter = true ∨ letter = '.') := by
  unfold isNegativeNumber at h
  split at h
  · rename_i number
    dsimp only at h
    generalize hplain : (if number.getLast? = some '\n' then number.dropLast else number) = plain at h
    have hprefix : plain <+: number := by
      rw [← hplain]
      split
      · exact List.dropLast_prefix number
      · exact List.prefix_rfl
    cases plain with
    | nil => simp at h
    | cons letter rest =>
      obtain ⟨tail, rfl⟩ := hprefix
      refine ⟨letter, rest ++ tail, rfl, ?_⟩
      by_cases hdigit : Text.isDecimalDigit letter = true
      · exact Or.inl hdigit
      · rw [List.dropWhile_cons_of_neg hdigit] at h
        split at h
        next heq => cases heq
        next heq => exact Or.inr (List.cons.inj heq).1
        next => contradiction
  · contradiction

theorem spelling_second : ∀ spelling ∈ Flag.spellings, (spelling.1.toList[1]?.all fun letter =>
    letter = '-' ∨ letter = 'h' ∨ letter = 'v') = true := by
  decide

theorem not_number_second {letter : Char} (h : letter = '-' ∨ letter = 'h' ∨ letter = 'v') :
    ¬ (Text.isDecimalDigit letter = true ∨ letter = '.') := by
  rcases h with rfl | rfl | rfl <;> decide

/- No option begins like a number. -/
theorem lookup_number {letter : Char} {rest : List Char} (h : text.toList = '-' :: letter :: rest)
    (hletter : Text.isDecimalDigit letter = true ∨ letter = '.') :
    Flag.spellings.lookup text = none := by
  cases hlookup : Flag.spellings.lookup text with
  | none => rfl
  | some flag =>
    have hsecond := spelling_second _ (mem_of_lookup_spelling hlookup)
    rw [h] at hsecond
    exact absurd hletter (not_number_second (of_decide_eq_true hsecond))

theorem classify?_operand (h : IsOperand text) : classify? text = some (.operand text) := by
  by_cases hdash : text.toList.head? = some '-'
  · have hnumber := h hdash
    obtain ⟨letter, rest, hchars, hletter⟩ := exists_letter_of_isNegativeNumber hnumber
    have hshort : Flag.spellings.lookup (String.ofList ['-', letter]) = none :=
      lookup_number String.toList_ofList hletter
    have hne : letter ≠ '-' := fun hsame => not_number_second (Or.inl hsame) hletter
    simp only [classify?, lookup_number hchars hletter, hchars]
    simp only [shortArgument, hshort, nonOption, hnumber, true_or, if_true]
  · have hnone : Flag.spellings.lookup text = none := by
      cases hlookup : Flag.spellings.lookup text with
      | none => rfl
      | some flag => exact absurd (spelling_plain _ (mem_of_lookup_spelling hlookup)).1 hdash
    simp only [classify?, hnone]
    split
    next heq => exact absurd (by rw [heq]; rfl) hdash
    next heq => exact absurd (by rw [heq]; rfl) hdash
    next => rfl

/-! ### Values -/

/-- What a text gives an option: the value that is read, or nothing for the mark of the operands. -/
inductive Says {α : Type} (read? : String → Option α) : String → Given α → Prop
  | value {text : String} {a : α} (hmark : text ≠ "--") (h : read? text = some a) :
      Says read? text (.value a)
  | nothing : Says read? "--" .nothing

theorem Says.read? {α : Type} {readValue? : String → Option α} {x : Given α}
    (h : Says readValue? text x) : Given.read? readValue? text = some x := by
  cases h with
  | value hmark h =>
    rw [Given.read?, if_neg hmark, h]
    rfl
  | nothing => rfl

/-- The options that a value given to one of them leaves. -/
inductive Gives (o : Options) : Flag → String → Options → Prop
  | feed {text : String} {x : Given Binary64} (h : Says Text.readNumber? text x) :
      Gives o .feed text { o with feed := some x }
  | printSeconds {text : String} {x : Given Binary64} (h : Says Text.readNumber? text x) :
      Gives o .printSeconds text { o with printSeconds := some x }
  | interval {text : String} {x : Given Binary64} (h : Says Text.readNumber? text x) :
      Gives o .interval text { o with interval := x }
  | count {text : String} {n : Given Int} (h : Says Text.readInteger? text n) :
      Gives o .count text { o with count := n }
  | objectModel : Gives o .dialect "dsf" { o with dialect := .objectModel }
  | legacy : Gives o .dialect "rr" { o with dialect := .legacy }
  | noDialect : Gives o .dialect "--" { o with dialect := .objectModel }

theorem Gives.setValue? (h : Gives o flag value p) : o.setValue? flag value = some p := by
  cases h with
  | feed h => exact congrArg (Option.map _) h.read?
  | printSeconds h => exact congrArg (Option.map _) h.read?
  | interval h => exact congrArg (Option.map _) h.read?
  | count h => exact congrArg (Option.map _) h.read?
  | objectModel => rfl
  | legacy => rfl
  | noDialect => rfl

theorem Gives.takesValue (h : Gives o flag value p) : flag.takesValue = true := by
  cases h <;> rfl

theorem Gives.file (h : Gives o flag value p) : p.file = o.file := by
  cases h <;> rfl

/-! ### Argument lists -/

/-- The options that an argument list leaves, from those that were read before. The file is given
once, and behind the mark of the operands it may look like an option. -/
inductive Spells : Options → List String → Options → Prop
  | done (o : Options) : Spells o [] o
  | file {o p : Options} {text : String} {arguments : List String} (hnone : o.file = none)
      (htext : IsOperand text) (hrest : Spells { o with file := some text } arguments p) :
      Spells o (text :: arguments) p
  | marked {o : Options} (hnone : o.file = none) (text : String) :
      Spells o ["--", text] { o with file := some text }
  | verbose {o p : Options} {word : String} {arguments : List String}
      (hname : Names word .verbose) (hrest : Spells { o with verbose := true } arguments p) :
      Spells o (word :: arguments) p
  | separate {o p q : Options} {word value : String} {flag : Flag} {arguments : List String}
      (hname : Names word flag) (hvalue : IsOperand value) (hgives : Gives o flag value p)
      (hrest : Spells p arguments q) : Spells o (word :: value :: arguments) q
  | attached {o p q : Options} {word value : String} {flag : Flag} {arguments : List String}
      (hname : Abbreviates word flag) (hgives : Gives o flag value p)
      (hrest : Spells p arguments q) : Spells o ((word ++ "=" ++ value) :: arguments) q

/-! ### Reading -/

/-- A reading that has come to the given options, waits for the value of an option or for nothing,
and has nothing left over. -/
structure Stands (r : Reading) (o : Options) (awaiting : Option Flag) : Prop where
  options : r.options = o
  awaiting : r.awaiting = awaiting
  surplus : r.surplus = false
  fileRead : r.fileRead = o.file.isSome

variable {r : Reading} {q : Options} {waiting later : Option Flag} {arguments : List String}

theorem Stands.unread (h : Stands r o waiting) (hnone : o.file = none) : r.fileRead = false := by
  rw [h.fileRead, hnone]
  rfl

theorem Stands.withOptions (h : Stands r o waiting) (hfile : p.file = o.file) :
    Stands (r.withOptions p) p none where
  options := rfl
  awaiting := rfl
  surplus := h.surplus
  fileRead := hfile ▸ h.fileRead

theorem Stands.step_file (h : Stands r o none) (hnone : o.file = none) (text : String) :
    ∃ s, r.step (.operand text) = .ok s ∧ Stands s { o with file := some text } none := by
  refine ⟨r.takeOperand text, ?_, ?_⟩
  · simp only [Reading.step, h.awaiting]
  · simp only [Reading.takeOperand, h.unread hnone, Bool.false_eq_true, if_false]
    exact ⟨by rw [h.options], h.awaiting, h.surplus, rfl⟩

theorem Stands.step_separator (h : Stands r o none) (hnone : o.file = none) :
    r.step .separator = .ok r := by
  simp only [Reading.step, h.awaiting, Reading.takeSeparator, h.unread hnone, Bool.false_and,
    Bool.false_eq_true, if_false]

theorem Stands.step_verbose (h : Stands r o none) :
    ∃ s, r.step (.option .verbose .none) = .ok s ∧ Stands s { o with verbose := true } none := by
  refine ⟨r.withOptions { o with verbose := true }, ?_, h.withOptions rfl⟩
  simp only [Reading.step, h.awaiting, ← h.options]
  rfl

theorem Stands.step_attached (h : Stands r o none) (hgives : Gives o flag value p) :
    ∃ s, r.step (.option flag (.equals value)) = .ok s ∧ Stands s p none := by
  refine ⟨r.withOptions p, ?_, h.withOptions hgives.file⟩
  simp only [Reading.step, h.awaiting, Reading.takeOption, hgives.takesValue, Bool.not_true,
    Bool.false_eq_true, if_false, Reading.takeValue, h.options, hgives.setValue?]

theorem Stands.step_name (h : Stands r o none) (hvalue : flag.takesValue = true) :
    ∃ s, r.step (.option flag .none) = .ok s ∧ Stands s o (some flag) := by
  refine ⟨{ r with awaiting := some flag, mayClose := false }, ?_, ?_⟩
  · simp only [Reading.step, h.awaiting, Reading.takeOption, hvalue, Bool.not_true,
      Bool.false_eq_true, if_false]
  · exact ⟨h.options, rfl, h.surplus, h.fileRead⟩

theorem Stands.step_value (h : Stands r o (some flag)) (hgives : Gives o flag value p) :
    ∃ s, r.step (.operand value) = .ok s ∧ Stands s p none := by
  refine ⟨r.withOptions p, ?_, h.withOptions hgives.file⟩
  simp only [Reading.step, h.awaiting, Reading.takeValue, h.options, hgives.setValue?]

/-! ### Whole lists -/

/-- The arguments are told apart, and they lead every reading that stands at `o` to `p`. -/
def Leads (o : Options) (waiting : Option Flag) (arguments : List String) (p : Options) : Prop :=
  ∃ classified, classifyAll? arguments = some classified ∧ ∀ r, Stands r o waiting →
    ∃ s, classified.foldlM Reading.step r = .ok s ∧ Stands s p none

theorem classifyAll?_cons {argument : Argument} {classified : List Argument}
    (hmark : text ≠ "--") (h : classify? text = some argument)
    (hrest : classifyAll? arguments = some classified) :
    classifyAll? (text :: arguments) = some (argument :: classified) := by
  unfold classifyAll?
  split
  · contradiction
  · rename_i heq
    exact absurd (List.cons.inj heq).1 hmark
  · rename_i heq
    obtain ⟨rfl, rfl⟩ := List.cons.inj heq
    rw [h, hrest]
    rfl

theorem Leads.cons {argument : Argument} (hrest : Leads q later arguments p) (hmark : text ≠ "--")
    (hargument : classify? text = some argument)
    (hstep : ∀ r, Stands r o waiting → ∃ s, r.step argument = .ok s ∧ Stands s q later) :
    Leads o waiting (text :: arguments) p := by
  obtain ⟨classified, hclassified, hreads⟩ := hrest
  refine ⟨_, classifyAll?_cons hmark hargument hclassified, fun r hr => ?_⟩
  obtain ⟨s, hs, hstands⟩ := hstep r hr
  obtain ⟨t, hrun, ht⟩ := hreads s hstands
  exact ⟨t, by rw [List.foldlM_cons, hs, ok_bind, hrun], ht⟩

theorem IsOperand.ne_mark (h : IsOperand text) : text ≠ "--" := by
  rintro rfl
  exact absurd h (by decide)

theorem Names.ne_mark (h : Names word flag) : word ≠ "--" := by
  rintro rfl
  revert h
  cases flag <;> decide

theorem attached_ne_mark (word value : String) : word ++ "=" ++ value ≠ "--" := by
  intro heq
  have hmem : '=' ∈ (word ++ "=" ++ value).toList := by
    rw [toList_attached]
    exact List.mem_append_right _ List.mem_cons_self
  rw [heq] at hmem
  exact absurd hmem (by decide)

theorem leads_of_spells (h : Spells o arguments p) : Leads o none arguments p := by
  induction h with
  | done o => exact ⟨[], rfl, fun r hr => ⟨r, rfl, hr⟩⟩
  | file hnone htext hrest ih =>
    exact ih.cons htext.ne_mark (classify?_operand htext) fun r hr => hr.step_file hnone _
  | marked hnone text =>
    refine ⟨[.separator, .operand text], rfl, fun r hr => ?_⟩
    obtain ⟨s, hstep, hs⟩ := hr.step_file hnone text
    refine ⟨s, ?_, hs⟩
    rw [List.foldlM_cons, hr.step_separator hnone, ok_bind, List.foldlM_cons, hstep, ok_bind]
    rfl
  | verbose hname hrest ih =>
    exact ih.cons hname.ne_mark (classify?_of_names hname) fun r hr => hr.step_verbose
  | separate hname hvalue hgives hrest ih =>
    have hlater := ih.cons hvalue.ne_mark (classify?_operand hvalue) fun r hr =>
      hr.step_value hgives
    exact hlater.cons hname.ne_mark (classify?_of_names hname) fun r hr =>
      hr.step_name hgives.takesValue
  | attached hname hgives hrest ih =>
    exact ih.cons (attached_ne_mark _ _) (classify?_attached hname _) fun r hr =>
      hr.step_attached hgives

/-- An argument list is read as the options that it spells. -/
theorem ofArguments_of_spells (h : Spells {} arguments p) :
    Options.ofArguments arguments = .ok p := by
  obtain ⟨classified, hclassified, hreads⟩ := leads_of_spells h
  obtain ⟨s, hrun, hs⟩ := hreads {} ⟨rfl, rfl, rfl, rfl⟩
  have hdone : ¬ (s.surplus = true ∨ s.awaiting.isSome = true) := by
    rw [hs.surplus, hs.awaiting]
    decide
  simp only [Options.ofArguments, hclassified]
  rw [hrun, ok_bind, if_neg hdone, hs.options]
  rfl

end VirtualPrinter.CommandLine
