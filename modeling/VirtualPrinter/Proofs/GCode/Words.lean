import Mathlib.Data.List.Basic
import VirtualPrinter.GCode.Line
import VirtualPrinter.Proofs.Binary64.Digits
import VirtualPrinter.Proofs.Binary64.Nearest
import VirtualPrinter.Proofs.GCode.Numerals
import VirtualPrinter.Proofs.Results

/-!
# Words and their places

A word is at a place of a line where a letter stands with a numeral behind it. A line holds the
first word of every letter that names no command, and its command is named by the word at its very
start. The value of a word is the nearest one to the number it spells.
-/

namespace VirtualPrinter.GCode

open Text

variable {text rest : List Char} {position : Nat} {letter c : Char} {n : Numeral}

/-! ### Places of words -/

structure WordAt (text : List Char) (position : Nat) (letter : Char) (n : Numeral) : Prop where
  letterAt : text[position]? = some letter
  isLetter : isWordLetter letter = true
  longest : n.LongestIn (text.drop (position + 1))

/- A word starts wherever any numeral stands behind a letter. -/
theorem exists_wordAt_iff : (∃ n, WordAt text position letter n) ↔
    text[position]? = some letter ∧ isWordLetter letter = true ∧
      ∃ n t, Numeral.WrittenAs n t ∧ t <+: text.drop (position + 1) := by
  rw [← Numeral.exists_longestIn_iff]
  constructor
  · rintro ⟨n, h⟩
    exact ⟨h.letterAt, h.isLetter, n, h.longest⟩
  · rintro ⟨hat, hletter, n, hn⟩
    exact ⟨n, hat, hletter, hn⟩

/-- A word with no other word of its letter before it. -/
def FirstWord (text : List Char) (letter : Char) (n : Numeral) : Prop :=
  ∃ position, WordAt text position letter n ∧
    ∀ earlier < position, ∀ m, ¬ WordAt text earlier letter m

theorem wordAt_zero_iff :
    WordAt (c :: rest) 0 letter n ↔
      letter = c ∧ (if isWordLetter c then Numeral.read? rest else none) = some n := by
  constructor
  · intro h
    obtain rfl : c = letter := by simpa using h.letterAt
    exact ⟨rfl, by simpa [h.isLetter, Numeral.read?_eq_some_iff] using h.longest⟩
  · rintro ⟨rfl, h⟩
    by_cases hletter : isWordLetter letter = true
    · rw [if_pos hletter, Numeral.read?_eq_some_iff] at h
      exact ⟨by simp, hletter, by simpa using h⟩
    · rw [if_neg hletter] at h
      contradiction

theorem wordAt_succ_iff : WordAt (c :: rest) (position + 1) letter n ↔
    WordAt rest position letter n := by
  constructor
  · intro h
    exact ⟨by simpa using h.letterAt, h.isLetter, by simpa using h.longest⟩
  · intro h
    exact ⟨by simpa using h.letterAt, h.isLetter, by simpa using h.longest⟩

theorem not_firstWord_nil : ¬ FirstWord [] letter n := by
  rintro ⟨position, hword, -⟩
  simpa using hword.letterAt

/- What is first among places is at the very first one, or there is nothing there and it is first
among the places behind. -/
theorem exists_first_iff {α : Type} {P : Nat → α → Prop} {a : α} :
    (∃ position, P position a ∧ ∀ earlier < position, ∀ b, ¬ P earlier b) ↔
      P 0 a ∨ (∀ b, ¬ P 0 b) ∧
        ∃ position, P (position + 1) a ∧ ∀ earlier < position, ∀ b, ¬ P (earlier + 1) b := by
  constructor
  · rintro ⟨position, hat, hfirst⟩
    cases position with
    | zero => exact Or.inl hat
    | succ position =>
      refine Or.inr ⟨hfirst 0 (Nat.zero_lt_succ _), position, hat, ?_⟩
      exact fun earlier hearlier => hfirst (earlier + 1) (Nat.succ_lt_succ hearlier)
  · rintro (hat | ⟨hnone, position, hat, hfirst⟩)
    · exact ⟨0, hat, fun _ h => absurd h (Nat.not_lt_zero _)⟩
    · refine ⟨position + 1, hat, fun earlier hearlier => ?_⟩
      cases earlier with
      | zero => exact hnone
      | succ earlier => exact hfirst earlier (Nat.lt_of_succ_lt_succ hearlier)

theorem firstWord_cons_iff : FirstWord (c :: rest) letter n ↔
    WordAt (c :: rest) 0 letter n ∨
      (∀ m, ¬ WordAt (c :: rest) 0 letter m) ∧ FirstWord rest letter n := by
  rw [FirstWord, exists_first_iff]
  simp only [wordAt_succ_iff]
  rfl

/- The words of a text give a letter the value of the first word at one of its places. -/
theorem lookup_allWords {value : Binary64} :
    (allWords text).lookup letter = some value ↔
      ∃ n, FirstWord text letter n ∧ n.value = value := by
  induction text with
  | nil => simp [allWords, not_firstWord_nil]
  | cons c rest ih =>
    simp only [firstWord_cons_iff, wordAt_zero_iff, allWords]
    cases hread : (if isWordLetter c then Numeral.read? rest else none) with
    | none => simp [ih]
    | some numeral =>
      by_cases hletter : letter = c
      · simp [hletter]
      · have hne : (letter == c) = false := beq_false_of_ne hletter
        simp [List.lookup_cons, hne, hletter, ih]

/-! ### One search behind the other -/

theorem isWordLetter_of_digit (h : isAsciiDigit c = true ∨ c = '.') : isWordLetter c = false := by
  rcases h with h | rfl
  · simp only [isAsciiDigit, isWordLetter, Char.le_def, UInt32.le_iff_toNat_le,
      decide_eq_true_eq, decide_eq_false_iff_not] at h ⊢
    intro hletter
    exact absurd (hletter.1.trans h.2) (by decide)
  · decide

theorem Numeral.WrittenAs.no_letter {t : List Char} (h : n.WrittenAs t) :
    ∀ c ∈ t, isWordLetter c = false := by
  obtain ⟨negative, whole, fraction⟩ := n
  obtain ⟨hsign, hbody⟩ := h
  intro c hc
  rcases List.mem_append.1 hc with hc | hc
  · cases hsign with
    | minus => simp_all [isWordLetter]
    | plus => simp_all [isWordLetter]
    | absent => contradiction
  · apply isWordLetter_of_digit
    cases hbody with
    | digits hne hwhole => exact Or.inl (hwhole c hc)
    | point hwhole hne hfraction =>
      rcases List.mem_append.1 hc with hc | hc
      · exact Or.inl (hwhole c hc)
      · rcases List.mem_cons.1 hc with hc | hc
        · exact Or.inr hc
        · exact Or.inl (hfraction c hc)

theorem allWords_append {t : List Char} (h : ∀ c ∈ t, isWordLetter c = false) :
    allWords (t ++ rest) = allWords rest := by
  induction t with
  | nil => rfl
  | cons c t ih =>
    rw [List.forall_mem_cons] at h
    simp [allWords, h.1, ih h.2]

/-- A search from left to right that goes on behind the whole word it has found. -/
inductive Search : List Char → List (Char × Binary64) → Prop
  | done : Search [] []
  | word {c : Char} {n : Numeral} {t rest : List Char} {words : List (Char × Binary64)}
      (hletter : isWordLetter c = true) (hwritten : n.WrittenAs t)
      (hlongest : n.LongestIn (t ++ rest)) (hrest : Search rest words) :
      Search (c :: (t ++ rest)) ((c, n.value) :: words)
  | skip {c : Char} {rest : List Char} {words : List (Char × Binary64)}
      (hnone : ∀ n, ¬ WordAt (c :: rest) 0 c n) (hrest : Search rest words) :
      Search (c :: rest) words

theorem Search.eq_allWords {words : List (Char × Binary64)} (h : Search text words) :
    words = allWords text := by
  induction h with
  | done => rfl
  | word hletter hwritten hlongest hrest ih =>
    rw [← Numeral.read?_eq_some_iff] at hlongest
    simp [allWords, hletter, hlongest, allWords_append hwritten.no_letter, ih]
  | @skip c rest words hnone hrest ih =>
    have hread : (if isWordLetter c then Numeral.read? rest else none) = none := by
      cases hread : (if isWordLetter c then Numeral.read? rest else none) with
      | none => rfl
      | some n => exact absurd (wordAt_zero_iff.2 ⟨rfl, hread⟩) (hnone n)
    simp only [allWords, hread]
    exact ih

theorem exists_search (text : List Char) : ∃ words, Search text words := by
  induction hlength : text.length using Nat.strong_induction_on generalizing text with
  | _ length ih =>
    cases text with
    | nil => exact ⟨[], .done⟩
    | cons c rest =>
      rw [List.length_cons] at hlength
      by_cases hword : ∃ n, WordAt (c :: rest) 0 c n
      · obtain ⟨n, hn⟩ := hword
        have hlongest : n.LongestIn rest := by simpa using hn.longest
        obtain ⟨t, hwritten, ⟨after, rfl⟩, -⟩ := id hlongest
        rw [List.length_append] at hlength
        obtain ⟨words, hwords⟩ := ih after.length (by omega) after rfl
        exact ⟨_, .word hn.isLetter hwritten hlongest hwords⟩
      · obtain ⟨words, hwords⟩ := ih rest.length (by omega) rest rfl
        exact ⟨words, .skip (not_exists.1 hword) hwords⟩

/- Words do not overlap, so that no word is lost by going on behind each of them. -/
theorem search_iff {words : List (Char × Binary64)} :
    Search text words ↔ words = allWords text := by
  constructor
  · exact Search.eq_allWords
  · rintro rfl
    obtain ⟨words, hwords⟩ := exists_search text
    rwa [← hwords.eq_allWords]

/-! ### The first of each letter -/

variable {α : Type} {entries : List (Char × α)}

theorem mem_firstOfEach {value : α} :
    (letter, value) ∈ firstOfEach entries ↔ entries.lookup letter = some value := by
  induction entries with
  | nil => simp [firstOfEach]
  | cons entry entries ih =>
    obtain ⟨other, first⟩ := entry
    by_cases hletter : letter = other
    · subst hletter
      simp [firstOfEach, eq_comm]
    · have hne : (letter == other) = false := beq_false_of_ne hletter
      simp [firstOfEach, List.lookup_cons, hne, hletter, ih]

theorem nodup_firstOfEach (entries : List (Char × α)) :
    ((firstOfEach entries).map Prod.fst).Nodup := by
  induction entries with
  | nil => simp [firstOfEach]
  | cons entry entries ih =>
    have hsub : ((firstOfEach entries).filter (·.1 ≠ entry.1)).Sublist (firstOfEach entries) :=
      List.filter_sublist
    simpa [firstOfEach] using ih.sublist (hsub.map Prod.fst)

theorem lookup_otherWords {value : α} :
    (entries.filter fun entry => !isCommandLetter entry.1).lookup letter = some value ↔
      isCommandLetter letter = false ∧ entries.lookup letter = some value := by
  induction entries with
  | nil => simp
  | cons entry entries ih =>
    obtain ⟨other, first⟩ := entry
    by_cases hletter : letter = other
    · subst hletter
      by_cases hcommand : isCommandLetter letter = true
      · simp [hcommand, ih]
      · simp [hcommand]
    · have hne : (letter == other) = false := beq_false_of_ne hletter
      by_cases hcommand : isCommandLetter other = true
      · simp [hcommand, hne, List.lookup_cons, ih]
      · simp [hcommand, hne, List.lookup_cons, ih]

/-! ### The command -/

/-- The command that a text names by the word at its start. -/
inductive Names (text : List Char) : Option String → Prop
  | named {letter : Char} {n : Numeral} {name : String} (hword : WordAt text 0 letter n)
      (hletter : isCommandLetter letter = true)
      (hname : commandName (String.singleton letter) n.value = .ok name) : Names text (some name)
  | nameless (hnone : ∀ letter n, WordAt text 0 letter n → isCommandLetter letter = false) :
      Names text none

theorem isWordLetter_of_isCommandLetter (h : isCommandLetter c = true) : isWordLetter c = true := by
  obtain rfl | rfl : c = 'G' ∨ c = 'M' := by simpa [isCommandLetter] using h
  · decide
  · decide

theorem wordAt_zero_command_iff (h : isCommandLetter c = true) :
    WordAt (c :: rest) 0 letter n ↔ letter = c ∧ Numeral.read? rest = some n := by
  rw [wordAt_zero_iff, if_pos (isWordLetter_of_isCommandLetter h)]

theorem leadingCommand_of_wordAt (hword : WordAt text 0 letter n)
    (hletter : isCommandLetter letter = true) :
    leadingCommand text = (commandName (String.singleton letter) n.value).map some := by
  cases text with
  | nil => simpa using hword.letterAt
  | cons c rest =>
    obtain rfl : c = letter := by simpa using hword.letterAt
    rw [wordAt_zero_command_iff hletter] at hword
    simp only [leadingCommand, if_pos hletter, hword.2]

theorem leadingCommand_of_none
    (h : ∀ letter n, WordAt text 0 letter n → isCommandLetter letter = false) :
    leadingCommand text = .ok none := by
  cases text with
  | nil => rfl
  | cons c rest =>
    by_cases hletter : isCommandLetter c = true
    · cases hread : Numeral.read? rest with
      | none => simp [leadingCommand, hread]
      | some n =>
        have hfalse := h c n ((wordAt_zero_command_iff hletter).2 ⟨rfl, hread⟩)
        rw [hletter] at hfalse
        contradiction
    · simp [leadingCommand, hletter]

theorem names_leadingCommand {command : Option String} (h : leadingCommand text = .ok command) :
    Names text command := by
  by_cases hword : ∃ letter n, WordAt text 0 letter n ∧ isCommandLetter letter = true
  · obtain ⟨letter, n, hword, hletter⟩ := hword
    rw [leadingCommand_of_wordAt hword hletter] at h
    cases hname : commandName (String.singleton letter) n.value with
    | error fault =>
      rw [hname] at h
      contradiction
    | ok name =>
      rw [hname] at h
      cases h
      exact .named hword hletter hname
  · have hnone : ∀ letter n, WordAt text 0 letter n → isCommandLetter letter = false := by
      intro letter n hat
      exact Bool.eq_false_iff.2 fun hletter => hword ⟨letter, n, hat, hletter⟩
    rw [leadingCommand_of_none hnone] at h
    cases h
    exact .nameless hnone

/-! ### Values -/

namespace Numeral

/-- The number that a numeral spells. -/
def exact (n : Numeral) : ℚ :=
  let size : ℚ := digitsValue n.whole + digitsValue n.fraction / 10 ^ n.fraction.length
  if n.negative then -size else size

theorem value_isNearest (n : Numeral) : n.value.IsNearest n.exact := by
  have hten : 0 < 10 ^ n.fraction.length := Nat.pow_pos (by omega)
  have hnearest := Binary64.ofRatio_isNearest n.negative (digitsValue (n.whole ++ n.fraction)) hten
  have hsize : (digitsValue (n.whole ++ n.fraction) : ℚ) / (10 ^ n.fraction.length : Nat) =
      digitsValue n.whole + digitsValue n.fraction / 10 ^ n.fraction.length := by
    rw [digitsValue_append]
    push_cast
    rw [add_div, mul_div_cancel_right₀]
    positivity
  rw [hsize] at hnearest
  exact hnearest

end Numeral

/-! ### Lines -/

namespace Line

theorem parse_eq_none_iff : parse text = .ok none ↔ significant text = [] := by
  unfold parse
  by_cases hblank : significant text = []
  · simp [hblank]
  · cases hcommand : leadingCommand (significant text) with
    | error fault => simp [hblank, hcommand]
    | ok command => simp [hblank, hcommand]

theorem exists_of_parse {line : Line} (h : parse text = .ok (some line)) :
    leadingCommand (significant text) = .ok line.command ∧
      line.words =
        firstOfEach ((allWords (significant text)).filter fun word => !isCommandLetter word.1) := by
  unfold parse at h
  by_cases hblank : significant text = []
  · simp [hblank] at h
  · cases hcommand : leadingCommand (significant text) with
    | error fault =>
      simp [hblank, hcommand] at h
    | ok command =>
      simp [hblank, hcommand] at h
      subst h
      exact ⟨rfl, rfl⟩

theorem mem_words_iff {line : Line} {value : Binary64} (h : parse text = .ok (some line)) :
    (letter, value) ∈ line.words ↔ isCommandLetter letter = false ∧
      ∃ n, FirstWord (significant text) letter n ∧ n.value = value := by
  rw [(exists_of_parse h).2, mem_firstOfEach, lookup_otherWords, lookup_allWords]

/-- A line is read by the grammar of words. -/
theorem parse_grammar (text : List Char) :
    (parse text = .ok none ↔ significant text = []) ∧
    (∀ position letter, (∃ n, WordAt (significant text) position letter n) ↔
      (significant text)[position]? = some letter ∧ isWordLetter letter = true ∧
        ∃ n t, Numeral.WrittenAs n t ∧ t <+: (significant text).drop (position + 1)) ∧
    (∃! words, Search (significant text) words) ∧
    ∀ line, parse text = .ok (some line) →
      Names (significant text) line.command ∧
      (line.words.map Prod.fst).Nodup ∧
      (∀ letter value, (letter, value) ∈ line.words ↔ isCommandLetter letter = false ∧
        ∃ n, FirstWord (significant text) letter n ∧ n.value = value) ∧
      (∀ words, Search (significant text) words →
        line.words = firstOfEach (words.filter fun word => !isCommandLetter word.1)) ∧
      ∀ position letter n, WordAt (significant text) position letter n →
        n.value.IsNearest n.exact := by
  refine ⟨parse_eq_none_iff, fun position letter => exists_wordAt_iff, ?_, fun line hline => ?_⟩
  · exact ⟨_, search_iff.2 rfl, fun words hsearch => search_iff.1 hsearch⟩
  obtain ⟨hcommand, hwords⟩ := exists_of_parse hline
  refine ⟨names_leadingCommand hcommand, ?_, fun letter value => mem_words_iff hline, ?_, ?_⟩
  · rw [hwords]
    exact nodup_firstOfEach _
  · intro words hsearch
    rw [hwords, search_iff.1 hsearch]
  · intro position letter n _
    exact n.value_isNearest

theorem parse_grammar_packed :
    let text := "g01x1.y-.5x..5 z--1 m3 1e5e2;g9".toList
    ∃ line, parse text = .ok (some line) ∧ line.command = some "G1" ∧
      line.words = [('X', 1), ('Y', .ofRatio true 5 10), ('E', 5)] ∧
      Names (significant text) line.command ∧
      (∃ n, FirstWord (significant text) 'E' n ∧ n.value = 5 ∧ n.value.IsNearest n.exact) ∧
      ∀ n, ¬ FirstWord (significant text) 'Z' n := by
  intro text
  have hread : (parse text).map (Option.map fun line => (line.command, line.words)) =
      .ok (some (some "G1", [('X', 1), ('Y', .ofRatio true 5 10), ('E', 5)])) := by
    decide +kernel
  have hletter : isCommandLetter 'Z' = false := by decide
  obtain ⟨parsed, hparse, hparsed⟩ := exists_of_map_eq_ok hread
  obtain ⟨line, rfl, hline⟩ := Option.map_eq_some_iff.1 hparsed
  obtain ⟨hcommand, hwords⟩ := Prod.mk.inj hline
  obtain ⟨hnames, -, hmem, -, hvalue⟩ := (parse_grammar text).2.2.2 line hparse
  refine ⟨line, hparse, hcommand, hwords, hnames, ?_, ?_⟩
  · obtain ⟨n, hn, hfive⟩ := ((hmem 'E' 5).1 (by rw [hwords]; simp)).2
    obtain ⟨position, hat, -⟩ := id hn
    exact ⟨n, hn, hfive, hvalue position 'E' n hat⟩
  · intro n hn
    have hz := (hmem 'Z' n.value).2 ⟨hletter, n, hn, rfl⟩
    rw [hwords] at hz
    simp at hz

end Line

end VirtualPrinter.GCode
