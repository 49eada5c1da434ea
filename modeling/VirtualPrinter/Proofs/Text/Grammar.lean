import Mathlib.Data.List.Basic

/-!
# The grammar of JSON

The texts that are documents by the standard grammar. It has three words and no others; a name for a
number that is not finite is none of them. What is proved about the grammar is that a scan which
refuses the first letters of such names between the texts of a document gets through every document.
-/

namespace VirtualPrinter.Grammar

/-! ### Numbers -/

def Digits (text : List Char) : Prop := text ≠ [] ∧ ∀ c ∈ text, c.isDigit = true

/-- Digits in front of a point: they begin with a zero only when there is no other. -/
inductive Whole : List Char → Prop
  | zero : Whole ['0']
  | leading {first : Char} {rest : List Char} (hfirst : first ≠ '0') (h : Digits (first :: rest)) :
      Whole (first :: rest)

inductive Fraction : List Char → Prop
  | none : Fraction []
  | point {digits : List Char} (h : Digits digits) : Fraction ('.' :: digits)

inductive Power : List Char → Prop
  | none : Power []
  | mark {letter : Char} {sign digits : List Char} (hletter : letter ∈ ['e', 'E'])
      (hsign : sign ∈ [[], ['+'], ['-']]) (h : Digits digits) : Power (letter :: (sign ++ digits))

inductive Unsigned : List Char → Prop
  | mk {whole fraction power : List Char} (hwhole : Whole whole) (hfraction : Fraction fraction)
      (hpower : Power power) : Unsigned (whole ++ fraction ++ power)

inductive Number : List Char → Prop
  | unsigned {text : List Char} (h : Unsigned text) : Number text
  | negative {text : List Char} (h : Unsigned text) : Number ('-' :: text)

/-! ### Texts -/

def IsHexDigit (c : Char) : Prop :=
  c.isDigit = true ∨ ('a' ≤ c ∧ c ≤ 'f') ∨ ('A' ≤ c ∧ c ≤ 'F')

/-- What stands for one character, or for half of one, within a text. -/
inductive Letter : List Char → Prop
  | plain {c : Char} (h : ' ' ≤ c) (hquote : c ≠ '"') (hescape : c ≠ '\\') : Letter [c]
  | short {c : Char} (h : c ∈ ['"', '\\', '/', 'b', 'f', 'n', 'r', 't']) : Letter ['\\', c]
  | unit {digits : List Char} (hlength : digits.length = 4) (h : ∀ c ∈ digits, IsHexDigit c) :
      Letter ('\\' :: 'u' :: digits)

inductive Letters : List Char → Prop
  | nil : Letters []
  | cons {letter rest : List Char} (h : Letter letter) (hrest : Letters rest) :
      Letters (letter ++ rest)

inductive Quoted : List Char → Prop
  | mk {letters : List Char} (h : Letters letters) : Quoted ('"' :: (letters ++ ['"']))

/-! ### Documents -/

def Blank (text : List Char) : Prop := ∀ c ∈ text, c ∈ [' ', '\t', '\n', '\r']

/-- The parts of a document: a value, a value between blanks, a member of an object, items with
commas between them, of which there is at least one, and what brackets enclose. -/
inductive Part where
  | value
  | element
  | member
  | series (item : Part)
  | enclosed (item : Part)

inductive Derives : Part → List Char → Prop
  | word {text : List Char} (h : text ∈ ["null".toList, "true".toList, "false".toList]) :
      Derives .value text
  | number {text : List Char} (h : Number text) : Derives .value text
  | text {text : List Char} (h : Quoted text) : Derives .value text
  | array {items : List Char} (h : Derives (.enclosed .element) items) :
      Derives .value ('[' :: (items ++ [']']))
  | object {members : List Char} (h : Derives (.enclosed .member) members) :
      Derives .value ('\x7b' :: (members ++ ['\x7d']))
  | element {before value after : List Char} (hbefore : Blank before) (h : Derives .value value)
      (hafter : Blank after) : Derives .element (before ++ value ++ after)
  | member {before key after value : List Char} (hbefore : Blank before) (hkey : Quoted key)
      (hafter : Blank after) (h : Derives .element value) :
      Derives .member (before ++ key ++ after ++ ':' :: value)
  | last {item : Part} {text : List Char} (h : Derives item text) : Derives (.series item) text
  | more {item : Part} {text rest : List Char} (h : Derives item text)
      (hrest : Derives (.series item) rest) : Derives (.series item) (text ++ ',' :: rest)
  | empty {item : Part} {text : List Char} (h : Blank text) : Derives (.enclosed item) text
  | filled {item : Part} {text : List Char} (h : Derives (.series item) text) :
      Derives (.enclosed item) text

/-- A text that is a JSON document. -/
def IsDocument (text : List Char) : Prop := Derives .element text

/-! ### The scan -/

/-- Where a scan is: between the texts of a document, within one, or behind a backslash there. -/
inductive Place where
  | outside
  | inside
  | escaped
deriving DecidableEq

/-- One character further; between texts there must be none that a number by name begins with. -/
def Place.step : Place → Char → Option Place
  | outside, c => if c = '"' then some inside else if c ∈ ['N', 'I'] then none else some outside
  | inside, c => some (if c = '"' then outside else if c = '\\' then escaped else inside)
  | escaped, _ => some inside

def scan (place : Place) (text : List Char) : Option Place := text.foldlM Place.step place

variable {text more : List Char} {place : Place} {c : Char}

theorem scan_append (place : Place) (text more : List Char) :
    scan place (text ++ more) = (scan place text).bind fun later => scan later more :=
  List.foldlM_append

theorem scan_cons (place : Place) (c : Char) (text : List Char) :
    scan place (c :: text) = (place.step c).bind fun later => scan later text :=
  List.foldlM_cons

/-- A character that does not matter to the scan between texts. -/
def Bare (c : Char) : Prop := c ≠ '"' ∧ c ∉ ['N', 'I']

theorem scan_bare (h : ∀ c ∈ text, Bare c) : scan .outside text = some .outside := by
  induction text with
  | nil => rfl
  | cons c rest ih =>
    obtain ⟨⟨hquote, hname⟩, hrest⟩ := List.forall_mem_cons.1 h
    rw [scan_cons, Place.step, if_neg hquote, if_neg hname, Option.bind_some, ih hrest]

theorem scan_plain (h : ∀ c ∈ text, c ≠ '"' ∧ c ≠ '\\') : scan .inside text = some .inside := by
  induction text with
  | nil => rfl
  | cons c rest ih =>
    obtain ⟨⟨hquote, hescape⟩, hrest⟩ := List.forall_mem_cons.1 h
    rw [scan_cons, Place.step, if_neg hquote, if_neg hescape, Option.bind_some, ih hrest]

/-! ### The scan gets through every document -/

theorem ne_of_isDigit {d : Char} (h : c.isDigit = true) (hd : d.isDigit = false) : c ≠ d := by
  rintro rfl
  rw [h] at hd
  contradiction

theorem bare_of_isDigit (h : c.isDigit = true) : Bare c := by
  refine ⟨ne_of_isDigit h (by decide), ?_⟩
  simp only [List.mem_cons, List.not_mem_nil, or_false, not_or]
  exact ⟨ne_of_isDigit h (by decide), ne_of_isDigit h (by decide)⟩

/-- A character of a number. -/
def IsNumeral (c : Char) : Prop := c.isDigit = true ∨ c ∈ ['+', '-', '.', 'e', 'E']

theorem bare_of_isNumeral (h : IsNumeral c) : Bare c := by
  rcases h with hdigit | hmark
  · exact bare_of_isDigit hdigit
  · simp only [List.mem_cons, List.not_mem_nil, or_false] at hmark
    rcases hmark with rfl | rfl | rfl | rfl | rfl <;> simp [Bare]

theorem Digits.numerals (h : Digits text) : ∀ c ∈ text, IsNumeral c :=
  fun c hc => Or.inl (h.2 c hc)

theorem Whole.numerals (h : Whole text) : ∀ c ∈ text, IsNumeral c := by
  cases h with
  | zero => exact List.forall_mem_singleton.2 (Or.inl rfl)
  | leading _ h => exact h.numerals

theorem Fraction.numerals (h : Fraction text) : ∀ c ∈ text, IsNumeral c := by
  cases h with
  | none => nofun
  | point h => exact List.forall_mem_cons.2 ⟨Or.inr (by simp), h.numerals⟩

theorem Power.numerals (h : Power text) : ∀ c ∈ text, IsNumeral c := by
  cases h with
  | none => nofun
  | mark hletter hsign h =>
    refine List.forall_mem_cons.2 ⟨Or.inr ?_, List.forall_mem_append.2 ⟨?_, h.numerals⟩⟩
    · simp only [List.mem_cons, List.not_mem_nil, or_false] at hletter
      rcases hletter with rfl | rfl <;> simp
    · simp only [List.mem_cons, List.not_mem_nil, or_false] at hsign
      rcases hsign with rfl | rfl | rfl <;> simp [IsNumeral]

theorem Unsigned.numerals (h : Unsigned text) : ∀ c ∈ text, IsNumeral c := by
  cases h with
  | mk hwhole hfraction hpower =>
    simp only [List.forall_mem_append]
    exact ⟨⟨hwhole.numerals, hfraction.numerals⟩, hpower.numerals⟩

theorem Number.numerals (h : Number text) : ∀ c ∈ text, IsNumeral c := by
  cases h with
  | unsigned h => exact h.numerals
  | negative h => exact List.forall_mem_cons.2 ⟨Or.inr (by simp), h.numerals⟩

theorem Number.scan (h : Number text) : scan .outside text = some .outside :=
  scan_bare fun c hc => bare_of_isNumeral (h.numerals c hc)

theorem plain_of_isHexDigit (h : IsHexDigit c) : c ≠ '"' ∧ c ≠ '\\' := by
  constructor
  · rintro rfl
    exact absurd h (by simp [IsHexDigit])
  · rintro rfl
    exact absurd h (by simp [IsHexDigit])

theorem Letter.scan (h : Letter text) : scan .inside text = some .inside := by
  cases h with
  | plain _ hquote hescape => exact scan_plain (List.forall_mem_singleton.2 ⟨hquote, hescape⟩)
  | short h => rfl
  | unit _ h =>
    rw [scan_cons, Place.step]
    exact scan_plain fun c hc => plain_of_isHexDigit (h c hc)

theorem Letters.scan (h : Letters text) : scan .inside text = some .inside := by
  induction h with
  | nil => rfl
  | cons h _ ih => rw [scan_append, h.scan, Option.bind_some, ih]

theorem Letters.append {more : List Char} (h : Letters text) (hmore : Letters more) :
    Letters (text ++ more) := by
  induction h with
  | nil => exact hmore
  | cons h _ ih =>
    rw [List.append_assoc]
    exact .cons h ih

theorem Quoted.scan (h : Quoted text) : scan .outside text = some .outside := by
  cases h with
  | mk h =>
    rw [scan_cons]
    change Grammar.scan .inside _ = _
    rw [scan_append, h.scan]
    rfl

theorem Blank.scan (h : Blank text) : scan .outside text = some .outside := by
  refine scan_bare fun c hc => ?_
  have hc := h c hc
  simp only [List.mem_cons, List.not_mem_nil, or_false] at hc
  rcases hc with rfl | rfl | rfl | rfl <;> simp [Bare]

theorem Derives.scan {part : Part} (h : Derives part text) :
    scan .outside text = some .outside := by
  induction h with
  | word h =>
    simp only [List.mem_cons, List.not_mem_nil, or_false] at h
    rcases h with rfl | rfl | rfl <;> decide
  | number h => exact h.scan
  | text h => exact h.scan
  | array _ ih | object _ ih =>
    rw [scan_cons]
    change Grammar.scan .outside _ = _
    rw [scan_append, ih]
    rfl
  | element hbefore _ hafter ih =>
    rw [scan_append, scan_append, hbefore.scan, Option.bind_some, ih, Option.bind_some, hafter.scan]
  | member hbefore hkey hafter _ ih =>
    rw [scan_append, scan_append, scan_append, hbefore.scan, Option.bind_some, hkey.scan,
      Option.bind_some, hafter.scan, Option.bind_some, scan_cons]
    exact ih
  | last _ ih => exact ih
  | more _ _ ih ihrest =>
    rw [scan_append, ih, Option.bind_some, scan_cons]
    exact ihrest
  | empty h => exact h.scan
  | filled _ ih => exact ih

end VirtualPrinter.Grammar
