import VirtualPrinter.Text.Json
import VirtualPrinter.Proofs.Binary64.ShortestText
import VirtualPrinter.Proofs.Binary64.SixDigits

/-!
# What rendered documents are

A rendered document is one line of printable ASCII characters, whatever texts are in it, and it is a
JSON document by the standard grammar exactly if every floating-point number in it is finite.
-/

namespace VirtualPrinter.Json

open Grammar

mutual

/-- Whether every floating-point number of a document is finite. -/
def isFinite : Json → Bool
  | number value => value.isFinite
  | array items => itemsFinite items
  | object fields => fieldsFinite fields
  | _ => true

def itemsFinite : List Json → Bool
  | [] => true
  | item :: rest => item.isFinite && itemsFinite rest

def fieldsFinite : List (String × Json) → Bool
  | [] => true
  | (_, value) :: rest => value.isFinite && fieldsFinite rest

end

variable {text more : List Char} {finite finite' : Bool} {c : Char} {n : Nat}

/-! ### Escapes -/

theorem exists_of_mem_toDigits {b : Nat} (hb : 1 < b) (h : c ∈ Nat.toDigits b n) :
    ∃ d < b, c = Nat.digitChar d := by
  induction n using Nat.strong_induction_on with
  | _ n ih =>
    rw [Nat.toDigits_eq_if hb] at h
    split at h
    next hsmall => exact ⟨n, hsmall, List.mem_singleton.1 h⟩
    next hlarge =>
      rcases List.mem_append.1 h with hfront | hlast
      · exact ih (n / b) (Nat.div_lt_self (by omega) hb) hfront
      · exact ⟨n % b, Nat.mod_lt n (by omega), List.mem_singleton.1 hlast⟩

theorem isHexDigit_of_mem_hexPadded {width : Nat} (h : c ∈ Text.hexPadded width n) :
    IsHexDigit c := by
  rcases List.mem_append.1 h with hzero | hdigit
  · exact Or.inl (isDigit_of_mem_zeros hzero)
  · obtain ⟨d, hd, rfl⟩ := exists_of_mem_toDigits (by omega) hdigit
    have hall : ∀ d < 16, IsHexDigit (Nat.digitChar d) := by
      unfold IsHexDigit
      decide
    exact hall d hd

theorem length_hexPadded {width : Nat} (hwidth : 0 < width) (h : n < 16 ^ width) :
    (Text.hexPadded width n).length = width := by
  have hle := (Nat.length_toDigits_le_iff (b := 16) (by omega) hwidth).2 h
  rw [Text.hexPadded, List.length_append, List.length_replicate]
  omega

theorem utf16Units_lt {unit : Nat} (h : unit ∈ utf16Units c) : unit < 0x10000 := by
  have hvalid : c.toNat < 0x110000 := by
    have h := c.valid
    unfold UInt32.isValidChar Nat.isValidChar at h
    change c.val.toNat < 0x110000
    omega
  unfold utf16Units at h
  dsimp only at h
  split at h
  next hsmall =>
    rw [List.mem_singleton.1 h]
    omega
  next hlarge =>
    simp only [List.mem_cons, List.not_mem_nil, or_false] at h
    rcases h with hunit | hunit
    · omega
    · omega

theorem letters_units (units : List Nat) (h : ∀ unit ∈ units, unit < 0x10000) :
    Letters (units.flatMap fun unit => '\\' :: 'u' :: Text.hexPadded 4 unit) := by
  induction units with
  | nil => exact .nil
  | cons unit rest ih =>
    obtain ⟨hunit, hrest⟩ := List.forall_mem_cons.1 h
    rw [List.flatMap_cons]
    exact .cons (.unit (length_hexPadded (by omega) hunit) fun _ => isHexDigit_of_mem_hexPadded)
      (ih hrest)

theorem Letters.single (h : Letter text) : Letters text := by
  have hletters := Letters.cons h .nil
  rwa [List.append_nil] at hletters

theorem letters_escapedChar (c : Char) : Letters (escapedChar c) := by
  unfold escapedChar
  split
  case h_8 hquote hescape _ _ _ _ _ =>
    split
    next hplain => exact Letters.single (.plain hplain.1 hquote hescape)
    next => exact letters_units _ fun _ => utf16Units_lt
  all_goals exact Letters.single (.short (by decide))

/-! ### Printable characters -/

/-- A printable character of ASCII, which ends no line. -/
def Printable (c : Char) : Prop := ' ' ≤ c ∧ c ≤ '~'

instance (c : Char) : Decidable (Printable c) :=
  inferInstanceAs (Decidable (' ' ≤ c ∧ c ≤ '~'))

theorem printable_of_all {text : List Char} (h : text.all (fun c => decide (Printable c)) = true) :
    ∀ c ∈ text, Printable c := fun c hc => of_decide_eq_true (List.all_eq_true.1 h c hc)

theorem printable_of_isDigit (h : c.isDigit = true) : Printable c := by
  simp only [Char.isDigit, Bool.and_eq_true, decide_eq_true_eq] at h
  exact ⟨Char.le_trans (by decide : ' ' ≤ '0') h.1, Char.le_trans h.2 (by decide : '9' ≤ '~')⟩

theorem printable_of_isNumeral (h : IsNumeral c) : Printable c := by
  rcases h with hdigit | hmark
  · exact printable_of_isDigit hdigit
  · simp only [List.mem_cons, List.not_mem_nil, or_false] at hmark
    rcases hmark with rfl | rfl | rfl | rfl | rfl <;> exact ⟨by decide, by decide⟩

theorem printable_of_isHexDigit (h : IsHexDigit c) : Printable c := by
  rcases h with hdigit | ⟨hlow, hhigh⟩ | ⟨hlow, hhigh⟩
  · exact printable_of_isDigit hdigit
  · exact ⟨Char.le_trans (by decide : ' ' ≤ 'a') hlow, Char.le_trans hhigh (by decide : 'f' ≤ '~')⟩
  · exact ⟨Char.le_trans (by decide : ' ' ≤ 'A') hlow, Char.le_trans hhigh (by decide : 'F' ≤ '~')⟩

theorem printable_escapedChar (c : Char) : ∀ d ∈ escapedChar c, Printable d := by
  unfold escapedChar
  split
  case h_8 =>
    split
    next hplain => exact List.forall_mem_singleton.2 hplain
    next =>
      intro d hd
      obtain ⟨unit, -, hd⟩ := List.mem_flatMap.1 hd
      simp only [List.mem_cons] at hd
      rcases hd with rfl | rfl | hdigit
      · exact ⟨by decide, by decide⟩
      · exact ⟨by decide, by decide⟩
      · exact printable_of_isHexDigit (isHexDigit_of_mem_hexPadded hdigit)
  all_goals exact printable_of_all (by decide)

/-! ### Pieces of rendered documents -/

/-- A piece of a rendered document: the scan gets through it if every number in it is finite, and is
stopped by the name of one that is not. -/
structure Written (finite : Bool) (text : List Char) : Prop where
  printable : ∀ c ∈ text, Printable c
  scan : scan .outside text = if finite then some .outside else none

theorem Written.append (h : Written finite text) (hmore : Written finite' more) :
    Written (finite && finite') (text ++ more) where
  printable := List.forall_mem_append.2 ⟨h.printable, hmore.printable⟩
  scan := by
    rw [scan_append, h.scan]
    cases finite with
    | true => exact hmore.scan
    | false => rfl

theorem Written.between {left right : List Char} (h : Written finite text)
    (hleft : Written true left) (hright : Written true right) :
    Written finite (left ++ text ++ right) := by
  have hwritten := (hleft.append h).append hright
  rwa [Bool.true_and, Bool.and_true] at hwritten

theorem written_number (h : Number text) : Written true text where
  printable c hc := printable_of_isNumeral (h.numerals c hc)
  scan := h.scan

theorem written_mark (h : text ∈ [['['], [']'], ['\x7b'], ['\x7d'], [',', ' '], [':', ' ']]) :
    Written true text := by
  simp only [List.mem_cons, List.not_mem_nil, or_false] at h
  rcases h with rfl | rfl | rfl | rfl | rfl | rfl
  all_goals exact ⟨printable_of_all (by decide), rfl⟩

theorem letters_flatMap (text : List Char) : Letters (text.flatMap escapedChar) := by
  induction text with
  | nil => exact .nil
  | cons c rest ih =>
    rw [List.flatMap_cons]
    exact (letters_escapedChar c).append ih

theorem quoted_renderText (text : String) : Quoted (renderText text).toList := by
  rw [renderText, String.toList_ofList]
  exact .mk (letters_flatMap text.toList)

theorem written_renderText (text : String) : Written true (renderText text).toList where
  printable := by
    rw [renderText, String.toList_ofList]
    refine List.forall_mem_cons.2 ⟨⟨by decide, by decide⟩, List.forall_mem_append.2 ⟨?_, ?_⟩⟩
    · intro d hd
      obtain ⟨c, -, hd⟩ := List.mem_flatMap.1 hd
      exact printable_escapedChar c d hd
    · exact List.forall_mem_singleton.2 ⟨by decide, by decide⟩
  scan := (quoted_renderText text).scan

theorem number_toString (i : Int) : Number (toString i).toList := by
  have hunsigned : ∀ n : Nat, Unsigned (toString n).toList := by
    intro n
    have h := Unsigned.mk (whole_decimalDigits n) .none .none
    rwa [List.append_nil, List.append_nil, ← Binary64.toList_toString] at h
  cases i with
  | ofNat n => exact .unsigned (hunsigned n)
  | negSucc n =>
    have htext : (toString (Int.negSucc n)).toList = '-' :: (toString (n + 1)).toList :=
      String.toList_append
    rw [htext]
    exact .negative (hunsigned (n + 1))

theorem written_renderNumber (x : Binary64) : Written x.isFinite (renderNumber x).toList := by
  cases x with
  | nan => exact ⟨printable_of_all (by decide), by decide⟩
  | infinity negative =>
    cases negative
    all_goals exact ⟨printable_of_all (by decide), by decide⟩
  | finite negative m => exact written_number (Binary64.number_shortestText rfl)

theorem Written.field {value : String} (h : Written finite value.toList) (key : String) :
    Written finite (renderText key ++ ": " ++ value).toList := by
  rw [String.toList_append, String.toList_append, ← Bool.true_and finite]
  exact ((written_renderText key).append (written_mark (by decide))).append h

mutual

theorem written_render (j : Json) : Written j.isFinite j.render.toList := by
  match j with
  | .null => exact ⟨printable_of_all (by decide), by decide⟩
  | .bool true => exact ⟨printable_of_all (by decide), by decide⟩
  | .bool false => exact ⟨printable_of_all (by decide), by decide⟩
  | .integer value => exact written_number (number_toString value)
  | .number value => exact written_renderNumber value
  | .text value => exact written_renderText value
  | .array items =>
    rw [render, String.toList_append, String.toList_append, isFinite]
    exact (written_items items).between (written_mark (by decide)) (written_mark (by decide))
  | .object fields =>
    rw [render, String.toList_append, String.toList_append, isFinite]
    exact (written_fields fields).between (written_mark (by decide)) (written_mark (by decide))

theorem written_items (items : List Json) :
    Written (itemsFinite items) (", ".intercalate (renderItems items)).toList := by
  match items with
  | [] => exact ⟨nofun, rfl⟩
  | [item] =>
    rw [renderItems, renderItems, String.intercalate_singleton, itemsFinite, itemsFinite,
      Bool.and_true]
    exact written_render item
  | item :: next :: rest =>
    have hrest := written_items (next :: rest)
    rw [renderItems] at hrest
    rw [renderItems, renderItems, String.intercalate_cons_cons, String.toList_append,
      String.toList_append, itemsFinite, ← Bool.and_true item.isFinite]
    exact ((written_render item).append (written_mark (by decide))).append hrest

theorem written_fields (fields : List (String × Json)) :
    Written (fieldsFinite fields) (", ".intercalate (renderFields fields)).toList := by
  match fields with
  | [] => exact ⟨nofun, rfl⟩
  | [(key, value)] =>
    rw [renderFields, renderFields, String.intercalate_singleton, fieldsFinite, fieldsFinite,
      Bool.and_true]
    exact (written_render value).field key
  | (key, value) :: (nextKey, next) :: rest =>
    have hrest := written_fields ((nextKey, next) :: rest)
    rw [renderFields] at hrest
    rw [renderFields, renderFields, String.intercalate_cons_cons, String.toList_append,
      String.toList_append, fieldsFinite, ← Bool.and_true value.isFinite]
    exact (((written_render value).field key).append (written_mark (by decide))).append hrest

end

/-! ### Finite documents -/

theorem blank_nil : Blank [] := nofun

theorem blank_space : Blank [' '] := by simp [Blank]

theorem derives_field (key : String) {value : String} (h : Derives .value value.toList)
    {blank : List Char} (hblank : Blank blank) :
    Derives .member (blank ++ (renderText key ++ ": " ++ value).toList) := by
  have helement := Derives.element blank_space h blank_nil
  have hmember := Derives.member hblank (quoted_renderText key) blank_nil helement
  simpa using hmember

theorem derives_series {item : Part} {first : String} {rest : List String}
    (h : ∀ t ∈ first :: rest, ∀ blank, Blank blank → Derives item (blank ++ t.toList))
    {blank : List Char} (hblank : Blank blank) :
    Derives (.series item) (blank ++ (", ".intercalate (first :: rest)).toList) := by
  obtain ⟨hfirst, hrest⟩ := List.forall_mem_cons.1 h
  induction rest generalizing first blank with
  | nil =>
    rw [String.intercalate_singleton]
    exact .last (hfirst blank hblank)
  | cons next rest ih =>
    have hseries := ih hrest blank_space (hrest next List.mem_cons_self)
      fun t ht => hrest t (List.mem_cons_of_mem _ ht)
    rw [String.intercalate_cons_cons, String.toList_append, String.toList_append,
      List.append_assoc, ← List.append_assoc blank]
    exact .more (hfirst blank hblank) hseries

theorem derives_enclosed {item : Part} {texts : List String}
    (h : ∀ t ∈ texts, ∀ blank, Blank blank → Derives item (blank ++ t.toList)) :
    Derives (.enclosed item) (", ".intercalate texts).toList := by
  cases texts with
  | nil => exact .empty nofun
  | cons first rest => exact .filled (derives_series h blank_nil)

mutual

theorem derives_render (j : Json) (h : j.isFinite = true) : Derives .value j.render.toList := by
  match j with
  | .null => exact .word (by decide)
  | .bool true => exact .word (by decide)
  | .bool false => exact .word (by decide)
  | .integer value => exact .number (number_toString value)
  | .number (.finite negative m) => exact .number (Binary64.number_shortestText rfl)
  | .text value => exact .text (quoted_renderText value)
  | .array items =>
    rw [render, String.toList_append, String.toList_append]
    exact .array (derives_enclosed (derives_items items h))
  | .object fields =>
    rw [render, String.toList_append, String.toList_append]
    exact .object (derives_enclosed (derives_fields fields h))

theorem derives_items (items : List Json) (h : itemsFinite items = true) :
    ∀ t ∈ renderItems items, ∀ blank, Blank blank → Derives .element (blank ++ t.toList) := by
  match items with
  | [] => exact nofun
  | item :: rest =>
    obtain ⟨hitem, hrest⟩ := (Bool.and_eq_true_iff ..).1 h
    refine List.forall_mem_cons.2 ⟨fun blank hblank => ?_, derives_items rest hrest⟩
    have helement := Derives.element hblank (derives_render item hitem) blank_nil
    rwa [List.append_nil] at helement

theorem derives_fields (fields : List (String × Json)) (h : fieldsFinite fields = true) :
    ∀ t ∈ renderFields fields, ∀ blank, Blank blank → Derives .member (blank ++ t.toList) := by
  match fields with
  | [] => exact nofun
  | (key, value) :: rest =>
    obtain ⟨hvalue, hrest⟩ := (Bool.and_eq_true_iff ..).1 h
    exact List.forall_mem_cons.2 ⟨fun blank => derives_field key (derives_render value hvalue),
      derives_fields rest hrest⟩

end

/-- A document is rendered by printable ASCII characters only, and what is rendered is JSON exactly
if every floating-point number in the document is finite. -/
theorem isDocument_render_iff (j : Json) : IsDocument j.render.toList ↔ j.isFinite = true := by
  constructor
  · intro h
    have hscan := (written_render j).scan
    rw [h.scan] at hscan
    by_contra hinfinite
    rw [if_neg hinfinite] at hscan
    contradiction
  · intro h
    have hdocument := Derives.element blank_nil (derives_render j h) blank_nil
    rwa [List.nil_append, List.append_nil] at hdocument

end VirtualPrinter.Json
