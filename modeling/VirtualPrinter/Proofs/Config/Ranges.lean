import VirtualPrinter.Printer.Basic
import VirtualPrinter.Proofs.Binary64.Monotone
import VirtualPrinter.Proofs.Results

/-!
# Options within their ranges

An option is set by the first of its keys that says anything, and by its default when none does. A
number that is read from it is refused when it lies beyond a limit of its range. Not-a-number lies
beyond nothing: it is the one value that passes without lying within.
-/

namespace VirtualPrinter

open Binary64

attribute [local irreducible] Binary64.ofNat

/-! ### Ranges -/

namespace NumberRange

variable {range : NumberRange} {option : String} {value limit : Binary64} {above : Option Binary64}

/-- A value that is beyond no limit. -/
structure Admits (range : NumberRange) (value : Binary64) : Prop where
  least : ∀ limit, range.least = some limit → value.lt limit = false
  above : ∀ limit, range.above = some limit → value.le limit = false

/-- A value that lies within the limits, or one of the two is no number. -/
structure Holds (range : NumberRange) (value : Binary64) : Prop where
  least : ∀ limit, range.least = some limit → value = nan ∨ limit = nan ∨ limit.le value = true
  above : ∀ limit, range.above = some limit → value = nan ∨ limit = nan ∨ limit.lt value = true

theorem admits_iff_holds : range.Admits value ↔ range.Holds value := by
  constructor
  · intro h
    exact ⟨fun limit hl => lt_eq_false_iff.1 (h.least limit hl),
      fun limit hl => le_eq_false_iff.1 (h.above limit hl)⟩
  · intro h
    exact ⟨fun limit hl => lt_eq_false_iff.2 (h.least limit hl),
      fun limit hl => le_eq_false_iff.2 (h.above limit hl)⟩

theorem check_least :
    check ⟨some limit, above⟩ option value =
      if value.lt limit then .error (.belowMinimum option limit)
      else check ⟨none, above⟩ option value := by
  by_cases h : value.lt limit = true
  · simp only [check, h, if_true]
    rfl
  · simp only [check, h]
    rfl

theorem check_above :
    check ⟨none, some limit⟩ option value =
      if value.le limit then .error (.notAbove option limit) else .ok () := rfl

/-- What a check can answer: the error of a limit that the value is beyond, or nothing. -/
inductive Checked (range : NumberRange) (option : String) (value : Binary64) :
    Except ConfigError Unit → Prop
  | below {limit : Binary64} (hlimit : range.least = some limit) (h : value.lt limit = true) :
      Checked range option value (.error (.belowMinimum option limit))
  | notAbove {limit : Binary64} (hlimit : range.above = some limit) (h : value.le limit = true) :
      Checked range option value (.error (.notAbove option limit))
  | passed (h : range.Admits value) : Checked range option value (.ok ())

theorem checked_above (above : Option Binary64) (option : String) (value : Binary64) :
    Checked ⟨none, above⟩ option value (check ⟨none, above⟩ option value) := by
  cases above with
  | none =>
    refine .passed ⟨fun limit hlimit => ?_, fun limit hlimit => ?_⟩
    · cases hlimit
    · cases hlimit
  | some limit =>
    rw [check_above]
    split
    next h => exact .notAbove rfl h
    next h =>
      refine .passed ⟨fun other hother => ?_, fun other hother => ?_⟩
      · cases hother
      · cases hother
        exact Bool.eq_false_iff.2 h

theorem checked_check (range : NumberRange) (option : String) (value : Binary64) :
    Checked range option value (range.check option value) := by
  obtain ⟨least, above⟩ := range
  have habove := checked_above above option value
  cases least with
  | none => exact habove
  | some limit =>
    rw [check_least]
    split
    next h => exact .below rfl h
    next h =>
      generalize check ⟨none, above⟩ option value = answer at habove ⊢
      cases habove with
      | below hlimit hlt => contradiction
      | notAbove hlimit hle => exact .notAbove hlimit hle
      | passed hadmits =>
        refine .passed ⟨fun other hother => ?_, hadmits.above⟩
        cases hother
        exact Bool.eq_false_iff.2 h

theorem check_eq_ok_iff : range.check option value = .ok () ↔ range.Holds value := by
  rw [← admits_iff_holds]
  have hchecked := checked_check range option value
  generalize range.check option value = answer at hchecked ⊢
  cases hchecked with
  | below hlimit h =>
    refine iff_of_false nofun fun hadmits => ?_
    rw [hadmits.least _ hlimit] at h
    contradiction
  | notAbove hlimit h =>
    refine iff_of_false nofun fun hadmits => ?_
    rw [hadmits.above _ hlimit] at h
    contradiction
  | passed h => exact iff_of_true rfl h

theorem check_ne_oversized : range.check option value ≠ .error .oversized := by
  have hchecked := checked_check range option value
  generalize range.check option value = answer at hchecked ⊢
  cases hchecked <;> exact nofun

theorem holds_least_iff (hlimit : limit ≠ nan) :
    Holds { least := some limit } value ↔ value = nan ∨ limit.le value = true := by
  constructor
  · intro h
    rcases h.least limit rfl with h | h | h
    · exact Or.inl h
    · contradiction
    · exact Or.inr h
  · intro h
    refine ⟨fun other hother => ?_, fun other hother => ?_⟩
    · cases hother
      exact h.imp_right Or.inr
    · cases hother

theorem holds_above_iff (hlimit : limit ≠ nan) :
    Holds { above := some limit } value ↔ value = nan ∨ limit.lt value = true := by
  constructor
  · intro h
    rcases h.above limit rfl with h | h | h
    · exact Or.inl h
    · contradiction
    · exact Or.inr h
  · intro h
    refine ⟨fun other hother => ?_, fun other hother => ?_⟩
    · cases hother
    · cases hother
      exact h.imp_right Or.inr

end NumberRange

/-! ### What an option is set to -/

namespace Config

variable {c : Config} {option key text : String} {names : List String} {value : OptionValue}

/-- A configuration that holds nothing but texts. -/
def Textual (c : Config) : Prop :=
  ∀ key value, c.values.lookup key = some value → ∃ text, value = .text text

/-- A key says nothing: there is no such key, or an empty text is under it. -/
def Silent (c : Config) (key : String) : Prop :=
  key = "" ∨ c.values.lookup key = none ∨ c.values.lookup key = some (.text "")

/-- What the first key that says anything says. -/
inductive First (c : Config) : List String → OptionValue → Prop
  | said {key : String} {later : List String} {value : OptionValue} (hkey : key ≠ "")
      (hlookup : c.values.lookup key = some value) (hvalue : value ≠ .text "") :
      First c (key :: later) value
  | later {key : String} {later : List String} {value : OptionValue} (hsilent : c.Silent key)
      (h : First c later value) : First c (key :: later) value

theorem textual_nil : Textual ⟨[]⟩ := nofun

theorem textual_cons {values : List (String × OptionValue)} (key text : String)
    (h : Textual ⟨values⟩) : Textual ⟨(key, .text text) :: values⟩ := by
  intro other value hlookup
  rw [List.lookup_cons] at hlookup
  split at hlookup
  · exact ⟨text, (Option.some.inj hlookup).symm⟩
  · exact h other value hlookup

theorem isGiven_iff : isGiven value = true ↔ value ≠ .text "" := by
  cases value <;> simp [isGiven]

theorem given?_eq_some_iff :
    c.given? key = some value ↔
      key ≠ "" ∧ c.values.lookup key = some value ∧ value ≠ .text "" := by
  simp [given?, String.isEmpty_iff, Option.filter_eq_some_iff, isGiven_iff]

theorem given?_eq_none_iff : c.given? key = none ↔ c.Silent key := by
  by_cases hkey : key = ""
  · simp [given?, Silent, hkey]
  · cases hlookup : c.values.lookup key with
    | none => simp [given?, Silent, hkey, hlookup]
    | some value => simp [given?, Silent, hkey, hlookup, Option.filter, isGiven_iff]

theorem findSome?_eq_some_iff : names.findSome? c.given? = some value ↔ c.First names value := by
  induction names with
  | nil => exact iff_of_false nofun nofun
  | cons key names ih =>
    rw [List.findSome?_cons]
    constructor
    · intro h
      cases hgiven : c.given? key with
      | some found =>
        rw [hgiven] at h
        cases h
        obtain ⟨hkey, hlookup, hvalue⟩ := given?_eq_some_iff.1 hgiven
        exact .said hkey hlookup hvalue
      | none =>
        rw [hgiven] at h
        exact .later (given?_eq_none_iff.1 hgiven) (ih.1 h)
    · intro h
      cases h with
      | said hkey hlookup hvalue => rw [given?_eq_some_iff.2 ⟨hkey, hlookup, hvalue⟩]
      | later hsilent h =>
        rw [given?_eq_none_iff.2 hsilent]
        exact ih.2 h

theorem find?_eq_some_iff : c.find? option = some value ↔ c.First (keys option) value :=
  findSome?_eq_some_iff

theorem find?_eq_none_iff : c.find? option = none ↔ ∀ key ∈ keys option, c.Silent key := by
  simp only [find?, List.findSome?_eq_none_iff, given?_eq_none_iff]

theorem First.textual (hc : c.Textual) (h : c.First names value) : ∃ text, value = .text text := by
  induction h with
  | said hkey hlookup hvalue => exact hc _ _ hlookup
  | later hsilent h ih => exact ih

/-- The number that an option is set to: the one that the first text under its keys spells, or else
its default. -/
inductive Setting (c : Config) (names : List String) (default : Option Binary64) : Binary64 → Prop
  | given {text : String} {value : Binary64} (hfirst : c.First names (.text text))
      (hread : Text.readNumber? text = some value) : Setting c names default value
  | default {value : Binary64} (hsilent : ∀ key ∈ names, c.Silent key)
      (hdefault : default = some value) : Setting c names default value

/-- An option of texts has a number, or it is missing, or no number can be read from it. -/
inductive Read (c : Config) (option : String) (default : Option Binary64) (range : NumberRange) :
    Except ConfigError (Option Binary64) → Prop
  | missing (hsilent : ∀ key ∈ keys option, c.Silent key) (hdefault : default = none) :
      Read c option default range (.error (.missing option))
  | unparsable {text : String} (hfirst : c.First (keys option) (.text text))
      (hread : Text.readNumber? text = none) :
      Read c option default range (.error (.unparsable option (.text text)))
  | number {value : Binary64} (hset : c.Setting (keys option) default value) :
      Read c option default range ((range.check option value).map fun _ => some value)

theorem get_of_first {default : Option OptionValue} (h : c.First (keys option) value) :
    c.get option default = .ok value := by
  rw [get, find?_eq_some_iff.2 h, Option.some_or]

theorem get_of_silent {default : Option OptionValue} (h : ∀ key ∈ keys option, c.Silent key) :
    c.get option default =
      match default with
      | some value => .ok value
      | none => .error (.missing option) := by
  cases default <;> simp only [get, find?_eq_none_iff.2 h, Option.none_or]

variable {range : NumberRange} {number : Binary64}

theorem getNumber_of_value {default : Option OptionValue} {value : OptionValue}
    (h : c.get option default = .ok value) (hvalue : value ≠ .null) :
    c.getNumber option default range =
      if value.isOversized then .error .oversized
      else match value.toNumber? with
      | none => .error (.unparsable option value)
      | some number => (range.check option number).map fun _ => some number := by
  rw [getNumber, h, ok_bind]
  split
  · contradiction
  · cases hoversized : value.isOversized with
    | true =>
      simp only [if_true]
      rfl
    | false =>
      simp only [Bool.false_eq_true, if_false]
      cases value.toNumber? with
      | none => rfl
      | some number => rfl

/- Whatever the configuration holds, a number that is read has passed its range. -/
theorem holds_of_getNumber {default : Option OptionValue}
    (h : c.getNumber option default range = .ok (some number)) : range.Holds number := by
  obtain ⟨value, hget, -⟩ := bind_eq_ok_iff.1 h
  by_cases hnull : value = .null
  · subst hnull
    rw [getNumber, hget] at h
    cases h
  · rw [getNumber_of_value hget hnull] at h
    split at h
    · contradiction
    · split at h
      · contradiction
      · obtain ⟨_, hcheck, hnumber⟩ := exists_of_map_eq_ok h
        cases hnumber
        exact NumberRange.check_eq_ok_iff.1 hcheck

theorem getNumber_of_number {default : Option OptionValue}
    (h : c.get option default = .ok (.number number)) :
    c.getNumber option default range = (range.check option number).map fun _ => some number := by
  rw [getNumber_of_value h nofun]
  rfl

theorem getNumber_of_text {default : Option OptionValue}
    (h : c.get option default = .ok (.text text)) :
    c.getNumber option default range =
      match Text.readNumber? text with
      | none => .error (.unparsable option (.text text))
      | some number => (range.check option number).map fun _ => some number := by
  rw [getNumber_of_value h nofun]
  rfl

/- The name of an option itself is looked up before its other names. -/
theorem getNumber_of_lookup {default : Option OptionValue} {result : Option Binary64}
    (hoption : option ≠ "") (hlookup : c.values.lookup option = some (.number number))
    (h : c.getNumber option default range = .ok result) : result = some number := by
  have hfirst : c.First (keys option) (.number number) := .said hoption hlookup nofun
  rw [getNumber_of_number (get_of_first hfirst)] at h
  obtain ⟨_, -, hresult⟩ := exists_of_map_eq_ok h
  exact hresult.symm

theorem Setting.getNumber {default : Option Binary64}
    (h : c.Setting (keys option) default number) :
    c.getNumber option (default.map .number) range =
      (range.check option number).map fun _ => some number := by
  cases h with
  | given hfirst hread => rw [getNumber_of_text (get_of_first hfirst), hread]
  | default hsilent hdefault =>
    subst hdefault
    exact getNumber_of_number (get_of_silent hsilent)

/- A configuration of texts is read in one of these ways, and the last is the only one that can give
a number. -/
theorem read_getNumber (hc : c.Textual) (option : String) (default : Option Binary64)
    (range : NumberRange) :
    Read c option default range (c.getNumber option (default.map .number) range) := by
  by_cases hsilent : ∀ key ∈ keys option, c.Silent key
  · cases default with
    | none =>
      have hnumber : c.getNumber option none range = .error (.missing option) := by
        rw [getNumber, get_of_silent hsilent]
        rfl
      rw [Option.map_none, hnumber]
      exact .missing hsilent rfl
    | some number =>
      have hset : c.Setting (keys option) (some number) number := .default hsilent rfl
      rw [hset.getNumber]
      exact .number hset
  · obtain ⟨value, hfind⟩ := Option.ne_none_iff_exists'.1 (find?_eq_none_iff.not.2 hsilent)
    have hfirst := find?_eq_some_iff.1 hfind
    obtain ⟨text, rfl⟩ := hfirst.textual hc
    cases hread : Text.readNumber? text with
    | none =>
      rw [getNumber_of_text (get_of_first hfirst), hread]
      exact .unparsable hfirst hread
    | some number =>
      have hset : c.Setting (keys option) default number := .given hfirst hread
      rw [hset.getNumber]
      exact .number hset

theorem getNumber_eq_ok_iff (hc : c.Textual) {default result : Option Binary64} :
    c.getNumber option (default.map .number) range = .ok result ↔
      ∃ number, c.Setting (keys option) default number ∧ range.Holds number ∧
        result = some number := by
  constructor
  · intro h
    have hread := read_getNumber hc option default range
    generalize c.getNumber option (default.map .number) range = answer at h hread
    cases hread with
    | missing hsilent hdefault => contradiction
    | unparsable hfirst hread => contradiction
    | number hset =>
      obtain ⟨_, hcheck, hresult⟩ := exists_of_map_eq_ok h
      exact ⟨_, hset, NumberRange.check_eq_ok_iff.1 hcheck, hresult.symm⟩
  · rintro ⟨number, hset, hholds, rfl⟩
    rw [hset.getNumber, NumberRange.check_eq_ok_iff.2 hholds]
    rfl

theorem getNumber_least_iff (hc : c.Textual) {limit number : Binary64} {result : Option Binary64}
    (hlimit : limit ≠ nan) :
    c.getNumber option (some (.number number)) { least := some limit } = .ok result ↔
      ∃ value, c.Setting (keys option) (some number) value ∧
        (value = nan ∨ limit.le value = true) ∧ result = some value := by
  rw [← Option.map_some, getNumber_eq_ok_iff hc]
  simp only [NumberRange.holds_least_iff hlimit]

theorem getNumber_above_iff (hc : c.Textual) {limit number : Binary64} {result : Option Binary64}
    (hlimit : limit ≠ nan) :
    c.getNumber option (some (.number number)) { above := some limit } = .ok result ↔
      ∃ value, c.Setting (keys option) (some number) value ∧
        (value = nan ∨ limit.lt value = true) ∧ result = some value := by
  rw [← Option.map_some, getNumber_eq_ok_iff hc]
  simp only [NumberRange.holds_above_iff hlimit]

theorem getNumber_ne_oversized (hc : c.Textual) (option : String) (default : Option Binary64)
    (range : NumberRange) :
    c.getNumber option (default.map .number) range ≠ .error .oversized := by
  have hread := read_getNumber hc option default range
  generalize c.getNumber option (default.map .number) range = answer at hread ⊢
  cases hread with
  | missing hsilent hdefault => exact nofun
  | unparsable hfirst hread => exact nofun
  | @number number hset =>
    cases hcheck : range.check option number with
    | ok _ => exact nofun
    | error error =>
      rintro ⟨⟩
      exact NumberRange.check_ne_oversized hcheck

end Config

/-! ### The numbers of a printer -/

namespace Printer

open Config

variable {c : Config} {p : Printer} {now : Binary64}

theorem keys_printSeconds :
    keys "print_seconds" = ["print_seconds", "PRINT_SECONDS", "PRINT_SECONDS"] := by
  decide +kernel

theorem keys_feedRate : keys "feed_rate" = ["feed_rate", "FEED_MM_PER_MIN", "FEED_RATE"] := by
  decide +kernel

theorem exists_of_openAt (h : openAt c now = .ok p) :
    ∃ printSeconds feedRate,
      c.getNumber "print_seconds" (some (.number 0)) { least := some 0 } = .ok printSeconds ∧
      c.getNumber "feed_rate" (some (.number 600)) { above := some 0 } = .ok feedRate ∧
      p = { config := c, printSeconds, feedRate, store := .empty,
            machine := { bootedAt := now } } := by
  simp only [openAt, bind_eq_ok_iff] at h
  obtain ⟨printSeconds, hseconds, feedRate, hrate, hp⟩ := h
  exact ⟨printSeconds, feedRate, hseconds, hrate, (Except.ok.inj hp).symm⟩

theorem opened_of_openAt (h : openAt c now = .ok p) :
    p.config = c ∧ p.machine.bootedAt = now := by
  obtain ⟨_, _, -, -, rfl⟩ := exists_of_openAt h
  exact ⟨rfl, rfl⟩

theorem openAt_eq_ok_iff (hc : c.Textual) : openAt c now = .ok p ↔
    ∃ seconds rate,
      c.Setting (keys "print_seconds") (some 0) seconds ∧ (seconds = nan ∨ le 0 seconds = true) ∧
      c.Setting (keys "feed_rate") (some 600) rate ∧ (rate = nan ∨ lt 0 rate = true) ∧
      p = { config := c, printSeconds := some seconds, feedRate := some rate, store := .empty,
            machine := { bootedAt := now } } := by
  have hzero : (0 : Binary64) ≠ nan := by decide +kernel
  simp only [openAt, bind_eq_ok_iff, getNumber_least_iff hc hzero, getNumber_above_iff hc hzero]
  constructor
  · rintro ⟨_, ⟨seconds, hset, hpast, rfl⟩, _, ⟨rate, hsetRate, habove, rfl⟩, hp⟩
    cases hp
    exact ⟨seconds, rate, hset, hpast, hsetRate, habove, rfl⟩
  · rintro ⟨seconds, rate, hset, hpast, hsetRate, habove, rfl⟩
    exact ⟨_, ⟨seconds, hset, hpast, rfl⟩, _, ⟨rate, hsetRate, habove, rfl⟩, rfl⟩

theorem openAt_ne_oversized (hc : c.Textual) : openAt c now ≠ .error .oversized := by
  intro h
  have hseconds := getNumber_ne_oversized hc "print_seconds" (some 0) { least := some 0 }
  have hrate := getNumber_ne_oversized hc "feed_rate" (some 600) { above := some 0 }
  rw [openAt, bind_eq_error_iff] at h
  rcases h with h | ⟨_, -, h⟩
  · exact hseconds h
  · rw [bind_eq_error_iff] at h
    rcases h with h | ⟨_, -, h⟩
    · exact hrate h
    · contradiction

/-- Opening is refused unless both numbers lie within their ranges or are no numbers, and no number
is ever read beyond a limit of its range. -/
theorem openAt_ranges_unless_nan (c : Config) (hc : c.Textual) (now : Binary64) :
    (∀ p, openAt c now = .ok p ↔
      ∃ seconds rate,
        c.Setting ["print_seconds", "PRINT_SECONDS", "PRINT_SECONDS"] (some 0) seconds ∧
        (seconds = nan ∨ le 0 seconds = true) ∧
        c.Setting ["feed_rate", "FEED_MM_PER_MIN", "FEED_RATE"] (some 600) rate ∧
        (rate = nan ∨ lt 0 rate = true) ∧
        p = { config := c, printSeconds := some seconds, feedRate := some rate, store := .empty,
              machine := { bootedAt := now } }) ∧
    openAt c now ≠ .error .oversized ∧
    ∀ (option : String) (range : NumberRange),
      (∀ default, c.getNumber option (default.map .number) range ≠ .error .oversized ∧
        ∀ result, c.getNumber option (default.map .number) range = .ok result ↔
          ∃ number, c.Setting (keys option) default number ∧ range.Holds number ∧
            result = some number) ∧
      ∀ (d : Config) (default : Option OptionValue) (number : Binary64),
        d.getNumber option default range = .ok (some number) → range.Holds number := by
  refine ⟨fun p => ?_, openAt_ne_oversized hc, fun option range => ⟨fun default => ?_, ?_⟩⟩
  · rw [← keys_printSeconds, ← keys_feedRate]
    exact openAt_eq_ok_iff hc
  · exact ⟨getNumber_ne_oversized hc option default range, fun _ => getNumber_eq_ok_iff hc⟩
  · exact fun d default number h => holds_of_getNumber h

theorem openAt_ranges_unless_nan_alias :
    let c : Config := ⟨[("print_seconds", .text ""), ("PRINT_SECONDS", .text " 1_0 "),
      ("FEED_RATE", .text "nan")]⟩
    c.Textual ∧ openAt c 0 = .ok
      { config := c, printSeconds := some 10, feedRate := some nan, store := .empty,
        machine := { bootedAt := 0 } } := by
  intro c
  have hc : c.Textual :=
    textual_cons _ _ (textual_cons _ _ (textual_cons _ _ textual_nil))
  have hseconds : c.Setting ["print_seconds", "PRINT_SECONDS", "PRINT_SECONDS"] (some 0) 10 := by
    refine .given (.later (Or.inr (Or.inr rfl)) (.said (by decide) rfl ?_)) (by decide +kernel)
    simp
  have hrate : c.Setting ["feed_rate", "FEED_MM_PER_MIN", "FEED_RATE"] (some 600) nan := by
    refine .given (.later (Or.inr (Or.inl rfl)) (.later (Or.inr (Or.inl rfl))
      (.said (by decide) rfl ?_))) (by decide +kernel)
    simp
  exact ⟨hc, ((openAt_ranges_unless_nan c hc 0).1 _).2
    ⟨10, nan, hseconds, Or.inr (by decide +kernel), hrate, Or.inl rfl, rfl⟩⟩

/- The text that spells not-a-number is read, and what it gives is within no range. -/
theorem openAt_takes_nan :
    ¬ ∀ (c : Config) (now : Binary64) (p : Printer), c.Textual → openAt c now = .ok p →
      (∃ seconds, p.printSeconds = some seconds ∧ le 0 seconds = true) ∧
        ∃ rate, p.feedRate = some rate ∧ lt 0 rate = true := by
  intro hranges
  let c : Config := ⟨[("feed_rate", .text "nan")]⟩
  have hopen : (openAt c 0).toOption.map (·.feedRate) = some (some nan) := by
    decide +kernel
  obtain ⟨p, hp, hrate⟩ := Option.map_eq_some_iff.1 hopen
  obtain ⟨-, rate, hset, habove⟩ :=
    hranges c 0 p (textual_cons _ _ textual_nil) (toOption_eq_some_iff.1 hp)
  rw [hrate] at hset
  cases hset
  exact absurd habove (by decide +kernel)

end Printer

end VirtualPrinter
