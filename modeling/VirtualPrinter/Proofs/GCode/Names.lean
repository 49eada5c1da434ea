import VirtualPrinter.Proofs.Binary64.SixDigits
import VirtualPrinter.Proofs.Motion.Faults

/-!
# Names of commands

Codes are named by at most six significant digits unless they are whole, so that a code next to a
whole one has its name. A line acts exactly if the code it starts with is that near to one of the
supported ones.
-/

namespace VirtualPrinter

variable {k : Nat} {x : Binary64} {n : Int}

/-! ### Codes -/

namespace Binary64

theorem abs_toRat (negative : Bool) (m : Magnitude) :
    |(finite negative m).toRat| = m.units / unitsPerOne := by
  rw [toRat, abs_div, ← Int.cast_abs, Int.abs_eq_natAbs, natAbs_signedUnits, Int.cast_natCast,
    abs_of_pos units_cast_pos]

/- Cutting off the fraction does not pass a whole number. -/
theorem natAbs_truncate_le {negative : Bool} {m : Magnitude}
    (h : |(finite negative m).toRat| < k + 1) :
    ((signedUnits negative m).tdiv unitsPerOne).natAbs ≤ k := by
  rw [abs_toRat, div_lt_iff₀ units_cast_pos] at h
  have hunits : m.units < (k + 1) * unitsPerOne := by exact_mod_cast h
  rw [Int.natAbs_tdiv, natAbs_signedUnits, Int.natAbs_natCast]
  exact Nat.lt_succ_iff.1 ((Nat.div_lt_iff_lt_mul unitsPerOne_pos).2 hunits)

end Binary64

open Binary64

theorem sameSixDigits_self (k : Nat) : SameSixDigits k k := by
  have hten : (0 : ℚ) < 10 ^ (5 - Nat.log 10 k) := by positivity
  have hhalf : (0 : ℚ) ≤ if k = 10 ^ Nat.log 10 k then 1 / 20 else 1 / 2 := by
    split <;> norm_num
  exact ⟨sub_le_self _ (div_nonneg hhalf hten.le), le_add_of_nonneg_right (by positivity)⟩

theorem toString_int_eq_iff : toString n = toString k ↔ n = k := by
  cases n with
  | ofNat j =>
    have hnat : toString (Int.ofNat j) = toString j := rfl
    rw [hnat, ← String.toList_inj, toList_toString, toList_toString, decimalDigits_inj]
    simp
  | negSucc j =>
    constructor
    · intro h
      have hsign : '-' ∈ (toString (Int.negSucc j)).toList := by
        rw [Int.toString_eq_repr, Int.repr_eq_if, if_neg (by omega)]
        simp
      rw [h, toList_toString] at hsign
      exact absurd (isDigit_of_mem_decimalDigits hsign) (by decide)
    · intro h
      omega

theorem commandName_finite (letter : String) (negative : Bool) (m : Magnitude) :
    GCode.commandName letter (finite negative m) =
      .ok (letter ++
        if (finite negative m).sameNumber (.ofInt ((signedUnits negative m).tdiv unitsPerOne)) then
          toString ((signedUnits negative m).tdiv unitsPerOne)
        else (finite negative m).sixDigitText) :=
  rfl

/- Whole codes are named by all their digits and not by six of them, but only one of them has a
given name of fewer digits. -/
theorem commandName_eq_iff (letter : String) (hk : 0 < k) (hlog : Nat.log 10 k ≤ 4) :
    GCode.commandName letter x = .ok (letter ++ toString k) ↔ SameSixDigits k x.toRat := by
  have hsmall : k < 10 ^ 5 := Nat.lt_pow_of_log_lt (by omega) (by omega)
  have hcancel : ∀ name : String, Except.ok (letter ++ name) =
      (Except.ok (letter ++ toString k) : Except IntegerFault String) ↔ name = toString k := by
    intro name
    rw [Except.ok.injEq, ← String.toList_inj, String.toList_append, String.toList_append,
      List.append_cancel_left_eq, String.toList_inj]
  cases x with
  | nan => exact ⟨nofun, fun h => absurd (h.pos hk hlog) (lt_irrefl 0)⟩
  | infinity negative => exact ⟨nofun, fun h => absurd (h.pos hk hlog) (lt_irrefl 0)⟩
  | finite negative m =>
    rw [commandName_finite, hcancel]
    generalize hwhole : (signedUnits negative m).tdiv unitsPerOne = whole
    split
    · rename_i hsame
      rw [toString_int_eq_iff]
      constructor
      · rintro rfl
        have hvalue := ((isWhole_ofInt (by omega)).of_sameNumber rfl hsame).toRat_eq
        rw [hvalue]
        exact sameSixDigits_self k
      · intro h
        have hclose := abs_le.1 (h.close hlog)
        have hsize : |(finite negative m).toRat| < k + 1 := by
          rw [abs_lt]
          constructor
          · linarith
          · linarith
        have hle := natAbs_truncate_le hsize
        rw [hwhole] at hle
        have hvalue := ((isWhole_ofInt (by omega)).of_sameNumber rfl hsame).toRat_eq
        rw [hvalue] at hclose
        have hnear : |whole - (k : Int)| < 1 := by
          have hcast : |(whole : ℚ) - k| < 1 := by
            rw [abs_lt]
            constructor
            · linarith [hclose.1]
            · linarith [hclose.2]
          exact_mod_cast hcast
        rw [Int.abs_lt_one_iff] at hnear
        omega
    · exact sixDigitText_eq_iff rfl hk hlog

/-! ### Codes of supported commands -/

/-- The numbers of six significant digits that a command word may round to for its line to act. -/
def NearCommand (letter : Char) (code : ℚ) : Prop :=
  letter = 'G' ∧ ((1 - 1 / 2000000 ≤ code ∧ code ≤ 1 + 1 / 200000) ∨ |code - 90| ≤ 1 / 20000 ∨
    |code - 91| ≤ 1 / 20000 ∨ |code - 92| ≤ 1 / 20000) ∨
  letter = 'M' ∧ (|code - 82| ≤ 1 / 20000 ∨ |code - 83| ≤ 1 / 20000)

theorem sameSixDigits_one {q : ℚ} :
    SameSixDigits 1 q ↔ 1 - 1 / 2000000 ≤ q ∧ q ≤ 1 + 1 / 200000 := by
  have hlog : Nat.log 10 1 = 0 := Nat.log_one_right 10
  have hpower : 1 = 10 ^ Nat.log 10 1 := by rw [hlog, Nat.pow_zero]
  have hlow : ((1 : Nat) - 1 / 20 / 10 ^ (5 - 0) : ℚ) = 1 - 1 / 2000000 := by norm_num
  have hhigh : ((1 : Nat) + 1 / 2 / 10 ^ (5 - 0) : ℚ) = 1 + 1 / 200000 := by norm_num
  constructor
  · rintro ⟨hbelow, habove⟩
    rw [if_pos hpower, hlog, hlow] at hbelow
    rw [hlog, hhigh] at habove
    exact ⟨hbelow, habove⟩
  · rintro ⟨hbelow, habove⟩
    constructor
    · rwa [if_pos hpower, hlog, hlow]
    · rwa [hlog, hhigh]

theorem sameSixDigits_two {q : ℚ} (hlow : 10 < k) (hhigh : k < 100) :
    SameSixDigits k q ↔ |q - k| ≤ 1 / 20000 := by
  have hlog : Nat.log 10 k = 1 := Nat.log_eq_of_pow_le_of_lt_pow (by omega) (by omega)
  have hpower : ¬ k = 10 ^ Nat.log 10 k := by
    rw [hlog]
    omega
  have hunit : (1 / 2 / 10 ^ (5 - 1) : ℚ) = 1 / 20000 := by norm_num
  rw [abs_le]
  constructor
  · rintro ⟨hbelow, habove⟩
    rw [if_neg hpower, hlog, hunit] at hbelow
    rw [hlog, hunit] at habove
    exact ⟨by linarith, by linarith⟩
  · rintro ⟨hbelow, habove⟩
    constructor
    · rw [if_neg hpower, hlog, hunit]
      linarith
    · rw [hlog, hunit]
      linarith

theorem exists_behind_letter {letter name : String} (h : GCode.commandName letter x = .ok name) :
    ∃ code, name = letter ++ code := by
  cases x with
  | nan => contradiction
  | infinity negative => contradiction
  | finite negative m =>
    cases h
    exact ⟨_, rfl⟩

theorem head_commandName {letter : Char} {name : String}
    (h : GCode.commandName (String.singleton letter) x = .ok name) :
    name.toList.head? = some letter := by
  obtain ⟨code, rfl⟩ := exists_behind_letter h
  simp

theorem commandName_one (letter : String) :
    GCode.commandName letter x = .ok (letter ++ toString 1) ↔
      1 - 1 / 2000000 ≤ x.toRat ∧ x.toRat ≤ 1 + 1 / 200000 := by
  rw [commandName_eq_iff letter (by omega) (by simp), sameSixDigits_one]

theorem commandName_two (letter : String) (hlow : 10 < k) (hhigh : k < 100) :
    GCode.commandName letter x = .ok (letter ++ toString k) ↔ |x.toRat - k| ≤ 1 / 20000 := by
  have hlog : Nat.log 10 k < 2 := Nat.log_lt_of_lt_pow (by omega) hhigh
  rw [commandName_eq_iff letter (by omega) (by omega), sameSixDigits_two hlow hhigh]

theorem supported_code_iff {letter : Char} (hletter : GCode.isCommandLetter letter = true) :
    (∃ name ∈ supportedCommands, GCode.commandName (String.singleton letter) x = .ok name) ↔
      NearCommand letter x.toRat := by
  have hother : ∀ name : String, name.toList.head? ≠ some letter →
      ¬ GCode.commandName (String.singleton letter) x = .ok name :=
    fun name hne hname => hne (head_commandName hname)
  have hone := commandName_one (x := x) (String.singleton letter)
  have htwo := fun k => commandName_two (x := x) (k := k) (String.singleton letter)
  simp only [supportedCommands, List.mem_cons, List.not_mem_nil, or_false, exists_eq_or_imp,
    exists_eq_left, NearCommand]
  obtain rfl | rfl : letter = 'G' ∨ letter = 'M' := by
    simpa [GCode.isCommandLetter] using hletter
  · have h1 : String.singleton 'G' ++ toString 1 = "G1" := by decide
    have h90 : String.singleton 'G' ++ toString 90 = "G90" := by decide
    have h91 : String.singleton 'G' ++ toString 91 = "G91" := by decide
    have h92 : String.singleton 'G' ++ toString 92 = "G92" := by decide
    rw [← h1, ← h90, ← h91, ← h92, hone, htwo 90 (by omega) (by omega),
      htwo 91 (by omega) (by omega), htwo 92 (by omega) (by omega)]
    simp only [hother "M82" (by decide), hother "M83" (by decide), or_false, true_and,
      Char.reduceEq, false_and, Nat.cast_ofNat]
  · have h82 : String.singleton 'M' ++ toString 82 = "M82" := by decide
    have h83 : String.singleton 'M' ++ toString 83 = "M83" := by decide
    rw [← h82, ← h83, htwo 82 (by omega) (by omega), htwo 83 (by omega) (by omega)]
    simp only [hother "G1" (by decide), hother "G90" (by decide), hother "G91" (by decide),
      hother "G92" (by decide), false_or, true_and, Char.reduceEq, false_and, Nat.cast_ofNat]

/-! ### Lines that act -/

namespace GCode

variable {text : List Char}

theorem names_some_iff {name : String} : Names text (some name) ↔
    ∃ letter n, WordAt text 0 letter n ∧ isCommandLetter letter = true ∧
      commandName (String.singleton letter) n.value = .ok name := by
  constructor
  · rintro ⟨hword, hletter, hname⟩
    exact ⟨_, _, hword, hletter, hname⟩
  · rintro ⟨letter, n, hword, hletter, hname⟩
    exact .named hword hletter hname

theorem Line.names_of_parse {line : Option Line} (h : parse text = .ok line) :
    Names (significant text) (command? line) := by
  cases line with
  | none =>
    rw [parse_eq_none_iff] at h
    rw [h]
    exact .nameless fun letter n hword => by simpa using hword.letterAt
  | some line => exact names_leadingCommand (exists_of_parse h).1

theorem Line.exists_parse_of_command {command : Option String} (hne : significant text ≠ [])
    (h : leadingCommand (significant text) = .ok command) :
    ∃ line, parse text = .ok line ∧ command? line = command := by
  simp only [parse, if_neg hne, h]
  exact ⟨_, rfl, rfl⟩

end GCode

open GCode

theorem NearCommand.isCommandLetter {letter : Char} {code : ℚ} (h : NearCommand letter code) :
    isCommandLetter letter = true := by
  rcases h with ⟨rfl, -⟩ | ⟨rfl, -⟩
  · decide
  · decide

theorem isSupported_iff (text : List Char) : isSupported text = true ↔
    ∃ letter n, WordAt (significant text) 0 letter n ∧ NearCommand letter n.value.toRat := by
  constructor
  · intro h
    cases hparse : Line.parse text with
    | error fault => simp [isSupported, hparse] at h
    | ok line =>
      cases hcommand : Line.command? line with
      | none => simp [isSupported, hparse, hcommand] at h
      | some name =>
        simp only [isSupported, hparse, hcommand, Option.any_some, List.contains_eq_mem,
          decide_eq_true_eq] at h
        have hnames := Line.names_of_parse hparse
        rw [hcommand, names_some_iff] at hnames
        obtain ⟨letter, n, hword, hletter, hname⟩ := hnames
        exact ⟨letter, n, hword, (supported_code_iff hletter).1 ⟨name, h, hname⟩⟩
  · rintro ⟨letter, n, hword, hnear⟩
    obtain ⟨name, hmem, hname⟩ := (supported_code_iff hnear.isCommandLetter).2 hnear
    have hne : significant text ≠ [] := by
      intro hnil
      rw [hnil] at hword
      simpa using hword.letterAt
    have hleading := leadingCommand_of_wordAt hword hnear.isCommandLetter
    rw [hname] at hleading
    obtain ⟨line, hparse, hcommand⟩ := Line.exists_parse_of_command hne hleading
    simp [isSupported, hparse, hcommand, hmem]

/-- A line acts only by a leading word whose code is next to that of a supported command, and a line
with such a word names that command. -/
theorem acts_near_supported (text : List Char) (line : Option Line)
    (h : Line.parse text = .ok line) :
    ((Line.command? line).any (supportedCommands.contains ·) = true ↔
      ∃ letter n, WordAt (significant text) 0 letter n ∧ NearCommand letter n.value.toRat) ∧
    ∀ m : ModalState, ((m.interpret line).modal ≠ m ∨ (m.interpret line).segment ≠ none) →
      ∃ letter n, WordAt (significant text) 0 letter n ∧ NearCommand letter n.value.toRat := by
  have hsupported : isSupported text = (Line.command? line).any (supportedCommands.contains ·) := by
    simp only [isSupported, h]
  rw [← hsupported]
  refine ⟨isSupported_iff text, fun m hacts => (isSupported_iff text).1 ?_⟩
  by_contra hnot
  obtain ⟨hmodal, hsegment⟩ := m.interpret_unsupported h (Bool.eq_false_iff.2 hnot)
  rcases hacts with hchanged | hemitted
  · exact hchanged hmodal
  · exact hemitted hsegment

theorem acts_near_supported_move :
    let text := "g01.000001 x1 y2".toList
    ∃ line, Line.parse text = .ok line ∧ (ModalState.interpret {} line).modal ≠ {} ∧
      ∃ letter n, WordAt (significant text) 0 letter n ∧ NearCommand letter n.value.toRat := by
  intro text
  have hchanged : (Line.parse text).map
      (fun line => decide ((ModalState.interpret {} line).modal = {})) = .ok false := by
    decide +kernel
  obtain ⟨line, hparse, hmodal⟩ := exists_of_map_eq_ok hchanged
  rw [decide_eq_false_iff_not] at hmodal
  exact ⟨line, hparse, hmodal, (acts_near_supported text line hparse).2 {} (Or.inl hmodal)⟩

theorem fractional_code_acts : ¬ ∀ (text : List Char) (line : Option Line) (m : ModalState),
    Line.parse text = .ok line →
    ((m.interpret line).modal ≠ m ∨ (m.interpret line).segment ≠ none) →
    ∃ letter n, WordAt (significant text) 0 letter n ∧
      (letter = 'G' ∧ (n.value = 1 ∨ n.value = 90 ∨ n.value = 91 ∨ n.value = 92) ∨
        letter = 'M' ∧ (n.value = 82 ∨ n.value = 83)) := by
  intro hexact
  have hchanged : (Line.parse "G1.0000001 X1 Y2".toList).map
      (fun line => decide ((ModalState.interpret {} line).modal = {})) = .ok false := by
    decide +kernel
  have hvalue : (Numeral.read? ((significant "G1.0000001 X1 Y2".toList).drop 1)).map (fun n =>
      decide ((n.value = 1 ∨ n.value = 90 ∨ n.value = 91 ∨ n.value = 92) ∨
        (n.value = 82 ∨ n.value = 83))) = some false := by
    decide +kernel
  obtain ⟨line, hparse, hmodal⟩ := exists_of_map_eq_ok hchanged
  rw [decide_eq_false_iff_not] at hmodal
  obtain ⟨letter, n, hword, hcode⟩ := hexact _ line {} hparse (Or.inl hmodal)
  rw [Numeral.read?_eq_some_iff.2 hword.longest] at hvalue
  simp only [Option.map_some, Option.some.injEq, decide_eq_false_iff_not] at hvalue
  exact hvalue (hcode.imp And.right And.right)

end VirtualPrinter
