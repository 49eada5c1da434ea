import VirtualPrinter.Text.Utf8

/-!
# Reading what UTF-8 writes

The reader goes through the bytes of a character and closes with that character: the lead byte opens
a sequence whose bounds the next byte meets, because the code of a character is not below its range,
not a surrogate and not beyond the last code point. So the bytes of a text are read as that text,
strictly and leniently alike.
-/

namespace VirtualPrinter.Text

/-- The bytes of a text in UTF-8. -/
def utf8Bytes (text : String) : List UInt8 := text.toList.flatMap String.utf8EncodeChar

theorem toByteArray_utf8Bytes (text : String) : (utf8Bytes text).toByteArray = text.toUTF8 :=
  String.utf8Encode_toList

theorem length_utf8Bytes (text : String) : (utf8Bytes text).length = text.utf8ByteSize := by
  rw [← String.size_toByteArray, ← List.size_toByteArray, toByteArray_utf8Bytes]
  rfl

theorem toByteArray_injective {a b : List UInt8} (h : a.toByteArray = b.toByteArray) : a = b := by
  have hlists := congrArg (fun bytes : ByteArray => bytes.data.toList) h
  simpa only [List.toList_data_toByteArray] using hlists

/- The valid byte strings are those that some text has. -/
theorem isValidUTF8_iff {bytes : List UInt8} :
    bytes.toByteArray.IsValidUTF8 ↔ ∃ text, utf8Bytes text = bytes := by
  constructor
  · rintro ⟨chars, hchars⟩
    refine ⟨String.ofList chars, toByteArray_injective ?_⟩
    rw [utf8Bytes, String.toList_ofList, hchars, List.utf8Encode]
  · rintro ⟨text, rfl⟩
    exact ⟨text.toList, rfl⟩

/-! ### Lead bytes -/

variable {lead next : Nat}

theorem opening_one (h : lead < 0x80) : utf8Opening lead = .complete (Char.ofNat lead) := by
  rw [utf8Opening, if_pos h]

theorem opening_two (hlow : 0xc2 ≤ lead) (hhigh : lead < 0xe0) :
    utf8Opening lead = .pending ⟨lead - 0xc0, 0, 0x80, 0xbf⟩ := by
  rw [utf8Opening, if_neg (by omega), if_neg (by omega), if_pos hhigh]

/- The bits of the first two bytes keep out codes that two bytes can hold, and surrogates. -/
theorem opening_three (hlow : 0xe0 ≤ lead) (hhigh : lead < 0xf0) (hnext : next < 0x40)
    (hlong : 0x20 ≤ (lead - 0xe0) * 64 + next)
    (hsurrogate : (lead - 0xe0) * 64 + next < 0x360 ∨ 0x380 ≤ (lead - 0xe0) * 64 + next) :
    ∃ low high, utf8Opening lead = .pending ⟨lead - 0xe0, 1, low, high⟩ ∧
      low ≤ next + 0x80 ∧ next + 0x80 ≤ high := by
  unfold utf8Opening
  rw [if_neg (by omega), if_neg (by omega), if_neg (by omega)]
  split
  · exact ⟨0xa0, 0xbf, by simp [*], by omega, by omega⟩
  · split
    · exact ⟨0x80, 0x9f, by simp [*], by omega, by omega⟩
    · exact ⟨0x80, 0xbf, rfl, by omega, by omega⟩

/- The bits of the first two bytes keep out codes that three bytes can hold, and those beyond the
last. -/
theorem opening_four (hlow : 0xf0 ≤ lead) (hnext : next < 0x40)
    (hlong : 0x10 ≤ (lead - 0xf0) * 64 + next) (hlast : (lead - 0xf0) * 64 + next < 0x110) :
    ∃ low high, utf8Opening lead = .pending ⟨lead - 0xf0, 2, low, high⟩ ∧
      low ≤ next + 0x80 ∧ next + 0x80 ≤ high := by
  unfold utf8Opening
  rw [if_neg (by omega), if_neg (by omega), if_neg (by omega), if_neg (by omega), if_neg (by omega),
    if_neg (by omega)]
  split
  · exact ⟨0x90, 0xbf, by simp [*], by omega, by omega⟩
  · split
    · exact ⟨0x80, 0xbf, rfl, by omega, by omega⟩
    · rw [if_pos (by omega)]
      exact ⟨0x80, 0x8f, by simp; omega, by omega, by omega⟩

/-! ### Steps of the reader -/

namespace Utf8Reader

variable {parts : Array (Option Char)} {bits low high later : Nat}

theorem step_complete {c : Char} (hlead : lead < 256) (h : utf8Opening lead = .complete c) :
    step ⟨none, parts⟩ (UInt8.ofNat lead) = ⟨none, parts.push (some c)⟩ := by
  simp only [step, start, UInt8.toNat_ofNat_of_lt' hlead, h, close]

theorem step_opens {p : Utf8Pending} (hlead : lead < 256) (h : utf8Opening lead = .pending p) :
    step ⟨none, parts⟩ (UInt8.ofNat lead) = ⟨some p, parts⟩ := by
  simp only [step, start, UInt8.toNat_ofNat_of_lt' hlead, h]

theorem step_goes_on (hnext : next < 0x40) (hlow : low ≤ next + 0x80) (hhigh : next + 0x80 ≤ high) :
    step ⟨some ⟨bits, later + 1, low, high⟩, parts⟩ (UInt8.ofNat (next + 0x80)) =
      ⟨some ⟨bits * 64 + next, later, 0x80, 0xbf⟩, parts⟩ := by
  have hbyte : (UInt8.ofNat (next + 0x80)).toNat = next + 0x80 :=
    UInt8.toNat_ofNat_of_lt' (show next + 0x80 < 256 by omega)
  have hmod : (next + 0x80) % 64 = next := by omega
  simp only [step, hbyte, hlow, hhigh, and_self, if_true, hmod]

theorem step_ends (hnext : next < 0x40) :
    step ⟨some ⟨bits, 0, 0x80, 0xbf⟩, parts⟩ (UInt8.ofNat (next + 0x80)) =
      ⟨none, parts.push (some (Char.ofNat (bits * 64 + next)))⟩ := by
  have hbyte : (UInt8.ofNat (next + 0x80)).toNat = next + 0x80 :=
    UInt8.toNat_ofNat_of_lt' (show next + 0x80 < 256 by omega)
  have hmod : (next + 0x80) % 64 = next := by omega
  have hbounds : 0x80 ≤ next + 0x80 ∧ next + 0x80 ≤ 0xbf := by omega
  simp only [step, hbyte, hbounds, and_self, if_true, hmod, close]

/- The bytes of a character leave the reader outside of any sequence, with that character added. -/
theorem read_char (c : Char) :
    (String.utf8EncodeChar c).foldl step ⟨none, parts⟩ = ⟨none, parts.push (some c)⟩ := by
  have hvalid : c.toNat < 0xd800 ∨ 0xdfff < c.toNat ∧ c.toNat < 0x110000 := c.valid
  have hread : ∀ code, code = c.toNat → Char.ofNat code = c := fun code hcode =>
    hcode ▸ Char.ofNat_toNat c
  have hsix : ∀ n, n % 64 < 0x40 := fun n => Nat.mod_lt n (by omega)
  have hcode : c.val.toNat = c.toNat := rfl
  simp only [String.utf8EncodeChar, hcode]
  generalize c.toNat = code at *
  split
  · rename_i hone
    rw [List.foldl_cons, step_complete (by omega) (opening_one (by omega)), hread _ rfl]
    rfl
  split
  · have hlead : 0xc2 ≤ code / 64 % 32 + 192 ∧ code / 64 % 32 + 192 < 0xe0 := by omega
    rw [List.foldl_cons, step_opens (by omega) (opening_two hlead.1 hlead.2), List.foldl_cons,
      step_ends (hsix _), hread _ (by omega)]
    rfl
  split
  · have hlead : 0xe0 ≤ code / 4096 % 16 + 224 ∧ code / 4096 % 16 + 224 < 0xf0 := by omega
    obtain ⟨low, high, hopening, hlow, hhigh⟩ :=
      opening_three hlead.1 hlead.2 (hsix (code / 64)) (by omega) (by omega)
    rw [List.foldl_cons, step_opens (by omega) hopening, List.foldl_cons,
      step_goes_on (hsix _) hlow hhigh, List.foldl_cons, step_ends (hsix _), hread _ (by omega)]
    rfl
  · have hlead : 0xf0 ≤ code / 262144 % 8 + 240 := by omega
    obtain ⟨low, high, hopening, hlow, hhigh⟩ :=
      opening_four hlead (hsix (code / 4096)) (by omega) (by omega)
    rw [List.foldl_cons, step_opens (by omega) hopening, List.foldl_cons,
      step_goes_on (hsix _) hlow hhigh, List.foldl_cons,
      step_goes_on (hsix _) (by omega) (by omega), List.foldl_cons, step_ends (hsix _),
      hread _ (by omega)]
    rfl

theorem read_chars (chars : List Char) (parts : Array (Option Char)) :
    (chars.flatMap String.utf8EncodeChar).foldl step ⟨none, parts⟩ =
      ⟨none, parts ++ (chars.map some).toArray⟩ := by
  induction chars generalizing parts with
  | nil => simp
  | cons c chars ih =>
    rw [List.flatMap_cons, List.foldl_append, read_char, ih, List.map_cons,
      List.push_append_toArray]

/- No byte is lost: what a step leaves has a part, or a sequence that will be one. -/
theorem finish_step_ne (r : Utf8Reader) (byte : UInt8) : (r.step byte).finish ≠ #[] := by
  have hstart : ∀ r : Utf8Reader, (r.start byte).finish ≠ #[] := by
    intro r
    unfold start
    cases utf8Opening byte.toNat <;> simp [close, finish]
  unfold step
  split
  · exact hstart r
  · split
    · split <;> simp [close, finish]
    · exact hstart _

end Utf8Reader

/-! ### Texts -/

theorem utf8Parts_ne_nil {bytes : List UInt8} (h : bytes ≠ []) : utf8Parts bytes ≠ [] := by
  rcases List.eq_nil_or_concat bytes with rfl | ⟨init, byte, rfl⟩
  · contradiction
  · rw [utf8Parts, List.concat_eq_append, List.foldl_append, Ne, Array.toList_eq_nil_iff]
    exact Utf8Reader.finish_step_ne _ byte

theorem utf8Parts_utf8Bytes (text : String) :
    utf8Parts (utf8Bytes text) = text.toList.map some := by
  rw [utf8Parts, utf8Bytes, Utf8Reader.read_chars]
  simp [Utf8Reader.finish]

theorem utf8Lenient_utf8Bytes (text : String) : utf8Lenient (utf8Bytes text) = text := by
  rw [utf8Lenient, utf8Parts_utf8Bytes, List.map_map]
  simp [Function.comp_def]

theorem utf8Strict?_utf8Bytes (text : String) : utf8Strict? (utf8Bytes text) = some text := by
  have hall : ∀ chars : List Char, (chars.map some).mapM id = some chars := by
    intro chars
    induction chars with
    | nil => rfl
    | cons c chars ih => simp [List.mapM_cons, ih]
  rw [utf8Strict?, utf8Parts_utf8Bytes, hall]
  simp

theorem utf8Bytes_utf8Lenient_ne {bytes : List UInt8} (h : bytes ≠ []) :
    utf8Bytes (utf8Lenient bytes) ≠ [] := by
  intro hempty
  have htext := utf8Lenient_utf8Bytes (utf8Lenient bytes)
  have hnone : utf8Lenient [] = "" := rfl
  rw [hempty, hnone] at htext
  have hparts : (utf8Lenient bytes).toList = [] := htext ▸ rfl
  rw [utf8Lenient, String.toList_ofList, List.map_eq_nil_iff] at hparts
  exact utf8Parts_ne_nil h hparts

theorem nil_of_utf8Strict? {bytes : List UInt8} (h : utf8Strict? bytes = some "") : bytes = [] := by
  cases hparts : utf8Parts bytes with
  | nil =>
    apply Classical.byContradiction
    intro hne
    exact utf8Parts_ne_nil hne hparts
  | cons part parts =>
    obtain ⟨chars, hchars, hempty⟩ := Option.map_eq_some_iff.1 h
    rw [String.ofList_eq_empty_iff] at hempty
    rw [hparts, hempty, List.mapM_cons] at hchars
    obtain ⟨c, -, hrest⟩ := Option.bind_eq_some_iff.1 hchars
    obtain ⟨rest, -, hcons⟩ := Option.bind_eq_some_iff.1 hrest
    exact absurd (Option.some.inj hcons) (List.cons_ne_nil _ _)

end VirtualPrinter.Text
