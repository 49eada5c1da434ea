/-!
# UTF-8

Bytes are read one at a time by a machine that remembers the unfinished sequence it is in. The
result lists characters and, in their places, the invalid parts: each is the longest run of bytes
that begins a well-formed sequence but does not complete it, or a single byte that begins none.
Strict reading refuses any invalid part; lenient reading puts a replacement character for each.
-/

namespace VirtualPrinter.Text

/-- A sequence that has begun: the bits read so far, how many bytes it still owes after the next
one, and the bounds of the next. -/
structure Utf8Pending where
  bits : Nat
  later : Nat
  low : Nat
  high : Nat

/-- What a byte does at the start of a sequence. -/
inductive Utf8Opening where
  | complete (c : Char)
  | pending (p : Utf8Pending)
  | invalid

/-- The opening of a sequence. The narrower bounds of some second bytes keep out forms longer than
needed, surrogates and numbers beyond the last code point. -/
def utf8Opening (byte : Nat) : Utf8Opening :=
  if byte < 0x80 then .complete (Char.ofNat byte)
  else if byte < 0xc2 then .invalid
  else if byte < 0xe0 then .pending ⟨byte - 0xc0, 0, 0x80, 0xbf⟩
  else if byte = 0xe0 then .pending ⟨0, 1, 0xa0, 0xbf⟩
  else if byte = 0xed then .pending ⟨0xd, 1, 0x80, 0x9f⟩
  else if byte < 0xf0 then .pending ⟨byte - 0xe0, 1, 0x80, 0xbf⟩
  else if byte = 0xf0 then .pending ⟨0, 2, 0x90, 0xbf⟩
  else if byte < 0xf4 then .pending ⟨byte - 0xf0, 2, 0x80, 0xbf⟩
  else if byte = 0xf4 then .pending ⟨4, 2, 0x80, 0x8f⟩
  else .invalid

/-- The machine: the sequence it is in, and the characters and invalid parts (`none`) so far. -/
structure Utf8Reader where
  pending : Option Utf8Pending := none
  parts : Array (Option Char) := #[]

namespace Utf8Reader

/-- Closes the current sequence with a character or as an invalid part. -/
def close (r : Utf8Reader) (part : Option Char) : Utf8Reader := ⟨none, r.parts.push part⟩

def start (r : Utf8Reader) (byte : UInt8) : Utf8Reader :=
  match utf8Opening byte.toNat with
  | .complete c => r.close (some c)
  | .pending p => { r with pending := some p }
  | .invalid => r.close none

/-- Reads one byte: it goes on with the current sequence, or ends it unfinished and starts anew. -/
def step (r : Utf8Reader) (byte : UInt8) : Utf8Reader :=
  match r.pending with
  | none => r.start byte
  | some p =>
    if p.low ≤ byte.toNat ∧ byte.toNat ≤ p.high then
      let bits := p.bits * 64 + byte.toNat % 64
      match p.later with
      | 0 => r.close (some (Char.ofNat bits))
      | later + 1 => { r with pending := some ⟨bits, later, 0x80, 0xbf⟩ }
    else (r.close none).start byte

/-- The parts at the end of the bytes, where an unfinished sequence is invalid. -/
def finish (r : Utf8Reader) : Array (Option Char) :=
  if r.pending.isSome then r.parts.push none else r.parts

end Utf8Reader

/-- The characters of bytes in order, with `none` for each invalid part. -/
def utf8Parts (bytes : List UInt8) : List (Option Char) :=
  (bytes.foldl Utf8Reader.step {}).finish.toList

def replacementChar : Char := '\uFFFD'

/-- The text of bytes, with a replacement character for every invalid part. -/
def utf8Lenient (bytes : List UInt8) : String :=
  String.ofList ((utf8Parts bytes).map (·.getD replacementChar))

/-- The text of bytes, if all of them are well formed. -/
def utf8Strict? (bytes : List UInt8) : Option String :=
  ((utf8Parts bytes).mapM id).map String.ofList

end VirtualPrinter.Text
