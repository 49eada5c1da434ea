import VirtualPrinter.Text.Utf8

/-!
# Program texts

A program text is any sequence of code points, surrogates among them. A surrogate stands for no
character: programs are read as if it were the replacement character, which is no blank, digit or
letter either, but a text that holds one cannot be written in UTF-8 and has no size in bytes.
-/

namespace VirtualPrinter

/-- A code point of a text: a character, or a surrogate, counted from the first. -/
inductive CodePoint where
  | character (c : Char)
  | surrogate (index : Fin 0x800)
deriving DecidableEq

namespace CodePoint

def isSurrogate : CodePoint → Bool
  | character _ => false
  | surrogate _ => true

/-- The character that a code point is read as. -/
def legible : CodePoint → Char
  | character c => c
  | surrogate _ => Text.replacementChar

end CodePoint

/-- Why a text cannot be written in UTF-8: its first surrogate, the position of it, and how many
more follow without a break. -/
structure EncodingFault where
  position : Nat
  surrogate : Fin 0x800
  more : Nat
deriving DecidableEq

def EncodingFault.message (fault : EncodingFault) : String :=
  let code := String.ofList (Nat.toDigits 16 (0xd800 + fault.surrogate))
  let place :=
    if fault.more = 0 then s!"character '\\u{code}' in position {fault.position}"
    else s!"characters in position {fault.position}-{fault.position + fault.more}"
  s!"'utf-8' codec can't encode {place}: surrogates not allowed"

structure ProgramText where
  points : List CodePoint
deriving DecidableEq

namespace ProgramText

def ofString (text : String) : ProgramText := ⟨text.toList.map .character⟩

instance : Coe String ProgramText := ⟨ofString⟩

def isEmpty (t : ProgramText) : Bool := t.points.isEmpty

/-- The text as programs are read. -/
def legible (t : ProgramText) : String := String.ofList (t.points.map (·.legible))

/-- The first fault of code points, the first of which has the given position. -/
def faultFrom? (position : Nat) : List CodePoint → Option EncodingFault
  | [] => none
  | .character _ :: rest => faultFrom? (position + 1) rest
  | .surrogate index :: rest =>
    some ⟨position, index, (rest.takeWhile (·.isSurrogate)).length⟩

/-- The text as it is written in UTF-8. -/
def encodable (t : ProgramText) : Except EncodingFault String :=
  match faultFrom? 0 t.points with
  | some fault => .error fault
  | none => .ok t.legible

end ProgramText

end VirtualPrinter
