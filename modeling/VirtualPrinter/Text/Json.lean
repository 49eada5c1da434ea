import VirtualPrinter.Binary64.Shortest
import VirtualPrinter.Text.Quoted

/-!
# JSON documents on one ASCII line

A document is written with a blank after every comma and colon, its fields in the order given, and
every character beyond ASCII escaped by its UTF-16 units. Numbers that are not finite are written by
name.
-/

namespace VirtualPrinter

/-- A JSON document; integers are kept apart from floating-point numbers. -/
inductive Json where
  | null
  | bool (value : Bool)
  | integer (value : Int)
  | number (value : Binary64)
  | text (value : String)
  | array (items : List Json)
  | object (fields : List (String × Json))
deriving Inhabited

namespace Json

/-! ### Text -/

def utf16Units (c : Char) : List Nat :=
  let code := c.toNat
  if code < 0x10000 then [code]
  else [0xd800 + (code - 0x10000) / 0x400, 0xdc00 + (code - 0x10000) % 0x400]

def escapedChar (c : Char) : List Char :=
  match c with
  | '"' => ['\\', '"']
  | '\\' => ['\\', '\\']
  | '\n' => ['\\', 'n']
  | '\r' => ['\\', 'r']
  | '\t' => ['\\', 't']
  | '\x08' => ['\\', 'b']
  | '\x0c' => ['\\', 'f']
  | c =>
    if ' ' ≤ c ∧ c ≤ '~' then [c]
    else (utf16Units c).flatMap fun unit => '\\' :: 'u' :: Text.hexPadded 4 unit

def renderText (text : String) : String :=
  String.ofList ('"' :: text.toList.flatMap escapedChar ++ ['"'])

/-! ### Numbers -/

/-- A number by its shortest decimal, or by name when it is not finite. -/
def renderNumber : Binary64 → String
  | .nan => "NaN"
  | .infinity negative => if negative then "-Infinity" else "Infinity"
  | x => x.shortestText

/-! ### Documents -/

mutual

def render : Json → String
  | null => "null"
  | bool value => if value then "true" else "false"
  | integer value => toString value
  | number value => renderNumber value
  | text value => renderText value
  | array items => "[" ++ ", ".intercalate (renderItems items) ++ "]"
  | object fields => "\x7b" ++ ", ".intercalate (renderFields fields) ++ "\x7d"

def renderItems : List Json → List String
  | [] => []
  | item :: rest => item.render :: renderItems rest

def renderFields : List (String × Json) → List String
  | [] => []
  | (key, value) :: rest => (renderText key ++ ": " ++ value.render) :: renderFields rest

end

end Json

end VirtualPrinter
