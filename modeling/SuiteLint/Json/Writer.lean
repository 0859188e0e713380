import SuiteLint.Json.Spelling
import SuiteLint.Json.Value
import SuiteLint.Text.Quoted

/-!
# Writing JSON

A document is written with one item or member per line, two blanks of indentation per level, and
ASCII characters only.
-/

namespace SuiteLint.Json

def unitEscape (n : Nat) : List Char :=
  '\\' :: 'u' :: Text.hexPadded 4 n

/-- One character inside a string. Characters beyond the first 65536 are written as a pair. -/
def escapeChar (c : Char) : List Char :=
  if c = '"' then ['\\', '"']
  else if c = '\\' then ['\\', '\\']
  else if c = '\n' then ['\\', 'n']
  else if c = '\r' then ['\\', 'r']
  else if c = '\t' then ['\\', 't']
  else if c = '\x08' then ['\\', 'b']
  else if c = '\x0C' then ['\\', 'f']
  else if 0x20 ≤ c.toNat ∧ c.toNat < 0x7F then [c]
  else if c.toNat < 0x10000 then unitEscape c.toNat
  else
    unitEscape (0xD800 + (c.toNat - 0x10000) / 0x400) ++
      unitEscape (0xDC00 + (c.toNat - 0x10000) % 0x400)

def escapeSymbol : Symbol → List Char
  | .char c => escapeChar c
  | .half unit => unitEscape unit

def writeString (s : List Symbol) : List Char :=
  '"' :: s.flatMap escapeSymbol ++ ['"']

/-- A line end and the indentation of a level. -/
def newLine (level : Nat) : List Char :=
  '\n' :: List.replicate (2 * level) ' '

mutual

/-- A value inside a document, on the given level. -/
def write (level : Nat) : Value → List Char
  | .null => "null".toList
  | .bool b => (if b then "true" else "false").toList
  | .int n => (toString n).toList
  | .real x => (spellReal "Infinity" "NaN" x).toList
  | .text s => writeString s
  | .array [] => ['[', ']']
  | .array (v :: vs) =>
    '[' :: newLine (level + 1) ++ write (level + 1) v ++ writeItems (level + 1) vs ++
      newLine level ++ [']']
  | .object [] => ['\x7b', '\x7d']
  | .object ((key, v) :: ms) =>
    '\x7b' :: newLine (level + 1) ++ writeString key ++ ':' :: ' ' :: write (level + 1) v ++
      writeMembers (level + 1) ms ++ newLine level ++ ['\x7d']

/-- The items of an array after the first. -/
def writeItems (level : Nat) : List Value → List Char
  | [] => []
  | v :: vs => ',' :: newLine level ++ write level v ++ writeItems level vs

/-- The members of an object after the first. -/
def writeMembers (level : Nat) : List (List Symbol × Value) → List Char
  | [] => []
  | (key, v) :: ms =>
    ',' :: newLine level ++ writeString key ++ ':' :: ' ' :: write level v ++
      writeMembers level ms

end

def render (v : Value) : String :=
  String.ofList (write 0 v)

end SuiteLint.Json
