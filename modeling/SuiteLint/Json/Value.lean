import SuiteLint.Decimal.Binary

/-!
# JSON values

Numbers written without a point and an exponent are integers of any size; the others are binary
numbers of double precision. A string may hold halves of surrogate pairs that stand alone, which
are no characters, so it is a list of symbols. The members of an object keep the order in which
their keys first appear, and a repeated key takes its last value.
-/

namespace SuiteLint.Json

/-- A symbol of a string: a character, or half of a surrogate pair without the other half. -/
inductive Symbol where
  | char (c : Char)
  | half (unit : Nat)
deriving DecidableEq

def Symbol.char? : Symbol → Option Char
  | .char c => some c
  | .half _ => none

def Symbol.half? : Symbol → Option Nat
  | .char _ => none
  | .half unit => some unit

def symbols (s : String) : List Symbol :=
  s.toList.map .char

/-- The text that a string is compared with paths as. The null character, which no path holds, takes
the place of a half, so a name matches the text exactly when it matches the string. -/
def plainText (s : List Symbol) : String :=
  String.ofList (s.map fun symbol => symbol.char?.getD '\x00')

/-- A JSON value. -/
inductive Value where
  | null
  | bool (b : Bool)
  | int (n : Int)
  | real (x : Decimal.Binary)
  | text (s : List Symbol)
  | array (items : List Value)
  | object (members : List (List Symbol × Value))

def Value.string (s : String) : Value :=
  .text (symbols s)

/-- An object whose keys are texts. -/
def Value.record (members : List (String × Value)) : Value :=
  .object (members.map fun m => (symbols m.1, m.2))

/-- Sets a member: in place when the key is there, else at the end. -/
def put (members : List (List Symbol × Value)) (key : List Symbol) (value : Value) :
    List (List Symbol × Value) :=
  if members.any (·.1 = key) then
    members.map fun m => if m.1 = key then (key, value) else m
  else members ++ [(key, value)]

/-- The members of an object, given as they are written. -/
def distinct (written : List (List Symbol × Value)) : List (List Symbol × Value) :=
  written.foldl (fun members m => put members m.1 m.2) []

def Value.get? (v : Value) (key : String) : Option Value :=
  match v with
  | .object members => (members.find? (·.1 = symbols key)).map (·.2)
  | _ => none

end SuiteLint.Json
