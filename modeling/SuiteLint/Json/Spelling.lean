import SuiteLint.Decimal.Shortest
import SuiteLint.Json.Value
import SuiteLint.Text.Quoted

/-!
# Values spelled out as text

A value that stands where a pattern is expected is spelled out: a text is taken as it is, and
everything else is written as a literal, with quoted texts inside lists and maps. Numbers of
double precision have the fewest digits that read back.
-/

namespace SuiteLint.Json

open Decimal

/-- A number in decimals: positional from 0.0001 up to 10^16, with an exponent of at least two
digits outside. -/
def positional (d : Digits) : List Char :=
  let n := d.digits.length
  if -4 < d.point ∧ d.point ≤ 16 then
    if d.point ≤ 0 then
      '0' :: '.' :: List.replicate (-d.point).toNat '0' ++ d.digits
    else if d.point.toNat < n then
      d.digits.take d.point.toNat ++ '.' :: d.digits.drop d.point.toNat
    else d.digits ++ List.replicate (d.point.toNat - n) '0' ++ ['.', '0']
  else
    let exponent := d.point - 1
    let size := Nat.toDigits 10 exponent.natAbs
    let fraction := if n ≤ 1 then [] else '.' :: d.digits.drop 1
    d.digits.take 1 ++ fraction ++ 'e' :: (if exponent < 0 then '-' else '+') ::
      (List.replicate (2 - size.length) '0' ++ size)

/-- The spelling of a binary number, given the words for what is no finite number. -/
def spellReal (infinity undefined : String) : Binary → String
  | .undefined => undefined
  | .infinite negative => (if negative then "-" else "") ++ infinity
  | .finite negative mantissa exponent =>
    (if negative then "-" else "") ++
      (if mantissa = 0 then "0.0" else String.ofList (positional (shortest mantissa exponent)))

def quotedSymbol (quote : Char) : Symbol → List Char
  | .char c => Text.quotedChar quote c
  | .half unit => '\\' :: 'u' :: Text.hexPadded 4 unit

/-- A string between quotes, with escapes. -/
def quoted (s : List Symbol) : String :=
  let quote := Text.quoteFor (s.filterMap Symbol.char?)
  String.ofList (quote :: s.flatMap (quotedSymbol quote) ++ [quote])

mutual

/-- A value as a literal. -/
def literal : Value → String
  | .null => "None"
  | .bool b => if b then "True" else "False"
  | .int n => toString n
  | .real x => spellReal "inf" "nan" x
  | .text s => quoted s
  | .array vs => "[" ++ ", ".intercalate (literals vs) ++ "]"
  | .object ms => "\x7b" ++ ", ".intercalate (memberLiterals ms) ++ "\x7d"

def literals : List Value → List String
  | [] => []
  | v :: vs => literal v :: literals vs

def memberLiterals : List (List Symbol × Value) → List String
  | [] => []
  | (key, v) :: ms => (quoted key ++ ": " ++ literal v) :: memberLiterals ms

end

/-- A value as a string. -/
def spell : Value → List Symbol
  | .text s => s
  | v => symbols (literal v)

end SuiteLint.Json
