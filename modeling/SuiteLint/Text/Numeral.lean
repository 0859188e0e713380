import SuiteLint.Text.Character

/-!
# Integer numerals

An integer is written as an optional sign and decimal digits of any script, with single
underscores allowed between digits and blanks allowed around the whole. A numeral of more than
`maxDigits` digits is refused, here and in every document the program reads.
-/

namespace SuiteLint.Text

/-- The most digits an integer numeral may have. -/
def maxDigits : Nat := 4300

/-- Blanks that may surround a numeral: all but the four ASCII information separators. -/
def isNumeralMargin (c : Char) : Bool :=
  isBlank c && !(0x1C ≤ c.toNat && c.toNat ≤ 0x1F)

/-- The digit values that follow the first digit of a numeral, up to its end. -/
def laterDigits : List Char → Option (List Nat)
  | [] => some []
  | '_' :: c :: rest => do
    let d ← digitValue? c
    return d :: (← laterDigits rest)
  | c :: rest => do
    let d ← digitValue? c
    return d :: (← laterDigits rest)

def numeralDigits : List Char → Option (List Nat)
  | [] => none
  | c :: rest => do
    let d ← digitValue? c
    return d :: (← laterDigits rest)

def ofDigits (digits : List Nat) : Nat :=
  digits.foldl (fun n d => 10 * n + d) 0

/-- An unsigned numeral within the digit limit. -/
def parseNat? (s : List Char) : Option Nat := do
  let digits ← numeralDigits s
  if digits.length ≤ maxDigits then some (ofDigits digits) else none

/-- A signed numeral, blanks around it removed. -/
def parseInt? (s : String) : Option Int :=
  let body := ((s.toList.dropWhile isNumeralMargin).reverse.dropWhile isNumeralMargin).reverse
  match body with
  | '-' :: rest => (parseNat? rest).map fun n => -(n : Int)
  | '+' :: rest => (parseNat? rest).map Int.ofNat
  | rest => (parseNat? rest).map Int.ofNat

end SuiteLint.Text
