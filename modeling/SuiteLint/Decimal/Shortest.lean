import SuiteLint.Decimal.Binary

/-!
# The shortest decimal that reads back

A binary number is printed with the fewest decimal digits that still round to it. The decimals
that round to `mantissa * 2 ^ exponent` form an interval around it, with its ends when the
mantissa is even. For one digit, two digits and so on, the two neighbours of the value on the grid
of that many digits are tried; the first grid with a hit wins, and of two hits the nearer one.
-/

namespace SuiteLint.Decimal

/-- A positive decimal number `coefficient * 10 ^ exponent`. -/
structure Scaled where
  coefficient : Nat
  exponent : Int
deriving DecidableEq

def digitCount (n : Nat) : Nat :=
  (Nat.toDigits 10 n).length

/-- The exponent `p` with `10 ^ (p - 1) ≤ num / den < 10 ^ p`, for positive numbers. -/
def decimalExponent (num den : Nat) : Int :=
  if den ≤ num then digitCount (num / den)
  else 1 - (digitCount ((den + num - 1) / num - 1) : Int)

/-- A binary number with the interval of what rounds to it, in units of `1 / den`. -/
structure Target where
  low : Nat
  value : Nat
  high : Nat
  den : Nat
  closed : Bool

/-- The interval around `mantissa * 2 ^ exponent`. Below a power of two the numbers lie twice as
close. -/
def Target.of (mantissa : Nat) (exponent : Int) : Target :=
  let narrow := mantissa = pow2 52 ∧ minExponent < exponent
  let low := 4 * mantissa - (if narrow then 1 else 2)
  let e := exponent - 2
  let scale := if 0 ≤ e then pow2 e.toNat else 1
  let den := if 0 ≤ e then 1 else pow2 (-e).toNat
  ⟨low * scale, 4 * mantissa * scale, (4 * mantissa + 2) * scale, den, mantissa % 2 = 0⟩

/-- A decimal and a number of units of `1 / den`, brought to a common measure. -/
def Target.measure (t : Target) (d : Scaled) (units : Nat) : Nat × Nat :=
  if 0 ≤ d.exponent then (d.coefficient * pow10 d.exponent.toNat * t.den, units)
  else (d.coefficient * t.den, units * pow10 (-d.exponent).toNat)

/-- Whether a decimal rounds to the number. -/
def Target.accepts (t : Target) (d : Scaled) : Bool :=
  let (x, low) := t.measure d t.low
  let (_, high) := t.measure d t.high
  if t.closed then low ≤ x && x ≤ high else low < x && x < high

/-- The best decimal with the given number of digits that rounds to the number. -/
def Target.candidate? (t : Target) (point : Int) (digits : Nat) : Option Scaled :=
  let exponent := point - digits
  let below :=
    if 0 ≤ exponent then t.value / (t.den * pow10 exponent.toNat)
    else t.value * pow10 (-exponent).toNat / t.den
  let lower : Scaled := ⟨below, exponent⟩
  let upper : Scaled := ⟨below + 1, exponent⟩
  let (x, v) := t.measure lower t.value
  let (y, _) := t.measure upper t.value
  match t.accepts lower, t.accepts upper with
  | true, true =>
    if v - x < y - v ∨ (v - x = y - v ∧ below % 2 = 0) then some lower else some upper
  | true, false => some lower
  | false, true => some upper
  | false, false => none

/-- A decimal without trailing zeros: its digits and the place of the point, counted from before
the first digit. -/
structure Digits where
  digits : List Char
  point : Int
deriving DecidableEq

def Scaled.toDigits (d : Scaled) : Digits :=
  let all := Nat.toDigits 10 d.coefficient
  ⟨(all.reverse.dropWhile (· == '0')).reverse, all.length + d.exponent⟩

/-- The shortest digits of a positive binary number. Seventeen digits always suffice. -/
def shortest (mantissa : Nat) (exponent : Int) : Digits :=
  let t := Target.of mantissa exponent
  let point := decimalExponent t.value t.den
  match (List.range 17).findSome? fun k => t.candidate? point (k + 1) with
  | some d => d.toDigits
  | none => ⟨[], point⟩

end SuiteLint.Decimal
