import SuiteLint.Json.Value
import SuiteLint.Text.Quoted

/-!
# Reading strings, numbers and names

A reader takes the text from where it stands and gives a value and the text that is left. When it
stops, it says what it missed and what text was left there, so that a position is a difference of
lengths. Besides the standard grammar the names `NaN`, `Infinity` and `-Infinity` are read as
numbers.
-/

namespace SuiteLint.Json

/-- What a reader misses. -/
inductive Complaint where
  | value
  | propertyName
  | colon
  | comma
  | unterminated
  | controlCharacter
  | badEscape
  | badUnicodeEscape
  | extraData
  | byteOrderMark
deriving DecidableEq

def Complaint.text : Complaint → String
  | .value => "Expecting value"
  | .propertyName => "Expecting property name enclosed in double quotes"
  | .colon => "Expecting ':' delimiter"
  | .comma => "Expecting ',' delimiter"
  | .unterminated => "Unterminated string starting at"
  | .controlCharacter => "Invalid control character at"
  | .badEscape => "Invalid \\escape"
  | .badUnicodeEscape => "Invalid \\uXXXX escape"
  | .extraData => "Extra data"
  | .byteOrderMark => "Unexpected UTF-8 BOM (decode using utf-8-sig)"

/-- The values that hold other values. -/
inductive Container where
  | array
  | object
deriving DecidableEq

/-- Why a reader stops: the text is malformed where `rest` is left, an integer has too many
digits, or a container lies too deep in others. -/
inductive Stop where
  | malformed (complaint : Complaint) (rest : List Char)
  | digitLimit (digits : Nat)
  | tooDeep (c : Container)

/-- A value with the text that is left after it. -/
abbrev Read (α : Type) := Except Stop (α × List Char)

/-- The four layout characters of JSON. -/
def isLayout (c : Char) : Bool :=
  c == ' ' || c == '\t' || c == '\n' || c == '\r'

def skipLayout (s : List Char) : List Char :=
  s.dropWhile isLayout

/-! ## Strings -/

/-- The number that four hexadecimal digits stand for. -/
def hexQuad? (a b c d : Char) : Option Nat := do
  let a ← Text.hexValue? a
  let b ← Text.hexValue? b
  let c ← Text.hexValue? c
  let d ← Text.hexValue? d
  return ((a * 16 + b) * 16 + c) * 16 + d

/-- Whether a code unit is the first half of a pair. -/
def isHighSurrogate (n : Nat) : Bool :=
  0xD800 ≤ n && n ≤ 0xDBFF

/-- Whether a code unit is the second half of a pair. -/
def isLowSurrogate (n : Nat) : Bool :=
  0xDC00 ≤ n && n ≤ 0xDFFF

/-- The symbol of a code unit that is not read together with another. -/
def unitSymbol (n : Nat) : Symbol :=
  if isHighSurrogate n || isLowSurrogate n then .half n else .char (Char.ofNat n)

/-- The second half of a pair, written as an escape with more text after it. -/
def lowHalf? : List Char → Option (Nat × List Char)
  | '\\' :: 'u' :: a :: b :: c :: d :: e :: rest =>
    match hexQuad? a b c d with
    | some n => if isLowSurrogate n then some (n, e :: rest) else none
    | none => none
  | _ => none

/-- Reads a numbered escape, with `rest` standing after its `u`. Text must follow the digits. -/
def unicodeEscape (rest : List Char) : Read Symbol :=
  match rest with
  | a :: b :: c :: d :: e :: left =>
    match hexQuad? a b c d with
    | none => .error (.malformed .badUnicodeEscape ('u' :: rest))
    | some n =>
      if isHighSurrogate n then
        match lowHalf? (e :: left) with
        | some (low, left) =>
          .ok (.char (Char.ofNat (0x10000 + (n - 0xD800) * 0x400 + (low - 0xDC00))), left)
        | none => .ok (unitSymbol n, e :: left)
      else .ok (unitSymbol n, e :: left)
  | _ => .error (.malformed .badUnicodeEscape ('u' :: rest))

/-- The character of a one-letter escape. -/
def simpleEscape? (c : Char) : Option Char :=
  if c = '"' ∨ c = '\\' ∨ c = '/' then some c
  else if c = 'b' then some '\x08'
  else if c = 'f' then some '\x0C'
  else if c = 'n' then some '\n'
  else if c = 'r' then some '\r'
  else if c = 't' then some '\t'
  else none

/-- Reads one symbol of a string, or its closing quote, which is `none`. `opening` is the text
from the opening quote on. -/
def stringUnit (opening : List Char) (s : List Char) : Read (Option Symbol) :=
  match s with
  | [] => .error (.malformed .unterminated opening)
  | c :: rest =>
    if c = '"' then .ok (none, rest)
    else if c = '\\' then
      match rest with
      | [] => .error (.malformed .unterminated opening)
      | e :: left =>
        if e = 'u' then (unicodeEscape left).map fun (symbol, left) => (some symbol, left)
        else
          match simpleEscape? e with
          | some c => .ok (some (.char c), left)
          | none => .error (.malformed .badEscape s)
    else if c.toNat < 0x20 then .error (.malformed .controlCharacter s)
    else .ok (some (.char c), rest)

/-- Reads the symbols of a string up to its closing quote and puts them after `read`, which holds
what was read already, last symbol first. -/
def stringBody (opening : List Char) :
    (bound : Nat) → (read : List Symbol) → (s : List Char) → Read (List Symbol)
  | 0, _, _ => .error (.malformed .unterminated opening)
  | bound + 1, read, s =>
    match stringUnit opening s with
    | .error stop => .error stop
    | .ok (none, rest) => .ok (read.reverse, rest)
    | .ok (some symbol, rest) => stringBody opening bound (symbol :: read) rest

/-- Reads a string, with `rest` standing after its opening quote. A bound above the length of the
text is enough. -/
def string (bound : Nat) (rest : List Char) : Read (List Symbol) :=
  stringBody ('"' :: rest) bound [] rest

/-! ## Numbers -/

def digitValues (s : List Char) : List Nat :=
  s.map fun c => c.toNat - 48

/-- The digits of the whole part of a number, and the text after them: a lone zero, or digits
that start with none. -/
def wholeDigits? (s : List Char) : Option (List Char × List Char) :=
  match s with
  | [] => none
  | c :: rest =>
    if c = '0' then some (['0'], rest)
    else if c.isDigit then some (s.takeWhile Char.isDigit, s.dropWhile Char.isDigit)
    else none

/-- The digits after a point, and the text after them. A point without digits is not read. -/
def fractionDigits (s : List Char) : List Char × List Char :=
  match s with
  | '.' :: rest =>
    if (rest.takeWhile Char.isDigit).isEmpty then ([], s)
    else (rest.takeWhile Char.isDigit, rest.dropWhile Char.isDigit)
  | _ => ([], s)

def exponentSign : List Char → Bool × List Char
  | '-' :: rest => (true, rest)
  | '+' :: rest => (false, rest)
  | rest => (false, rest)

/-- The exponent of a number, and the text after it. An exponent without digits is not read. -/
def exponentPart? (s : List Char) : Option (Int × List Char) :=
  match s with
  | [] => none
  | e :: rest =>
    if e = 'e' ∨ e = 'E' then
      let (negative, rest) := exponentSign rest
      let digits := rest.takeWhile Char.isDigit
      if digits.isEmpty then none
      else
        let n : Int := Text.ofDigits (digitValues digits)
        some (if negative then -n else n, rest.dropWhile Char.isDigit)
    else none

/-- Reads a number whose sign has been read. `start` is the text from the sign on. -/
def unsignedNumber (start : List Char) (negative : Bool) (s : List Char) : Read Value :=
  match wholeDigits? s with
  | none => .error (.malformed .value start)
  | some (whole, rest) =>
    let (fraction, rest) := fractionDigits rest
    match exponentPart? rest with
    | some (exponent, rest) =>
      .ok (.real (.ofDecimal negative (digitValues (whole ++ fraction))
        (exponent - fraction.length)), rest)
    | none =>
      if fraction.isEmpty then
        if Text.maxDigits < whole.length then .error (.digitLimit whole.length)
        else
          let n : Int := Text.ofDigits (digitValues whole)
          .ok (.int (if negative then -n else n), rest)
      else
        .ok (.real (.ofDecimal negative (digitValues (whole ++ fraction))
          (-(fraction.length : Int))), rest)

def number (s : List Char) : Read Value :=
  match s with
  | '-' :: rest => unsignedNumber s true rest
  | _ => unsignedNumber s false s

/-! ## Names -/

/-- The values that are written as names. -/
def names : List (String × Value) := [
  ("null", .null), ("true", .bool true), ("false", .bool false),
  ("NaN", .real .undefined), ("Infinity", .real (.infinite false)),
  ("-Infinity", .real (.infinite true))]

/-- Reads a value that holds no other values. -/
def scalar (bound : Nat) (s : List Char) : Read Value :=
  match s with
  | '"' :: rest => (string bound rest).map fun (t, rest) => (.text t, rest)
  | _ =>
    match names.find? fun n => n.1.toList.isPrefixOf s with
    | some (name, v) => .ok (v, s.drop name.toList.length)
    | none => number s

end SuiteLint.Json
