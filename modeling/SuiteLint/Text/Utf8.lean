/-!
# Reading text

Text is read from bytes in UTF-8, and each of its line ends, whether `\n`, `\r\n` or a lone `\r`, is
turned into `\n`. Physical lines are what stands between the `\n` of a text, so a text has one more
line than line ends.

Bytes are read one at a time. Between characters the reader is idle; inside one it remembers the
bytes it has seen, the bits they contribute, how many bytes are still to come and the interval
from which the next one must be taken. The interval after the lead byte is narrower for the lead
bytes of overlong forms, surrogates and values beyond the last code point, so that no ill-formed
sequence is ever completed.

Reading gives a list of items: characters, and maximal ill-formed stretches with the reason why
they ended. Tolerant reading replaces each stretch by U+FFFD; strict reading stops at the first.
-/

namespace SuiteLint.Text.Utf8

/-- Why a stretch of bytes is no character. -/
inductive Reason where
  | startByte
  | continuationByte
  | endOfData
deriving DecidableEq

/-- A stretch of bytes that is no character: its bytes, first one first, its position in the
input and the reason. -/
structure Fault where
  position : Nat
  bytes : List UInt8
  reason : Reason
deriving DecidableEq

/-- What a byte sequence is made of. -/
inductive Item where
  | scalar (c : Char)
  | fault (f : Fault)
deriving DecidableEq

/-- A character of which some bytes are still to come. -/
structure Pending where
  /-- Bytes read so far, last one first. -/
  bytes : List UInt8
  /-- The value of the bits read so far. -/
  bits : Nat
  /-- How many bytes are to come after the next one. -/
  further : Nat
  /-- The least and the greatest byte that may come next. -/
  lo : UInt8
  hi : UInt8

/-- How a character starts: complete in one byte, the first of several, or not at all. -/
inductive Lead where
  | single (c : Char)
  | several (p : Pending)
  | none

/-- The role of a byte at the start of a character. -/
def lead (b : UInt8) : Lead :=
  let n := b.toNat
  if n < 0x80 then .single (Char.ofNat n)
  else if n < 0xC2 then .none
  else if n < 0xE0 then .several ⟨[b], n - 0xC0, 0, 0x80, 0xBF⟩
  else if n = 0xE0 then .several ⟨[b], 0, 1, 0xA0, 0xBF⟩
  else if n = 0xED then .several ⟨[b], 0xD, 1, 0x80, 0x9F⟩
  else if n < 0xF0 then .several ⟨[b], n - 0xE0, 1, 0x80, 0xBF⟩
  else if n = 0xF0 then .several ⟨[b], 0, 2, 0x90, 0xBF⟩
  else if n < 0xF4 then .several ⟨[b], n - 0xF0, 2, 0x80, 0xBF⟩
  else if n = 0xF4 then .several ⟨[b], 4, 2, 0x80, 0x8F⟩
  else .none

/-- The reader between two bytes: the number of bytes read, the items found, last one first, and
the character it is inside of, if any. -/
structure Reader where
  position : Nat
  found : List Item
  pending : Option Pending

/-- The ill-formed stretch that a broken-off character leaves behind. -/
def Pending.fault (p : Pending) (position : Nat) (reason : Reason) : Item :=
  .fault ⟨position - p.bytes.length, p.bytes.reverse, reason⟩

def Reader.start (position : Nat) (found : List Item) (b : UInt8) : Reader :=
  match lead b with
  | .single c => ⟨position + 1, .scalar c :: found, none⟩
  | .several p => ⟨position + 1, found, some p⟩
  | .none => ⟨position + 1, .fault ⟨position, [b], .startByte⟩ :: found, none⟩

/-- Reads one byte. A byte that cannot continue the pending character ends it as ill-formed and
starts the next one. -/
def Reader.step (r : Reader) (b : UInt8) : Reader :=
  match r.pending with
  | none => Reader.start r.position r.found b
  | some p =>
    if p.lo ≤ b ∧ b ≤ p.hi then
      let bits := p.bits * 64 + (b.toNat - 0x80)
      match p.further with
      | 0 => ⟨r.position + 1, .scalar (Char.ofNat bits) :: r.found, none⟩
      | k + 1 => ⟨r.position + 1, r.found, some ⟨b :: p.bytes, bits, k, 0x80, 0xBF⟩⟩
    else
      Reader.start r.position (p.fault r.position .continuationByte :: r.found) b

def Reader.finish (r : Reader) : List Item :=
  match r.pending with
  | none => r.found.reverse
  | some p => (p.fault r.position .endOfData :: r.found).reverse

/-- The characters and ill-formed stretches of a byte sequence. -/
def items (bytes : List UInt8) : List Item :=
  (bytes.foldl Reader.step ⟨0, [], none⟩).finish

/-- The character that stands for an item in tolerant reading. -/
def Item.toChar : Item → Char
  | .scalar c => c
  | .fault _ => '\uFFFD'

/-- Tolerant reading: each ill-formed stretch becomes one replacement character. -/
def decodeLossy (bytes : List UInt8) : List Char :=
  (items bytes).map Item.toChar

def Item.fault? : Item → Option Fault
  | .scalar _ => none
  | .fault f => some f

/-- Strict reading: the text, or the first ill-formed stretch. -/
def decode (bytes : List UInt8) : Except Fault (List Char) :=
  let found := items bytes
  match found.findSome? Item.fault? with
  | some f => .error f
  | none => .ok (found.map Item.toChar)

end SuiteLint.Text.Utf8

namespace SuiteLint.Text

/-! ## Line ends -/

/-- What has been written so far, last character first, and whether a `\r` was read last. -/
structure NewlineState where
  written : List Char
  afterReturn : Bool

/-- Reads one character: a `\r` ends a line at once, and a `\n` right after it adds nothing. -/
def NewlineState.step (st : NewlineState) (c : Char) : NewlineState :=
  if c = '\r' then ⟨'\n' :: st.written, true⟩
  else if c = '\n' ∧ st.afterReturn then ⟨st.written, false⟩
  else ⟨c :: st.written, false⟩

/-- A text with every line end written as `\n`. -/
def unifyNewlines (s : List Char) : List Char :=
  (s.foldl NewlineState.step ⟨[], false⟩).written.reverse

/-- The physical lines of a text. -/
def lines (s : List Char) : List (List Char) :=
  s.splitOn '\n'

end SuiteLint.Text
