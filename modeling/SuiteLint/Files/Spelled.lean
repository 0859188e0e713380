import SuiteLint.Abort
import SuiteLint.Text.Utf8

/-!
# Paths as callers spell them

The names of files are text, and so are the paths that lead to them. A caller may spell a path with
any string, halves of surrogate pairs included. The system takes it in bytes: a character is handed
over in UTF-8, and each half from U+DC80 to U+DCFF stands for one byte. Any other half has no bytes,
and the null character would end the path, so a path with one of them cannot be handed over. Bytes
that are no text lead nowhere, since no file has such a name.
-/

namespace SuiteLint.Files

open Json (Symbol)

/-- The bytes that a symbol of a path is handed over as. -/
def symbolBytes? : Symbol → Option (List UInt8)
  | .char c => some (String.utf8EncodeChar c)
  | .half unit =>
    if 0xDC80 ≤ unit ∧ unit ≤ 0xDCFF then some [UInt8.ofNat (unit - 0xDC00)] else none

/-- Where a path stops to have bytes, with the halves that stand there side by side. -/
def encodingFault? (path : List Symbol) : Option Abort :=
  (path.findIdx? fun s => (symbolBytes? s).isNone).map fun position =>
    let halves := (path.drop position).takeWhile (·.half?.isSome)
    .unencodable position (halves.filterMap Symbol.half?)

/-- A path as it is spelled when it is opened for reading: without empty names and `.`, as
`Path.tidy` leaves a text. -/
def openedAs (path : List Symbol) : List Symbol :=
  let names := (path.splitOn (.char '/')).filter fun name => name ≠ [] ∧ name ≠ [.char '.']
  Json.symbols (Path.root (Json.plainText path)).text ++ [.char '/'].intercalate names

/-- The text that the system takes a path for. There is none when the bytes of the path are no
text. -/
def handOver (path : List Symbol) : Except Abort (Option String) :=
  match encodingFault? path with
  | some fault => .error fault
  | none =>
    if path.contains (.char '\x00') then .error .nullCharacter
    else if path.all (·.half?.isNone) then .ok (some (Json.plainText path))
    else
      match Text.Utf8.decode (path.flatMap fun s => (symbolBytes? s).getD []) with
      | .ok text => .ok (some (String.ofList text))
      | .error _ => .ok none

end SuiteLint.Files
