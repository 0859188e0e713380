import SuiteLint.Files.Spelled
import SuiteLint.Note
import SuiteLint.Review
import SuiteLint.Summary
import SuiteLint.Text.Utf8

/-!
# Reviewing files

A file is read as UTF-8 with every ill-formed stretch replaced and every line end turned into
`\n`, and then reviewed like any text. A file that cannot be read becomes a failure in the place
of its report.
-/

namespace SuiteLint.Source

open Files

def logSource : String :=
  "playwright_review.review"

def decode (bytes : List UInt8) : String :=
  String.ofList (Text.unifyNewlines (Text.Utf8.decodeLossy bytes))

def read (fs : FileSystem) (path : String) : Except Abort String :=
  if hasNull path then .error .nullCharacter
  else
    let opened := Path.tidy path
    match fs.read opened with
    | .ok bytes => .ok (decode bytes)
    | .error cause => .error (.system cause opened)

def hasRole (fs : FileSystem) (path : String) : Bool :=
  fs.locates path || !Role.dependsOnCwd path

/-- The outcome of one file. A path that leads to no file gives a failure. -/
def review (fs : FileSystem) (path : String) : Except Abort (Outcome × List Note) :=
  match read fs path with
  | .ok text =>
    if hasRole fs path then .ok (.report (Review.content fs.cwdPath path text), [])
    else .error .lostDirectory
  | .error (.system cause opened) =>
    let message := cause.message opened
    .ok (.failure ⟨path, message⟩,
      [.log ⟨logSource, "Skipping unreadable file " ++ path ++ " (" ++ message ++ ")"⟩])
  | .error abort => .error abort

/-- The outcomes of files, in order. The outcome of a file does not depend on the others, so it
does not matter how many are reviewed at a time. -/
def reviewAll (fs : FileSystem) : List String → Except Abort (List Outcome × List Note)
  | [] => .ok ([], [])
  | path :: paths => do
    let (outcome, notes) ← review fs path
    let (outcomes, more) ← reviewAll fs paths
    return (outcome :: outcomes, notes ++ more)

/-- What a path that a caller spells comes to: the outcome under its text, or a failure to open it
when its bytes are no text. -/
inductive Spelled where
  | outcome (o : Outcome)
  | unopened (path : List Json.Symbol)

/-- Where a path stops to have bytes is told of the path as it is opened. -/
def reviewSpelled (fs : FileSystem) (path : List Json.Symbol) : Except Abort Spelled :=
  match encodingFault? (openedAs path) with
  | some fault => .error fault
  | none =>
    match handOver path with
    | .error abort => .error abort
    | .ok none => .ok (.unopened path)
    | .ok (some text) => (review fs text).map fun reviewed => .outcome reviewed.1

end SuiteLint.Source
