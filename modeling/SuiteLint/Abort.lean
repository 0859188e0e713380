import SuiteLint.Json.Reader
import SuiteLint.Files.Lookup

/-!
# What ends a run without an answer

Nearly every problem is noted and survived. These are not.
-/

namespace SuiteLint

/-- A problem that ends a run. -/
inductive Abort where
  /-- A path holds the null character, which no path may. -/
  | nullCharacter
  /-- A path holds halves of surrogate pairs, which have no bytes, from a position on. -/
  | unencodable (position : Nat) (halves : List Nat)
  /-- A document holds an integer with too many digits. -/
  | digitLimit (digits : Nat)
  /-- A document holds containers that lie too deep in others. -/
  | tooDeep (c : Json.Container)
  /-- The number of jobs was left blank. -/
  | blankJobs
  /-- The threshold was left blank. -/
  | blankThreshold
  /-- The links on the way to a path lead around in a circle. -/
  | linkLoop (path : String)
  /-- Links on the way to a path or directories below it lie too deep inside each other. -/
  | deepNesting
  /-- The state of a path cannot even be asked for. -/
  | system (cause : Files.Cause) (path : String)
  /-- A path from the top is asked for, but the current directory was removed. -/
  | lostDirectory
  /-- An infinite number has no integer part. -/
  | infiniteNumber
deriving DecidableEq

/-- What is said about a problem that ends a run. -/
def Abort.message : Abort → String
  | .nullCharacter => "embedded null byte"
  | .unencodable position halves =>
    let place :=
      match halves with
      | [unit] => "character '\\u" ++ String.ofList (Text.hexPadded 4 unit) ++ "' in position " ++
          toString position
      | _ => "characters in position " ++ toString position ++ "-" ++
          toString (position + halves.length - 1)
    "'utf-8' codec can't encode " ++ place ++ ": surrogates not allowed"
  | .digitLimit digits => (Json.Error.digitLimit digits).message
  | .tooDeep c => (Json.Error.tooDeep c).message
  | .blankJobs => "'<' not supported between instances of 'list' and 'int'"
  | .blankThreshold => "'<=' not supported between instances of 'int' and 'list'"
  | .linkLoop path => "Symlink loop from " ++ Text.quoted path
  | .deepNesting => "maximum recursion depth exceeded"
  | .system cause path => cause.message path
  | .lostDirectory => Files.Cause.notFound.text
  | .infiniteNumber => "cannot convert float infinity to integer"

/-- Whether a path that is text cannot be handed to the system. -/
def hasNull (path : String) : Bool :=
  path.toList.contains '\x00'

end SuiteLint
