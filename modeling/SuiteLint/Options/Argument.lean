import SuiteLint.Text.Character

/-!
# Telling arguments apart

An argument is a switch, a switch with a value after an equals sign, a plain word, the separator
`--` after which everything is a word, or something that looks like a switch but is none. Negative
numbers and texts with a space in them are words although they start with a dash.
-/

namespace SuiteLint

/-- The switches that stand alone. -/
inductive Flag where
  | help
  | all
  | json
  | debug
  | version
deriving DecidableEq

/-- The switches that need a value. -/
inductive Setting where
  | exclude
  | jobs
  | failUnder
deriving DecidableEq

/-- The switches of the command line. -/
inductive Switch where
  | flag (f : Flag)
  | setting (s : Setting)
deriving DecidableEq

namespace Switch

def every : List Switch := [
  .flag .help, .flag .all, .flag .json, .setting .exclude, .setting .jobs, .setting .failUnder,
  .flag .debug, .flag .version]

def spellings : Switch → List String
  | .flag .help => ["-h", "--help"]
  | .flag .all => ["--all"]
  | .flag .json => ["--json"]
  | .setting .exclude => ["--exclude"]
  | .setting .jobs => ["--jobs"]
  | .setting .failUnder => ["--fail-under"]
  | .flag .debug => ["--debug"]
  | .flag .version => ["--version"]

def ofSpelling? (s : String) : Option Switch :=
  every.find? (·.spellings.contains s)

/-- How messages name a switch. -/
def display (s : Switch) : String :=
  "/".intercalate s.spellings

end Switch

/-- An argument, told apart from the others. A value may come with a switch after an equals sign,
and a one-letter switch may have more text after it. -/
inductive Argument where
  | word (text : String)
  | separator
  | switch (s : Switch)
  | assigned (s : Switch) (value : String)
  | cluster (s : Switch) (more : String)
  | unknown (text : String)
deriving DecidableEq

namespace Argument

/-- Whether a text is a negative number such as `-5` or `-.5`. -/
def isNegativeNumber (s : List Char) : Bool :=
  match s with
  | '-' :: rest =>
    let body := if rest.getLast? = some '\n' then rest.dropLast else rest
    let fraction := body.dropWhile Text.isDecimalDigit
    match fraction with
    | [] => !body.isEmpty
    | '.' :: digits => !digits.isEmpty && digits.all Text.isDecimalDigit
    | _ => false
  | _ => false

/-- The parts of a text before and after its first equals sign. -/
def splitEquals? (s : String) : Option (String × String) :=
  match s.toList.dropWhile (· != '=') with
  | [] => none
  | _ :: value => some (String.ofList (s.toList.takeWhile (· != '=')), String.ofList value)

/-- Whether a spelling is one letter after one dash. -/
def isShort (spelling : String) : Bool :=
  match spelling.toList with
  | '-' :: c :: _ => c != '-'
  | _ => false

/-- A switch with text after an equals sign. -/
def assigned? (s : String) : Option Argument := do
  let (name, value) ← splitEquals? s
  let found ← Switch.ofSpelling? name
  return if isShort name then .cluster found value else .assigned found value

/-- A one-letter switch with text right after it. -/
def clustered? (s : String) : Option Argument :=
  if isShort s then
    (Switch.ofSpelling? (String.ofList (s.toList.take 2))).map fun found =>
      .cluster found (String.ofList (s.toList.drop 2))
  else none

/-- Tells what an argument is that stands before any separator. -/
def classify (s : String) : Argument :=
  match s.toList with
  | '-' :: _ :: _ =>
    if s = "--" then .separator
    else
      match Switch.ofSpelling? s with
      | some found => .switch found
      | none =>
        match (assigned? s).or (clustered? s) with
        | some argument => argument
        | none =>
          if isNegativeNumber s.toList || s.toList.contains ' ' then .word s else .unknown s
  | _ => .word s

/-- Tells what each argument is. -/
def classifyAll : List String → List Argument
  | [] => []
  | s :: rest =>
    match classify s with
    | .separator => .separator :: rest.map .word
    | argument => argument :: classifyAll rest

end Argument

end SuiteLint
