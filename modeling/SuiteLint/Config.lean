import SuiteLint.Abort
import SuiteLint.Files.Canonical
import SuiteLint.Json.Reader
import SuiteLint.Json.Spelling
import SuiteLint.Note
import SuiteLint.Text.Utf8

/-!
# The settings of a project

A project may keep its settings in a JSON document. A missing document gives the defaults; one
that cannot be read or parsed is noted and gives the defaults too. Otherwise each member is judged
on its own: unknown keys are noted, a value of the wrong kind is warned about and replaced by its
default, and numbers out of range are brought back.
-/

namespace SuiteLint

open Files

/-- The settings of a project. -/
structure Config where
  exclude : List (List Json.Symbol)
  includeJs : Bool
  jobs : Int
  failUnder : Int
deriving DecidableEq

namespace Config

/-- The settings of a project that keeps none. -/
def default : Config :=
  ⟨[], false, 1, 0⟩

def logSource : String :=
  "playwright_review.config"

/-- The kinds of values that settings have. -/
inductive Kind where
  | list
  | bool
  | int
deriving DecidableEq

def Kind.name : Kind → String
  | .list => "list"
  | .bool => "bool"
  | .int => "int"

inductive Key where
  | exclude
  | includeJs
  | jobs
  | failUnder
deriving DecidableEq

namespace Key

def all : List Key :=
  [.exclude, .includeJs, .jobs, .failUnder]

/-- The key of a setting in the document. -/
def name : Key → String
  | .exclude => "exclude"
  | .includeJs => "include_js"
  | .jobs => "jobs"
  | .failUnder => "fail_under"

def kind : Key → Kind
  | .exclude => .list
  | .includeJs => .bool
  | .jobs => .int
  | .failUnder => .int

def description : Key → String
  | .exclude => "Path patterns to exclude from discovery"
  | .includeJs => "Also review *.spec.js / *.test.js files"
  | .jobs => "Files reviewed in parallel (1 = sequential)"
  | .failUnder => "Exit non-zero when any file scores below this (0 = never)"

def ofSymbols? (key : List Json.Symbol) : Option Key :=
  all.find? fun k => Json.symbols k.name = key

end Key

def minFailUnder : Int := 0

def maxFailUnder : Int := 10

def isThreshold (n : Int) : Bool :=
  minFailUnder ≤ n && n ≤ maxFailUnder

/-- The integer that a value can be taken for: truth values count as 1 and 0, fractions are cut
off and texts are read. -/
def integerPart (v : Json.Value) : Except Abort (Option Int) :=
  match v with
  | .bool b => .ok (some (if b then 1 else 0))
  | .int n => .ok (some n)
  | .real (.finite negative mantissa exponent) =>
    let n : Int := Decimal.Binary.wholePart mantissa exponent
    .ok (some (if negative then -n else n))
  | .real (.infinite _) => .error .infiniteNumber
  | .real .undefined => .ok none
  | .text s => .ok (Text.parseInt? (Json.plainText s))
  | .null | .array _ | .object _ => .ok none

/-- A threshold and whether it is in range. What is no integer counts as the least threshold, out
of range. -/
def coerceThreshold (v : Json.Value) : Except Abort (Int × Bool) :=
  match integerPart v with
  | .error abort => .error abort
  | .ok none => .ok (minFailUnder, false)
  | .ok (some n) => .ok (n, isThreshold n)

/-- Takes one member of the document: the settings with the member in place, and the notes about
it. -/
def take (path : String) (c : Config) (key : List Json.Symbol) (v : Json.Value) :
    Config × List Note :=
  match Key.ofSymbols? key with
  | none =>
    (c, [.log ⟨logSource, "Ignoring unknown config key " ++ Json.quoted key ++ " in " ++ path⟩])
  | some k =>
    match k, v with
    | .exclude, .array vs => ({ c with exclude := vs.map Json.spell }, [])
    | .includeJs, .bool b => ({ c with includeJs := b }, [])
    | .jobs, .int n => ({ c with jobs := n }, [])
    | .failUnder, .int n => ({ c with failUnder := n }, [])
    | _, _ =>
      (c, [.warning ("Config key '" ++ k.name ++ "' should be " ++ k.kind.name ++
        "; using default")])

/-- Takes the members of the document in order. -/
def takeAll (path : String) (c : Config) :
    List (List Json.Symbol × Json.Value) → Config × List Note
  | [] => (c, [])
  | (key, v) :: members =>
    let (c, notes) := take path c key v
    let (c, more) := takeAll path c members
    (c, notes ++ more)

/-- Brings the threshold into range. -/
def settleThreshold (c : Config) : Except Abort (Config × List Note) :=
  (coerceThreshold (.int c.failUnder)).map fun (n, valid) =>
    if valid then ({ c with failUnder := n }, [])
    else
      ({ c with failUnder := default.failUnder },
        [.warning ("Expected integer " ++ toString minFailUnder ++ "-" ++ toString maxFailUnder ++
          " for fail_under, got: " ++ toString c.failUnder ++ "; using default")])

/-- Brings the number of jobs into range. -/
def settleJobs (c : Config) : Config :=
  if c.jobs < 1 then { c with jobs := 1 } else c

/-- The settings in a document that was read from a path. -/
def ofJson (path : String) (document : Json.Value) : Except Abort (Config × List Note) :=
  match document with
  | .object members =>
    let (c, notes) := takeAll path default members
    (settleThreshold c).map fun (c, more) => (settleJobs c, notes ++ more)
  | _ => .ok (default, [.warning ("Ignoring " ++ path ++ ": expected a JSON object")])

/-- What is said about bytes that are no text. -/
def faultMessage (f : Text.Utf8.Fault) : String :=
  let place :=
    match f.bytes with
    | [b] => "byte 0x" ++ String.ofList (Text.hexPadded 2 b.toNat) ++ " in position " ++
        toString f.position
    | bytes => "bytes in position " ++ toString f.position ++ "-" ++
        toString (f.position + bytes.length - 1)
  let reason :=
    match f.reason with
    | .startByte => "invalid start byte"
    | .continuationByte => "invalid continuation byte"
    | .endOfData => "unexpected end of data"
  "'utf-8' codec can't decode " ++ place ++ ": " ++ reason

/-- The defaults, with a note on why the document could not be read. -/
def unreadable (path cause : String) : Config × List Note :=
  (default, [.log (.survived logSource ("read config " ++ path) cause)])

/-- The settings in the bytes of a document. -/
def ofBytes [Room] (path : String) (bytes : List UInt8) : Except Abort (Config × List Note) :=
  match Text.Utf8.decode bytes with
  | .error fault => .ok (unreadable path (faultMessage fault))
  | .ok text =>
    match Json.parse (Text.unifyNewlines text) with
    | .error (.digitLimit digits) => .error (.digitLimit digits)
    | .error (.tooDeep c) => .error (.tooDeep c)
    | .error e => .ok (unreadable path e.message)
    | .ok document => ofJson path document

/-- The settings in the document at a path. -/
def load [Room] (fs : FileSystem) (path : String) : Except Abort (Config × List Note) :=
  let path := Path.tidy path
  if hasNull path then .ok (default, [])
  else
    match fs.lookup path with
    | .error .nameTooLong => .error (.system .nameTooLong path)
    | .error _ => .ok (default, [])
    | .ok (.folder _) => .ok (unreadable path (Cause.isFolder.message path))
    | .ok (.file bytes) => ofBytes path bytes

/-- Where a project keeps its settings: below its root, which is the current directory unless it
is set. A root that is never reached ends the run, and so does a current directory that was
removed, even if it is not the root. -/
def projectPath [Room] (fs : FileSystem) (projectRoot : Option String) : Except Abort String :=
  if fs.gone ≠ 0 then .error .lostDirectory
  else
    match fs.realPath? (Path.tidy (projectRoot.getD "")) with
    | none => .error .deepNesting
    | some root =>
      match fs.lookup root with
      | .error .tooManyLinks => .error (.linkLoop root)
      | _ => .ok (Path.join root ".playwright-review/config.json")

end Config

end SuiteLint
