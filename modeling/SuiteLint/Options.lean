import SuiteLint.Options.Argument
import SuiteLint.Text.Numeral
import SuiteLint.Text.Quoted

/-!
# Command-line options

Arguments are taken from left to right: a switch that needs a value takes the next word or the
text after its equals sign, the first word that is left is the path to review, and everything else
is reported as unrecognized once nothing worse has been found. A separator after the equals sign
leaves the value blank.
-/

namespace SuiteLint

/-- What a switch was given: a value, or a blank in place of one. -/
inductive Given (α : Type) where
  | value (a : α)
  | blank
deriving DecidableEq

def Given.value? {α : Type} : Given α → Option α
  | .value a => some a
  | .blank => none

def Given.map {α β : Type} (f : α → β) : Given α → Given β
  | .value a => .value (f a)
  | .blank => .blank

/-- What the command line asks for. A switch that was not given leaves its option unset. -/
structure Options where
  path : String
  includeJs : Bool
  json : Bool
  exclude : List (Given String)
  jobs : Option (Given Int)
  failUnder : Option (Given Int)
  debug : Bool
deriving DecidableEq

/-- Nothing asked for: the current directory is reviewed. -/
def Options.unset : Options :=
  ⟨".", false, false, [], none, none, false⟩

/-- What is wrong with a command line. -/
inductive UsageError where
  | missingValue (s : Setting)
  | notAnInteger (s : Setting) (value : String)
  | uselessValue (s : Switch) (value : String)
  | unrecognized (arguments : List String)
deriving DecidableEq

def UsageError.message : UsageError → String
  | .missingValue s => "argument " ++ (Switch.setting s).display ++ ": expected one argument"
  | .notAnInteger s value =>
    "argument " ++ (Switch.setting s).display ++ ": invalid int value: " ++ Text.quoted value
  | .uselessValue s value =>
    "argument " ++ s.display ++ ": ignored explicit argument " ++ Text.quoted value
  | .unrecognized arguments => "unrecognized arguments: " ++ " ".intercalate arguments

/-- Why there is nothing to run: help or the version was asked for, or the command line is
wrong. -/
inductive Halt where
  | help
  | version
  | usage (e : UsageError)
deriving DecidableEq

namespace Options

/-- The command line as far as it has been taken. -/
structure Progress where
  options : Options
  pathTaken : Bool
  extras : List String

def Progress.leave (p : Progress) (text : String) : Progress :=
  { p with extras := p.extras ++ [text] }

/-- Takes a switch that stands alone. -/
def Progress.flag (p : Progress) : Flag → Except Halt Progress
  | .help => .error .help
  | .version => .error .version
  | .all => .ok { p with options := { p.options with includeJs := true } }
  | .json => .ok { p with options := { p.options with json := true } }
  | .debug => .ok { p with options := { p.options with debug := true } }

/-- What a switch is given by a text. A text that is the separator itself leaves a blank. -/
def given (value : String) : Given String :=
  if value = "--" then .blank else .value value

/-- What a switch for an integer is given. -/
def integer (s : Setting) : Given String → Except Halt (Given Int)
  | .blank => .ok .blank
  | .value value =>
    match Text.parseInt? value with
    | some n => .ok (.value n)
    | none => .error (.usage (.notAnInteger s value))

/-- Takes a switch with what it was given. -/
def Progress.assign (p : Progress) (s : Setting) (value : Given String) :
    Except Halt Progress :=
  match s with
  | .exclude =>
    .ok { p with options := { p.options with exclude := p.options.exclude ++ [value] } }
  | .jobs =>
    (integer s value).map fun n => { p with options := { p.options with jobs := some n } }
  | .failUnder =>
    (integer s value).map fun n => { p with options := { p.options with failUnder := some n } }

/-- What text after a one-letter switch comes to. It is read as more one-letter switches, of
which there is only the one for help. -/
def clusterHalt (s : Switch) : List Char → Halt
  | [] => .usage (.uselessValue s "")
  | ['h'] => .help
  | c :: rest =>
    if c = 'h' then clusterHalt s rest else .usage (.uselessValue s (String.ofList (c :: rest)))

def Progress.takePath (p : Progress) (text : String) : Progress :=
  { p with options := { p.options with path := text }, pathTaken := true }

/-- Takes the arguments from left to right. A separator right after the path belongs to it. -/
def take (p : Progress) : List Argument → Except Halt Progress
  | [] => .ok p
  | .word text :: rest =>
    if p.pathTaken then take (p.leave text) rest
    else
      match rest with
      | .separator :: rest => take (p.takePath text) rest
      | rest => take (p.takePath text) rest
  | .separator :: rest => take (if p.pathTaken then p.leave "--" else p) rest
  | .unknown text :: rest => take (p.leave text) rest
  | .cluster s more :: _ => .error (clusterHalt s more.toList)
  | .assigned (.flag f) value :: _ => .error (.usage (.uselessValue (.flag f) value))
  | .assigned (.setting s) value :: rest =>
    match p.assign s (given value) with
    | .ok p => take p rest
    | .error halt => .error halt
  | .switch (.flag f) :: rest =>
    match p.flag f with
    | .ok p => take p rest
    | .error halt => .error halt
  | .switch (.setting s) :: rest =>
    match rest with
    | .word value :: rest =>
      match p.assign s (given value) with
      | .ok p => take p rest
      | .error halt => .error halt
    | _ => .error (.usage (.missingValue s))

/-- The options of a command line. -/
def parse (argv : List String) : Except Halt Options :=
  match take ⟨unset, false, []⟩ (Argument.classifyAll argv) with
  | .error halt => .error halt
  | .ok p =>
    if p.extras.isEmpty then .ok p.options else .error (.usage (.unrecognized p.extras))

end Options

end SuiteLint
