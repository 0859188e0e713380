import SuiteLint.Config
import SuiteLint.Discovery
import SuiteLint.Options.Usage
import SuiteLint.Render
import SuiteLint.Source

/-!
# A whole run

A run takes a file system, what is known about its surroundings and a command line, and gives what
is printed and the exit status: 2 for a command line that asks for the impossible, 1 when a
reviewed file scores below the threshold or the run was interrupted, 0 otherwise.
-/

namespace SuiteLint

open Files

/-- What a run is asked to do, after the settings of the project have filled in what the command
line left open. -/
structure Settings where
  path : String
  includeJs : Bool
  json : Bool
  exclude : List (Given (List Json.Symbol))
  jobs : Given Int
  failUnder : Given Int
  debug : Bool
deriving DecidableEq

/-- The command line over the settings of the project. Exclusions add up. -/
def Options.resolve (o : Options) (c : Config) : Settings where
  path := o.path
  includeJs := o.includeJs || c.includeJs
  json := o.json
  exclude := c.exclude.map .value ++ o.exclude.map (Given.map Json.symbols)
  jobs := o.jobs.getD (.value c.jobs)
  failUnder := o.failUnder.getD (.value c.failUnder)
  debug := o.debug

/-- The exclusions of settings as paths are compared with them. A blank one excludes nothing. -/
def Settings.exclusions (s : Settings) : List String :=
  (s.exclude.filterMap Given.value?).map Json.plainText

structure Surroundings where
  tty : Bool
  noColor : Bool
  projectRoot : Option String
  interrupted : Bool

def Surroundings.console (s : Surroundings) : Console :=
  ⟨s.tty, s.noColor⟩

/-- What a run leaves: its exit status and what it printed. -/
structure Ending where
  status : Nat
  stdout : String
  stderr : String
deriving DecidableEq

namespace Run

def logSource : String :=
  "playwright_review.cli"

/-- The result of a review before it is printed. -/
structure Result where
  status : Nat
  output : String
  notes : List Note

/-- Why settings cannot be followed: a number is out of range, or there is none. -/
inductive Refusal where
  | fewJobs (jobs : Int)
  | threshold (n : Int)
  | blank (cause : Abort)
deriving DecidableEq

/-- The threshold of settings that can be followed. The number of jobs is looked at first. -/
def threshold (s : Settings) : Except Refusal Int :=
  match s.jobs with
  | .blank => .error (.blank .blankJobs)
  | .value jobs =>
    if jobs < 1 then .error (.fewJobs jobs)
    else
      match s.failUnder with
      | .blank => .error (.blank .blankThreshold)
      | .value n => if Config.isThreshold n then .ok n else .error (.threshold n)

/-- What comes of settings that cannot be followed. -/
def refuse : Refusal → Except Abort Result
  | .fewJobs jobs =>
    .ok ⟨2, "", [.error ("--jobs must be at least 1, got " ++ toString jobs)]⟩
  | .threshold n =>
    .ok ⟨2, "", [.error ("--fail-under must be between 0 and 10, got " ++ toString n)]⟩
  | .blank cause => .error cause

/-- The exit status of a run that reviewed files. A threshold of 0 never fails. -/
def gate (failUnder : Int) (summary : Summary) : Nat :=
  if failUnder ≠ 0 ∧ !(summary.below failUnder).isEmpty then 1 else 0

def output (console : Console) (json : Bool) (summary : Summary) : String :=
  if json then Render.json summary else console.render (Render.run summary)

def countNote (files : List String) (path : String) : Note :=
  .log ⟨logSource, "Reviewing " ++ toString files.length ++ " files under " ++ path⟩

def reviewFound (fs : FileSystem) (console : Console) (s : Settings) (failUnder : Int)
    (files : List String) (notes : List Note) : Except Abort Result :=
  if files.isEmpty then .ok ⟨0, console.render Render.noFiles, notes⟩
  else
    match Source.reviewAll fs files with
    | .error abort => .error abort
    | .ok (outcomes, more) =>
      .ok ⟨gate failUnder ⟨outcomes⟩, output console s.json ⟨outcomes⟩,
        notes ++ countNote files s.path :: more⟩

/-- Reviews everything that the settings point at. -/
def review [Room] (fs : FileSystem) (console : Console) (s : Settings) : Except Abort Result :=
  match threshold s with
  | .error refusal => refuse refusal
  | .ok failUnder =>
    match Discovery.find fs s.path s.includeJs s.exclusions with
    | .error abort => .error abort
    | .ok (files, notes) => reviewFound fs console s failUnder files notes

/-- What is left of a command line that asks for no review. -/
def halted : Halt → Ending
  | .help => ⟨0, Usage.help, ""⟩
  | .version => ⟨0, Usage.versionLine, ""⟩
  | .usage e => ⟨2, "", Usage.complaint e⟩

/-- The result of a run that was interrupted before it reviewed anything. -/
def interruption : Result :=
  ⟨1, "\nInterrupted.\n", []⟩

/-- A run with the settings of a project at the given path. -/
def withConfig [Room] (fs : FileSystem) (around : Surroundings) (path : String)
    (options : Options) : Except Abort Ending :=
  match Config.load fs path with
  | .error abort => .error abort
  | .ok (config, notes) =>
    let result :=
      if around.interrupted then .ok interruption
      else review fs around.console (options.resolve config)
    result.map fun r => ⟨r.status, r.output,
      Note.renderAll around.console options.debug (notes ++ r.notes)⟩

/-- A whole run. The root of the project is looked for before anything else. -/
def execute [Room] (fs : FileSystem) (around : Surroundings) (argv : List String) :
    Except Abort Ending :=
  match Config.projectPath fs around.projectRoot with
  | .error abort => .error abort
  | .ok path =>
    match Options.parse argv with
    | .error halt => .ok (halted halt)
    | .ok options => withConfig fs around path options

end Run

end SuiteLint
