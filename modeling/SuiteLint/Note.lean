import SuiteLint.Console

/-!
# Notes for standard error

Problems that a run survives are noted on standard error. Warnings and errors are always shown;
log records only when the run is asked for them.
-/

namespace SuiteLint

/-- A log record: the part of the program it comes from and its message. -/
structure LogRecord where
  source : String
  message : String
deriving DecidableEq

/-- A log record as one line of text. All records are of the lowest level. -/
def LogRecord.line (r : LogRecord) : String :=
  "DEBUG " ++ r.source ++ ": " ++ r.message

/-- The record of a failure after which the run goes on. -/
def LogRecord.survived (source action cause : String) : LogRecord :=
  ⟨source, "Continuing after failure to " ++ action ++ ": " ++ cause⟩

/-- Something to note. -/
inductive Note where
  | error (message : String)
  | warning (message : String)
  | log (record : LogRecord)
deriving DecidableEq

namespace Note

def record? : Note → Option LogRecord
  | .log r => some r
  | _ => none

def spans (debug : Bool) : Note → List Span
  | .error message => [.painted .red ("  Error: " ++ message), .plain "\n"]
  | .warning message => [.painted .yellow ("  WARNING: " ++ message), .plain "\n"]
  | .log r => if debug then [.plain (r.line ++ "\n")] else []

def records (notes : List Note) : List LogRecord :=
  notes.filterMap record?

/-- What standard error shows of notes. -/
def renderAll (console : Console) (debug : Bool) (notes : List Note) : String :=
  console.render (notes.flatMap (spans debug))

end Note

end SuiteLint
