import SuiteLint.Text.Quoted

/-!
# Issues and good signs

A review collects issues, which cost points, and good signs, which do not. An issue carries its
severity as a label: reports may come from outside with labels that name no severity, and those
must still be counted, printed and refused where they belong. A label that names nothing is refused
with a message that cites it.
-/

namespace SuiteLint

/-- A label that names no role, or no severity. -/
inductive UnknownLabel where
  | role (label : String)
  | severity (label : String)
deriving DecidableEq

def UnknownLabel.message : UnknownLabel → String
  | .role label => Text.quoted label ++ " is not a valid Role"
  | .severity label => Text.quoted label ++ " is not a valid Severity"

/-- How much an issue weighs. -/
inductive Severity where
  | high
  | medium
deriving DecidableEq

namespace Severity

/-- All severities, the heavier one first. -/
def all : List Severity :=
  [.high, .medium]

def label : Severity → String
  | .high => "HIGH"
  | .medium => "MEDIUM"

/-- The points that one issue takes off the score. -/
def penalty : Severity → Nat
  | .high => 3
  | .medium => 1

def ofLabel? (label : String) : Option Severity :=
  all.find? (·.label = label)

end Severity

/-- One violation of a rule. Line 0 stands for the whole file. -/
structure Issue where
  rule : String
  severity : String
  description : String
  line : Int
  suggestion : String
deriving DecidableEq

/-- One good sign. Line 0 stands for the whole file. -/
structure Positive where
  description : String
  line : Int
deriving DecidableEq

def Issue.severity? (issue : Issue) : Option Severity :=
  Severity.ofLabel? issue.severity

end SuiteLint
