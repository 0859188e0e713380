import SuiteLint.Issue
import SuiteLint.Role

/-!
# Reports and scores

A file starts with ten points and loses some for each issue, but never falls below zero. The
report of a file holds its findings and its score.
-/

namespace SuiteLint

/-- The score of a file without issues. -/
def maxScore : Int := 10

/-- The least score. -/
def minScore : Int := 0

/-- The points that an issue costs. Labels that name no severity cost nothing; `checkedScore`
refuses them. -/
def Issue.penalty (issue : Issue) : Nat :=
  match issue.severity? with
  | some severity => severity.penalty
  | none => 0

/-- The points that issues cost together. -/
def totalPenalty (issues : List Issue) : Nat :=
  (issues.map Issue.penalty).foldr (· + ·) 0

def score (issues : List Issue) : Int :=
  max minScore (maxScore - totalPenalty issues)

/-- The first issue whose label names no severity. -/
def unknownSeverity? (issues : List Issue) : Option UnknownLabel :=
  (issues.find? (·.severity?.isNone)).map fun issue => .severity issue.severity

/-- The score of issues that may come from outside. -/
def checkedScore (issues : List Issue) : Except UnknownLabel Int :=
  match unknownSeverity? issues with
  | some label => .error label
  | none => .ok (score issues)

/-- The findings of one file. -/
structure Report where
  path : String
  role : Role
  issues : List Issue
  positives : List Positive
  score : Int
deriving DecidableEq

namespace Report

/-- The scored report of findings. -/
def build (path : String) (role : Role) (issues : List Issue) (positives : List Positive) :
    Report :=
  ⟨path, role, issues, positives, SuiteLint.score issues⟩

/-- The scored report of findings that may come from outside. -/
def buildChecked (path : String) (role : Role) (issues : List Issue)
    (positives : List Positive) : Except UnknownLabel Report :=
  (checkedScore issues).map fun score => ⟨path, role, issues, positives, score⟩

def count (r : Report) (severity : Severity) : Nat :=
  r.issues.countP (·.severity = severity.label)

end Report

/-- A file that could not be read. -/
structure ReadFailure where
  path : String
  message : String
deriving DecidableEq

/-- What became of one file of a run. -/
inductive Outcome where
  | report (r : Report)
  | failure (f : ReadFailure)
deriving DecidableEq

namespace Outcome

def report? : Outcome → Option Report
  | .report r => some r
  | .failure _ => none

def failure? : Outcome → Option ReadFailure
  | .report _ => none
  | .failure f => some f

def path : Outcome → String
  | .report r => r.path
  | .failure f => f.path

end Outcome

end SuiteLint
