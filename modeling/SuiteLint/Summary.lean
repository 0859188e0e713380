import SuiteLint.Report

/-!
# The summary of a run

A run leaves one outcome per file, in the order in which the files were given.
-/

namespace SuiteLint

/-- The outcomes of a run. -/
structure Summary where
  outcomes : List Outcome
deriving DecidableEq

namespace Summary

def reports (s : Summary) : List Report :=
  s.outcomes.filterMap Outcome.report?

def failures (s : Summary) : List ReadFailure :=
  s.outcomes.filterMap Outcome.failure?

def lowestScore? (s : Summary) : Option Int :=
  (s.reports.map Report.score).min?

def below (s : Summary) (threshold : Int) : List Report :=
  s.reports.filter fun r => r.score < threshold

def total (s : Summary) (severity : Severity) : Nat :=
  (s.reports.map fun r => r.count severity).foldr (· + ·) 0

end Summary

end SuiteLint
