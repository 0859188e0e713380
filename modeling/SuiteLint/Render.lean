import SuiteLint.Console
import SuiteLint.Json.Writer
import SuiteLint.Summary

/-!
# Showing the results of a run

Results are shown on the console, as a banner, one section per file and a summary, or as one JSON
document.
-/

namespace SuiteLint

namespace Render

def icon : Option Severity → String
  | some .high => "🚨"
  | some .medium => "⚠️"
  | none => "ℹ️"

def severityColor : Option Severity → Color
  | some .high => .red
  | some .medium => .yellow
  | none => .dim

def scoreColor (score : Int) : Color :=
  if score ≥ 8 then .green else if score ≥ 5 then .yellow else .red

/-- A score out of the greatest one. -/
def outOfMax (score : Int) : String :=
  toString score ++ "/" ++ toString maxScore

def banner (count : Int) : List Span :=
  [.plain ("🔍 Reviewing " ++ toString count ++ " Playwright test files...\n\n")]

def noFiles : List Span :=
  [.plain "🔍 No Playwright test files found.\n"]

def heading (path : String) : Span :=
  .plain ("## File: " ++ path ++ "\n---\n")

def failure (f : ReadFailure) : List Span :=
  [heading f.path, .painted .red ("❌ Error reading file: " ++ f.message ++ "\n"), .plain "\n"]

def issue (i : Issue) : List Span := [
  .plain ("- " ++ icon i.severity? ++ " "),
  .painted (severityColor i.severity?) ("[" ++ i.severity ++ "]"),
  .plain (" " ++ i.description ++ " (line " ++ toString i.line ++ ")\n" ++
    (if i.suggestion = "" then "" else "  💡 Suggestion: " ++ i.suggestion ++ "\n"))]

def positive (p : Positive) : Span :=
  .plain ("✅ " ++ p.description ++ " (line " ++ toString p.line ++ ")\n")

/-- A part of a section, which is left out when it is empty. -/
def part (title : String) (body : List Span) : List Span :=
  if body.isEmpty then [] else .painted .bold ("\n### " ++ title) :: .plain "\n" :: body

def report (r : Report) : List Span :=
  [heading r.path, .painted .dim ("Role: " ++ r.role.label), .plain "\n"] ++
  part "Issues Found:" (r.issues.flatMap issue) ++
  part "Positive Aspects:" (r.positives.map positive) ++
  [.plain "\n### Overall Score: ", .painted (scoreColor r.score) (outOfMax r.score),
    .plain "\n\n"]

def outcome : Outcome → List Span
  | .report r => report r
  | .failure f => failure f

/-- How many files were reviewed and how many could not be read. -/
def fileCounts (s : Summary) : String :=
  let reviewed := s.reports.length
  "Run completed. Reviewed " ++ toString reviewed ++ " file" ++
    (if reviewed = 1 then "" else "s") ++
    (if s.failures.isEmpty then "" else ", " ++ toString s.failures.length ++ " unreadable") ++
    ".\n"

/-- How many issues of each severity there are, if any file was reviewed. -/
def issueCounts (s : Summary) : String :=
  if s.reports.isEmpty then ""
  else
    "Issues: " ++
      ", ".intercalate (Severity.all.map fun severity =>
        toString (s.total severity) ++ " " ++ severity.label) ++ ".\n"

/-- The least score, if any file was reviewed. -/
def lowestScore (s : Summary) : String :=
  match s.lowestScore? with
  | none => ""
  | some score =>
    "Lowest score: " ++ outOfMax score ++ ". Check individual file scores above.\n"

def summary (s : Summary) : List Span := [
  .painted .bold "📊 Review Summary",
  .plain ("\n================\n" ++ fileCounts s ++ issueCounts s ++ lowestScore s)]

/-- The whole console output of a run. -/
def run (s : Summary) : List Span :=
  banner s.outcomes.length ++ s.outcomes.flatMap outcome ++ summary s

/-- The first label of an outcome that names no severity. -/
def unknownSeverity? (outcomes : List Outcome) : Option UnknownLabel :=
  outcomes.findSome? fun o => o.report?.bind fun r => SuiteLint.unknownSeverity? r.issues

/-- Spans that may only be shown when every severity of the outcomes is known. -/
def checked (outcomes : List Outcome) (spans : List Span) : Except UnknownLabel (List Span) :=
  match unknownSeverity? outcomes with
  | some label => .error label
  | none => .ok spans

end Render

/-! ## The JSON document -/

def Issue.toJson (i : Issue) : Json.Value := .record [
  ("rule", .string i.rule), ("severity", .string i.severity), ("description", .string i.description),
  ("line", .int i.line), ("suggestion", .string i.suggestion)]

def Positive.toJson (p : Positive) : Json.Value := .record [
  ("description", .string p.description), ("line", .int p.line)]

def Report.toJson (r : Report) : Json.Value := .record [
  ("path", .string r.path), ("role", .string r.role.label), ("score", .int r.score),
  ("counts", .record (Severity.all.map fun severity =>
    (severity.label, .int (r.count severity)))),
  ("issues", .array (r.issues.map Issue.toJson)),
  ("positives", .array (r.positives.map Positive.toJson))]

def ReadFailure.toJson (f : ReadFailure) : Json.Value := .record [
  ("path", .string f.path), ("error", .string f.message)]

def Outcome.toJson : Outcome → Json.Value
  | .report r => r.toJson
  | .failure f => f.toJson

def Summary.toJson (s : Summary) : Json.Value := .record [
  ("files", .array (s.outcomes.map Outcome.toJson)),
  ("reviewed", .int s.reports.length), ("failed", .int s.failures.length),
  ("lowest_score", match s.lowestScore? with
    | some score => .int score
    | none => .null)]

/-- The JSON document of a run. -/
def Render.json (s : Summary) : String :=
  Json.render s.toJson ++ "\n"

end SuiteLint
