import SuiteLint.Report
import SuiteLint.Rule.Layer
import SuiteLint.Rule.Line
import SuiteLint.Rule.Structure
import SuiteLint.Text.Utf8

/-!
# Reviewing a text

A review makes three passes over a file: the line rules over every line, the layer rules over the
lines of specs, and the checks on the whole file. Their findings stand one after the other in the
report. Lines end at `\n` only.
-/

namespace SuiteLint.Review

/-- Whether good signs on lines count: outside specs, and in specs that are page objects too. -/
def recordsPositives (isSpec isPage : Bool) : Bool :=
  !isSpec || isPage

def lineIssues (lines : List (List Char)) : List Issue :=
  (lines.zipIdx 1).flatMap fun (line, number) => Rule.lineIssues line number

def linePositives (lines : List (List Char)) : List Positive :=
  (lines.zipIdx 1).flatMap fun (line, number) => Rule.linePositives line number

/-- The report of a text that is found at a path. -/
def content (cwd path text : String) : Report :=
  let role := Role.detect cwd path
  let chars := text.toList
  let lines := Text.lines chars
  let records := recordsPositives (role == .testSpec) (Role.isPageObject path)
  Report.build path role
    (lineIssues lines ++ Rule.layerIssues role lines ++ Rule.fileIssues path chars)
    ((if records then linePositives lines else []) ++ Rule.filePositives chars)

end SuiteLint.Review
