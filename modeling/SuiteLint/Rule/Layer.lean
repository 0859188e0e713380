import SuiteLint.Issue
import SuiteLint.Role
import SuiteLint.Rule.Comment
import SuiteLint.Rule.Line

/-!
# Rules for the layers of a suite

Specs are declarative: they hold no locators, no actions and no assertions. These belong to page
objects and validators.
-/

namespace SuiteLint.Rule

open Text

/-- A rule for the lines of specs. It reports one issue for a line on which any of its needles
occurs. -/
structure LayerRule where
  name : String
  needles : List Needle
  description : String
  suggestion : String

/-- Every layer rule weighs the same. -/
def LayerRule.severity : Severity :=
  .high

def LayerRule.applies (rule : LayerRule) (line : List Char) : Bool :=
  rule.needles.any (·.occursIn line)

/-- The ways to locate an element. -/
def locatorNeedles : List Needle := [
  .plain ".locator(", .word "locator(", .plain "$(", .plain "xpath(",
  .plain ".getByRole(", .plain ".getByText(", .plain ".getByLabel(",
  .plain ".getByPlaceholder(", .plain ".getByTestId(", .plain ".getByAltText(",
  .plain ".getByTitle("]

def actionNames : List String := [
  "click", "fill", "type", "press", "hover", "focus", "blur",
  "check", "uncheck", "selectOption", "clear", "dragAndDrop",
  "doubleClick", "rightClick", "tap", "swipe", "scroll",
  "waitFor", "waitForSelector", "waitForFunction",
  "goto", "reload", "goBack", "goForward", "screenshot", "pdf"]

def assertionNeedles : List Needle :=
  [.plain "expect(", .plain "expect.soft("]

/-- The rules for specs, in the order in which they report. -/
def layerRules : List LayerRule := [
  ⟨"locator_in_test", locatorNeedles,
    "Locator found in test file",
    "Move locators to Page Object layer in /pages directory. " ++
      "Test files should only call Page Object methods."⟩,
  ⟨"action_in_test", actionNames.map fun name => .plain (methodCall name),
    "Action found in test file",
    "Move actions to Page Object layer in /pages directory. " ++
      "Test files should only call reusable Page Object methods."⟩,
  ⟨"assertion_in_test", assertionNeedles,
    "Expect assertion found in test file",
    "Move assertions to validator functions in /validators directory. " ++
      "Test files should only call validator functions."⟩]

def LayerRule.issue (rule : LayerRule) (number : Int) : Issue :=
  ⟨rule.name, LayerRule.severity.label, rule.description, number, rule.suggestion⟩

/-- The issues of one line of a spec, seen without the blanks around it. -/
def specLineIssues (line : List Char) (number : Int) : List Issue :=
  let trimmed := trim line
  if isCommentLine trimmed then []
  else (layerRules.filter (·.applies trimmed)).map (·.issue number)

/-- The layer issues of a file. Only specs have any. -/
def layerIssues (role : Role) (lines : List (List Char)) : List Issue :=
  match role with
  | .testSpec => (lines.zipIdx 1).flatMap fun (line, number) => specLineIssues line number
  | _ => []

end SuiteLint.Rule
