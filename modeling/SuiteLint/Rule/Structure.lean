import SuiteLint.Issue
import SuiteLint.Role
import SuiteLint.Text.Search

/-!
# Checks on whole files

Two checks look at a file as a whole and report on line 0: page objects should not assert, and
several tests that share no set-up are a good sign.
-/

namespace SuiteLint.Rule

open Text

/-- The line of findings that concern a whole file. -/
def wholeFile : Int := 0

/-- Whether an assertion, hard or soft, is called at a cut. -/
def assertsAt (k : Cut) : Bool :=
  startsWith "expect(" k.after || startsWith "expect.soft(" k.after

/-- The number of assertions called in a text. Each starts at a position of its own, so counting
positions counts calls. -/
def countAssertions (s : List Char) : Nat :=
  countCuts assertsAt s

def hasAssertion (s : List Char) : Bool :=
  anyCut assertsAt s

def testDeclaration : Needle :=
  .word "test("

def sharedSetUp : Needle :=
  .word "beforeEach("

/-- The mark of settings that tests share. -/
def sharedSettings : String :=
  "test.use"

def assertionIssue : Issue where
  rule := "page_object_assertions"
  severity := Severity.medium.label
  description := "Page Object contains assertions"
  line := wholeFile
  suggestion :=
    "Move assertions to validator functions in /validators directory. " ++
      "Keep Page Objects for locators and actions only."

/-- The good sign of tests that share nothing. -/
def independenceSign : Positive where
  description := "Tests appear to be independent (no shared state)"
  line := wholeFile

def fileIssues (path : String) (content : List Char) : List Issue :=
  if Role.isPageObject path && hasAssertion content then [assertionIssue] else []

/-- Whether a file has several tests and nothing that they share. -/
def testsAreIndependent (content : List Char) : Bool :=
  testDeclaration.countIn content > 1 && sharedSetUp.countIn content == 0 &&
    !contains sharedSettings content

def filePositives (content : List Char) : List Positive :=
  if testsAreIndependent content then [independenceSign] else []

end SuiteLint.Rule
