import SuiteLint.Issue
import SuiteLint.Rule.Comment

/-!
# Rules for single lines

The catalogue of anti-patterns that are looked for on every line of every file, and of good
practices. Each rule looks at one line at a time and reports at most one issue for it.
-/

namespace SuiteLint.Rule

open Text

/-- The text of a description, which may cite a piece of the line. -/
inductive Wording where
  | fixed (text : String)
  | citing (before field after : String)
deriving DecidableEq

/-- The description with the cited text in place. -/
def Wording.fill (w : Wording) (cited : String) : String :=
  match w with
  | .fixed text => text
  | .citing before _ after => before ++ cited ++ after

/-- The description with the name of the cited text in braces. -/
def Wording.template : Wording → String
  | .fixed text => text
  | .citing before field after => before ++ "\x7b" ++ field ++ "\x7d" ++ after

/-- A rule for single lines. `find?` gives the text to cite, which is empty for fixed wordings,
or nothing when the line is clean. -/
structure LineRule where
  name : String
  severity : Severity
  find? : List Char → Option String
  wording : Wording
  suggestion : String

/-- Answers with nothing to cite. -/
def mark (flagged : Bool) : Option String :=
  if flagged then some "" else none

/-! ## Style selectors -/

def locatorCalls : List String :=
  ["page.locator(", "$("]

/-- The three kinds of quotes. -/
def isQuote (c : Char) : Bool :=
  c == '\'' || c == '"' || c == '\x60'

/-- A non-empty text between quotes at the start of a text, blanks before it aside. The closing
quote may be of another kind than the opening one. -/
def quotedText? (s : List Char) : Option (List Char) :=
  match s.dropWhile isBlank with
  | [] => none
  | c :: rest =>
    let body := rest.takeWhile (!isQuote ·)
    if isQuote c && !body.isEmpty && next isQuote (rest.dropWhile (!isQuote ·)) then some body
    else none

/-- The quoted argument of a locator call that starts at a cut. -/
def locatorArgument? (k : Cut) : Option (List Char) :=
  locatorCalls.findSome? fun call =>
    if startsWith call k.after then quotedText? (k.after.drop call.toList.length) else none

/-- Whether a selector picks elements by class, by id or by their nesting. -/
def isRawSelector (s : List Char) : Bool :=
  startsWith "." s || startsWith "#" s || contains " > " s

/-- The first quoted argument of a locator call, if it is a raw selector. -/
def badLocator? (line : List Char) : Option String :=
  if locatorCalls.any (contains · line) then
    match firstCut? locatorArgument? line with
    | some selector => if isRawSelector selector then some (String.ofList selector) else none
    | none => none
  else none

/-! ## Waiting -/

def hasFixedWait (line : List Char) : Bool :=
  contains "waitForTimeout(" line

/-- An assertion on a visibility that was asked for once. -/
def hasWeakVisibility (line : List Char) : Bool :=
  contains "expect(await " line && contains ".isVisible()" line

def awaitedActions : List String :=
  ["click", "fill", "press", "type", "hover", "focus"]

def methodCall (name : String) : String :=
  "." ++ name ++ "("

/-- The first action, in the order of the list, that a line without `await` calls. -/
def missingAwait? (line : List Char) : Option String :=
  if contains "await " line then none
  else awaitedActions.find? fun action => contains (methodCall action) line

/-! ## The type `any` -/

def startsWithAny (s : List Char) : Bool :=
  startsWith "any" s && !next isWord (s.drop 3)

/-- Whether the type `any` is used at a cut: after a colon, in angle brackets or in a cast. -/
def anyTypeAt (k : Cut) : Bool :=
  (startsWith ":" k.after && startsWithAny ((k.after.drop 1).dropWhile isBlank)) ||
  startsWith "<any>" k.after ||
  ((Needle.word "as").startsAt k && next isBlank (k.after.drop 2) &&
    startsWithAny ((k.after.drop 2).dropWhile isBlank))

def hasAnyType (line : List Char) : Bool :=
  anyCut anyTypeAt line

/-! ## XPath -/

def isUrlLine (line : List Char) : Bool :=
  contains "http" line

def hasXPathCall (line : List Char) : Bool :=
  contains "xpath(" line || contains "xpath=" line

/-- Whether a line holds two slashes that are no part of an address or a comment. -/
def hasXPathExpression (line : List Char) : Bool :=
  contains "//" line && !isUrlLine line && !looksLikeComment line

def hasXPath (line : List Char) : Bool :=
  hasXPathCall line || hasXPathExpression line

/-! ## The catalogue -/

/-- The rules for every line, in the order in which they report. -/
def lineRules : List LineRule := [
  ⟨"bad_locator", .high, badLocator?,
    .citing "Bad CSS selector: \"" "selector" "\"",
    "Use page.getByRole() or page.getByTestId() instead"⟩,
  ⟨"wait_for_timeout", .high, fun line => mark (hasFixedWait line),
    .fixed "Using waitForTimeout - makes tests flaky",
    "Use web-first assertions like expect(locator).toBeVisible()"⟩,
  ⟨"weak_visibility_assertion", .medium, fun line => mark (hasWeakVisibility line),
    .fixed "Using isVisible() in assertion",
    "Use expect(locator).toBeVisible() for web-first assertion"⟩,
  ⟨"missing_await", .high, missingAwait?,
    .citing "Missing await on " "action" " action",
    "Add await before the action"⟩,
  ⟨"any_type", .medium, fun line => mark (hasAnyType line),
    .fixed "Using any type",
    "Use proper Playwright types like Locator, Page, etc."⟩,
  ⟨"xpath", .medium, fun line => mark (hasXPath line),
    .fixed "Using XPath selector",
    "Prefer getByRole() or getByTestId() for better stability"⟩]

/-- A good practice, known by a piece of text. -/
structure Practice where
  text : String
  description : String
deriving DecidableEq

/-- The good practices, in the order in which they are noted. -/
def practices : List Practice := [
  ⟨"page.getByRole(", "Using getByRole() for accessible locators"⟩,
  ⟨"expect.soft(", "Using soft assertions for multiple checks"⟩,
  ⟨"readonly ", "Using readonly properties for locators"⟩]

def LineRule.issue? (rule : LineRule) (line : List Char) (number : Int) : Option Issue :=
  (rule.find? line).map fun cited =>
    ⟨rule.name, rule.severity.label, rule.wording.fill cited, number, rule.suggestion⟩

/-- The issues of one line. Comment lines have none. -/
def lineIssues (line : List Char) (number : Int) : List Issue :=
  if isCommentLine line then []
  else lineRules.filterMap fun rule => rule.issue? line number

/-- The good signs of one line. Comment lines have none. -/
def linePositives (line : List Char) (number : Int) : List Positive :=
  if isCommentLine line then []
  else (practices.filter fun practice => contains practice.text line).map fun practice =>
    ⟨practice.description, number⟩

end SuiteLint.Rule
