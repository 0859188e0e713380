import SuiteLint.Issue
import SuiteLint.Path
import SuiteLint.Text.Search

/-!
# The layer a file belongs to

A suite has three layers: specs under `tests`, page objects, and assertion helpers under
`validators`. The layer is read off the path alone, as given and, for specs, as seen from the
current directory.
-/

namespace SuiteLint

/-- The part a file plays in a suite. -/
inductive Role where
  | testSpec
  | pageObject
  | validator
  | other
deriving DecidableEq

namespace Role

def all : List Role :=
  [.testSpec, .pageObject, .validator, .other]

def label : Role → String
  | .testSpec => "test-spec"
  | .pageObject => "page-object"
  | .validator => "validator"
  | .other => "other"

def ofLabel (label : String) : Except UnknownLabel Role :=
  match all.find? (·.label = label) with
  | some role => .ok role
  | none => .error (.role label)

/-- A spec is a `.spec.ts` file below a directory `tests`, on the path as given or on the path
seen from the current directory. -/
def isTestSpec (cwd path : String) : Bool :=
  Path.hasEnding ".spec.ts" path &&
    (Path.passesThrough "tests" path || Path.passesThrough "tests" (Path.absolute cwd path))

/-- Whether the current directory has a say in whether a path is that of a spec, if the path is
relative. -/
def dependsOnCwd (path : String) : Bool :=
  Path.hasEnding ".spec.ts" path && !Path.passesThrough "tests" path

/-- Assertion helpers live below a directory `validators`. -/
def isValidator (path : String) : Bool :=
  Path.passesThrough "validators" path

/-- A page object has `page` in its path, in any case, and is no assertion helper. The four
letters are lower case of ASCII capitals only, so lowering ASCII is enough. -/
def isPageObject (path : String) : Bool :=
  !isValidator path && Text.contains "page" (path.toList.map Char.toLower)

/-- The role of a file. Specs come first, then page objects; assertion helpers have no rules of
their own and count as other files. -/
def detect (cwd path : String) : Role :=
  if isTestSpec cwd path then .testSpec
  else if isPageObject path then .pageObject
  else .other

end Role

end SuiteLint
