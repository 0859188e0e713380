/-!
# Paths

A path is text. It is read as its root, the slashes it starts with, and the names between its
slashes; a backslash is an ordinary character of a name until `toSlashes` is asked for. The
normal form of a path is computed on the list of its names, as on a stack: empty names and `.`
say nothing, and `..` takes back the name before it.
-/

namespace SuiteLint.Path

/-- How a path starts. Exactly two slashes are kept apart from one; three or more count as one. -/
inductive Root where
  | relative
  | single
  | double
deriving DecidableEq

def Root.text : Root → String
  | .relative => ""
  | .single => "/"
  | .double => "//"

def Root.ofChars : List Char → Root
  | '/' :: '/' :: '/' :: _ => .single
  | '/' :: '/' :: _ => .double
  | '/' :: _ => .single
  | _ => .relative

def root (p : String) : Root :=
  Root.ofChars p.toList

/-- Whether a path starts at the top of the file system. -/
def isAbsolute (p : String) : Bool :=
  root p != .relative

/-- The names between the slashes of a path, empty ones included. -/
def split (p : String) : List String :=
  (p.toList.splitOn '/').map String.ofList

/-- Names with a slash between each two. -/
def unsplit (names : List String) : String :=
  String.ofList (['/'].intercalate (names.map String.toList))

/-- A path with every backslash turned into a slash. -/
def toSlashes (p : String) : String :=
  String.ofList (p.toList.map fun c => if c = '\\' then '/' else c)

/-- A path put after a base directory; an absolute path stands alone. -/
def join (base p : String) : String :=
  if isAbsolute p then p
  else if base = "" ∨ base.toList.getLast? = some '/' then base ++ p
  else base ++ "/" ++ p

/-- The names of a path that lead somewhere: all but the empty ones and `.`. -/
def steps (p : String) : List String :=
  (split p).filter fun name => name ≠ "" ∧ name ≠ "."

/-- Puts one name on a stack of normal names, last one first. Nothing lies above a root, so `..`
is dropped there. -/
def push (rooted : Bool) (stack : List String) (name : String) : List String :=
  if name = "" ∨ name = "." then stack
  else if name = ".." then
    match stack with
    | [] => if rooted then [] else [".."]
    | top :: below => if top = ".." then ".." :: top :: below else below
  else name :: stack

/-- The normal form of a list of names. -/
def collapse (rooted : Bool) (names : List String) : List String :=
  (names.foldl (push rooted) []).reverse

/-- A text that stands for the current directory when it is empty. -/
def orHere (p : String) : String :=
  if p = "" then "." else p

/-- The shortest spelling of a path that names the same place when no name on it is a link. -/
def normalForm (p : String) : String :=
  orHere ((root p).text ++ unsplit (collapse (isAbsolute p) (split p)))

/-- The normal form of a path with slashes only. -/
def normalize (p : String) : String :=
  toSlashes (normalForm p)

/-- The normal form of a path seen from a current directory. -/
def absolute (cwd p : String) : String :=
  normalForm (join cwd p)

/-- The names of a path seen from a current directory, from the top on. -/
def namesFrom (cwd p : String) : List String :=
  (split (absolute cwd p)).filter (· ≠ "")

/-- How many names two lists start with in common. -/
def shared : List String → List String → Nat
  | a :: as, b :: bs => if a = b then shared as bs + 1 else 0
  | _, _ => 0

/-- A path as it is told from a directory: up to where the two part, and down from there. -/
def relative (cwd start p : String) : String :=
  let startNames := namesFrom cwd start
  let names := namesFrom cwd p
  let common := shared startNames names
  orHere (unsplit (List.replicate (startNames.length - common) ".." ++ names.drop common))

/-- A path without empty names and `.`, but with every `..` left standing. It is how a file is
named when it is opened. -/
def tidy (p : String) : String :=
  orHere ((root p).text ++ unsplit (steps p))

/-- Whether a directory of the given name is on the way to the last name of a path, where
backslashes separate names too. -/
def passesThrough (folder p : String) : Bool :=
  (steps (toSlashes p)).dropLast.contains folder

def hasEnding (ending p : String) : Bool :=
  ending.toList.isSuffixOf p.toList

end SuiteLint.Path
