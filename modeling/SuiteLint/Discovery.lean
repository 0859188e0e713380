import SuiteLint.Files.Spelled
import SuiteLint.Note

/-!
# Finding test files

A target that is a file is reviewed whatever its name. Below a target that is a directory, files
are found by their endings. Excluded directories are not entered, and neither are links to
directories; links to anything else count as files. A directory whose path is too long to be
opened is noted and left out. Directories that lie too deep inside each other end the search.

An exclusion without a slash covers every path that has it as a name. One with a slash is a
directory: it covers that directory and everything below it. Some directories never hold sources
and are always excluded.
-/

namespace SuiteLint.Exclusion

/-- Whether an exclusion covers a path with slashes. -/
def covers (exclusion path : String) : Bool :=
  if (Path.split path).contains exclusion then true
  else if exclusion.toList.contains '/' then
    let directory := Path.normalize exclusion
    path == directory || (directory ++ "/").toList.isPrefixOf path.toList
  else false

/-- The directories that are always excluded. -/
def defaults : List String := [
  "node_modules", ".git", "__pycache__", ".venv", "venv",
  "dist", "build", ".next", ".nuxt", ".output",
  "playwright-report", "test-results", "blob-report",
  ".svn", ".hg"]

/-- Whether a directory is excluded, given its name and its path. -/
def excludesFolder (exclusions : List String) (name path : String) : Bool :=
  defaults.contains name ||
    exclusions.any fun exclusion => covers exclusion path || exclusion == name

end SuiteLint.Exclusion

namespace SuiteLint.Discovery

open Files

def logSource : String :=
  "playwright_review.discovery"

def endings (includeJs : Bool) : List String :=
  if includeJs then [".spec.ts", ".test.ts", ".spec.js", ".test.js"] else [".spec.ts", ".test.ts"]

/-- The path of an entry below the target, given the names of the directories that lead to it. It
does not matter how the target is spelled: `Path.relative` tells the directory by these names. -/
def relativePath (names : List String) (name : String) : String :=
  let directory := if names.isEmpty then "." else Path.toSlashes (Path.unsplit names)
  Path.normalize (directory ++ "/" ++ name)

/-- What is looked for below a target. -/
structure Search where
  endings : List String
  exclusions : List String

def Search.enters (s : Search) (names : List String) (name : String) : Bool :=
  !Exclusion.defaults.contains name && s.exclusions.all fun exclusion =>
    !Exclusion.covers exclusion (relativePath names name) && exclusion != name

/-- A directory is entered unless it is excluded by its name or by its path below the target. -/
theorem Search.enters_eq (s : Search) (names : List String) (name : String) :
    s.enters names name =
      !Exclusion.excludesFolder s.exclusions name (relativePath names name) := by
  simp only [Search.enters, Exclusion.excludesFolder, Bool.not_or, List.not_any_eq_all_not,
    bne]

def Search.lists (s : Search) (names : List String) (name : String) : Bool :=
  s.endings.any (Path.hasEnding · name) &&
    !s.exclusions.any fun exclusion => Exclusion.covers exclusion (relativePath names name)

def leadsToFolder (fs : FileSystem) (path : String) : Bool :=
  match fs.lookup path with
  | .ok (.folder _) => true
  | _ => false

/-- The files among the entries of a directory and below it. `directory` is the path of the
directory, and `names` lead to it from the target. -/
def Search.walk (s : Search) (fs : FileSystem) (directory : String) (names : List String) :
    Folder → List String
  | .empty => []
  | .file name _ rest =>
    (if s.lists names name then [Path.normalize (Path.join directory name)] else []) ++
      s.walk fs directory names rest
  | .link name _ rest =>
    (if !leadsToFolder fs (Path.join directory name) && s.lists names name then
      [Path.normalize (Path.join directory name)] else []) ++
      s.walk fs directory names rest
  | .folder name inside rest =>
    (if s.enters names name && fits (Path.join directory name) then
      s.walk fs (Path.join directory name) (names ++ [name]) inside else []) ++
      s.walk fs directory names rest

/-- The directories at or below a directory that would be entered but for the length of their
paths, each as the names that lead to it from the target. -/
def Search.unopened (s : Search) (directory : String) (names : List String) :
    Folder → List (List String)
  | .empty => []
  | .file _ _ rest => s.unopened directory names rest
  | .link _ _ rest => s.unopened directory names rest
  | .folder name inside rest =>
    (if !s.enters names name then []
    else if fits (Path.join directory name) then
      s.unopened (Path.join directory name) (names ++ [name]) inside
    else [names ++ [name]]) ++
      s.unopened directory names rest

/-- How many directories lie inside each other below a directory, as far as they are entered. A
link to a directory counts as one. -/
def Search.depth (s : Search) (fs : FileSystem) (directory : String) (names : List String) :
    Folder → Nat
  | .empty => 0
  | .file _ _ rest => s.depth fs directory names rest
  | .link name _ rest =>
    max (if s.enters names name && leadsToFolder fs (Path.join directory name) then 1 else 0)
      (s.depth fs directory names rest)
  | .folder name inside rest =>
    max (if !s.enters names name then 0
      else if fits (Path.join directory name) then
        s.depth fs (Path.join directory name) (names ++ [name]) inside + 1
      else 1)
      (s.depth fs directory names rest)

/-- Paths in the order of their code points. -/
def sorted (paths : List String) : List String :=
  paths.mergeSort fun a b => decide (a ≤ b)

/-- Whether names lead to a directory that is come upon before another: directories are entered in
the order of their names, each before those below it. -/
def comesFirst : List String → List String → Bool
  | [], _ => true
  | _ :: _, [] => false
  | a :: as, b :: bs => if a = b then comesFirst as bs else decide (a ≤ b)

def walkFailure (cause : Cause) (path : String) : Note :=
  .log (.survived logSource "walk directory" (cause.message path))

/-- The files below a directory, sorted, and the records of directories that could not be opened,
in the order in which they are come upon. -/
def Search.below [Room] (s : Search) (fs : FileSystem) (folder : Folder) (target : String) :
    Except Abort (List String × List Note) :=
  if Room.folders < s.depth fs target [] folder then .error .deepNesting
  else
    .ok (sorted (s.walk fs target [] folder),
      ((s.unopened target [] folder).mergeSort comesFirst).map fun names =>
        walkFailure .nameTooLong (names.foldl Path.join target))

/-- The files below a target that is taken for a directory. Where they lie is told from the top of
the tree. -/
def walk [Room] (fs : FileSystem) (s : Search) (target : String) :
    Except Abort (List String × List Note) :=
  if hasNull target then .error .nullCharacter
  else
    match fs.lookup target with
    | .ok (.folder t) =>
      if fs.locates target then s.below fs t.here target else .error .lostDirectory
    | .ok (.file _) => .ok ([], [walkFailure .notFolder target])
    | .error cause => .ok ([], [walkFailure cause target])

def findFailure (target message : String) : Note :=
  .log (.survived logSource ("discover test files under " ++ target) message)

/-- The files to review under a target, sorted. A missing target is noted and has none. -/
def find [Room] (fs : FileSystem) (target : String) (includeJs : Bool)
    (exclusions : List String) : Except Abort (List String × List Note) :=
  if hasNull target then .error .nullCharacter
  else
    match fs.lookup target with
    | .ok (.folder t) =>
      if fs.locates target then
        Search.below ⟨endings includeJs, exclusions⟩ fs t.here target
      else .ok ([], [findFailure target Abort.lostDirectory.message])
    | .ok (.file _) => .ok ([target], [])
    | .error cause => .ok ([], [findFailure target (cause.message target)])

/-- The files to review under a target that a caller spells, named below the text that it is taken
for. Nothing lies under a target whose bytes are no text. -/
def findSpelled [Room] (fs : FileSystem) (target : List Json.Symbol) (includeJs : Bool)
    (exclusions : List String) : Except Abort (List String) :=
  match handOver target with
  | .error abort => .error abort
  | .ok none => .ok []
  | .ok (some text) => (find fs text includeJs exclusions).map Prod.fst

end SuiteLint.Discovery
