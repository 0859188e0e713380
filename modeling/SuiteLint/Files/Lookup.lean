import SuiteLint.Path
import SuiteLint.Text.Quoted
import SuiteLint.Files.Folder

/-!
# Looking up paths

A path is looked up name by name, from the top of the tree or from the current directory. Links
are followed wherever they stand, at most `maxLinks` of them, and `..` leads to the folder that
holds the current one. A slash at the end asks for a folder. The current directory may have been
removed: then it is empty, `..` still leads out of it, and it has no path.
-/

namespace SuiteLint.Files

/-- Why a path leads nowhere. -/
inductive Cause where
  | notFound
  | notFolder
  | isFolder
  | nameTooLong
  | tooManyLinks
deriving DecidableEq

/-- The number and the words for a cause. -/
def Cause.text : Cause → String
  | .notFound => "[Errno 2] No such file or directory"
  | .notFolder => "[Errno 20] Not a directory"
  | .isFolder => "[Errno 21] Is a directory"
  | .nameTooLong => "[Errno 36] File name too long"
  | .tooManyLinks => "[Errno 40] Too many levels of symbolic links"

def Cause.message (cause : Cause) (path : String) : String :=
  cause.text ++ ": " ++ Text.quoted path

/-- A file system: a tree, and the names that lead from its top to the current directory. When
that was removed, the names lead to the nearest directory above it that was not, and `gone` counts
the removed ones below. -/
structure FileSystem where
  top : Folder
  cwd : List String
  gone : Nat := 0

/-- A folder with the folders that hold it, nearest first. `gone` counts how many of them, from
the nearest on, have been removed. -/
structure Trail where
  here : Folder
  above : List Folder
  gone : Nat := 0

/-- The folder that holds this one. Nothing lies above the top. -/
def Trail.parent (t : Trail) : Trail :=
  match t.above with
  | [] => t
  | f :: above => ⟨f, above, t.gone - 1⟩

def Trail.enter (t : Trail) (inside : Folder) : Trail :=
  { here := inside, above := t.here :: t.above }

/-- The trail through removed folders, one inside the other. They are empty. -/
def Trail.sink (t : Trail) : (gone : Nat) → Trail
  | 0 => t
  | gone + 1 => Trail.sink ⟨.empty, t.here :: t.above, t.gone + 1⟩ gone

def Trail.atTop (top : Folder) : Trail :=
  { here := top, above := [] }

def Trail.top (t : Trail) : Trail :=
  .atTop ((t.here :: t.above).getLast (by simp))

/-- What a path leads to. -/
inductive Found where
  | file (bytes : List UInt8)
  | folder (t : Trail)

/-- The most links that are followed for one path. -/
def maxLinks : Nat := 40

/-- The longest name, in bytes. -/
def maxNameBytes : Nat := 255

/-- The longest path, in bytes. -/
def maxPathBytes : Nat := 4095

/-- Whether a path is short enough to be looked up. -/
def fits (path : String) : Bool :=
  decide (path.utf8ByteSize ≤ maxPathBytes)

/-- Follows names from a folder. `onLink` goes on when a link is met, with the names that the link
adds. -/
def follow (onLink : Trail → List String → Except Cause Found) (t : Trail) :
    List String → Except Cause Found
  | [] => .ok (.folder t)
  | name :: names =>
    if name = "" ∨ name = "." then follow onLink t names
    else if name = ".." then follow onLink t.parent names
    else if t.gone ≠ 0 then .error .notFound
    else if maxNameBytes < name.utf8ByteSize then .error .nameTooLong
    else
      match t.here.get? name with
      | none => .error .notFound
      | some (.folder inside) => follow onLink (t.enter inside) names
      | some (.file bytes) => if names.isEmpty then .ok (.file bytes) else .error .notFolder
      | some (.link target) =>
        onLink (if Path.isAbsolute target then t.top else t) (Path.split target ++ names)

/-- Follows names and at most the given number of links. -/
def followLinks : (links : Nat) → Trail → List String → Except Cause Found
  | 0 => follow fun _ _ => .error .tooManyLinks
  | links + 1 => follow (followLinks links)

/-- The trail to the folder at the end of a way of names. -/
def Trail.along (t : Trail) : List String → Option Trail
  | [] => some t
  | name :: names =>
    match t.here.get? name with
    | some (.folder inside) => (t.enter inside).along names
    | _ => none

namespace FileSystem

/-- The current directory as a path, as long as it exists. -/
def cwdPath (fs : FileSystem) : String :=
  "/" ++ Path.unsplit fs.cwd

/-- Whether a path can be told from the top: a relative path cannot while the current directory
has no path itself. -/
def locates (fs : FileSystem) (path : String) : Bool :=
  Path.isAbsolute path || fs.gone == 0

/-- Where a path starts: at the top or in the current directory. -/
def start? (fs : FileSystem) (rooted : Bool) : Option Trail :=
  if rooted then some (.atTop fs.top)
  else ((Trail.atTop fs.top).along fs.cwd).map (·.sink fs.gone)

/-- The file or folder that a path leads to. -/
def lookup (fs : FileSystem) (path : String) : Except Cause Found :=
  if path = "" then .error .notFound
  else if !fits path then .error .nameTooLong
  else
    match fs.start? (Path.isAbsolute path) with
    | none => .error .notFound
    | some t => followLinks maxLinks t (Path.split path)

/-- The bytes of the file that a path leads to. -/
def read (fs : FileSystem) (path : String) : Except Cause (List UInt8) :=
  match fs.lookup path with
  | .error cause => .error cause
  | .ok (.file bytes) => .ok bytes
  | .ok (.folder _) => .error .isFolder

end FileSystem

end SuiteLint.Files
