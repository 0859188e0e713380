import SuiteLint.Files.Lookup
import SuiteLint.Room

/-!
# Paths without links

The canonical spelling of a path is absolute and names no link. Links are replaced one by one, and
what does not exist stays as it is spelled. A link that is met again while its own target is still
being worked out leads around in a circle. It stays too, with all that comes after it. Only links
that lie too deep inside each other keep a path from having such a spelling.
-/

namespace SuiteLint.Files

/-- A way that has been walked, from the top or from the current directory, without links on it.
Its names stand last one first. -/
structure Way where
  rooted : Bool
  names : List String
deriving DecidableEq

namespace Way

def here : Way := ⟨false, []⟩

def text (w : Way) : String :=
  (if w.rooted then "/" else "") ++ Path.unsplit w.names.reverse

/-- The bytes of the spelling of a way with one more name. -/
def bytesWith (w : Way) (name : String) : Nat :=
  w.names.foldl (fun bytes n => bytes + n.utf8ByteSize + 1)
    ((if w.rooted then 1 else 0) + name.utf8ByteSize)

def push (w : Way) (name : String) : Way :=
  { w with names := Path.push w.rooted w.names name }

/-- Where a path starts that is read at the end of a way. -/
def start (w : Way) (path : String) : Way :=
  if Path.isAbsolute path then ⟨true, []⟩ else w

end Way

/-- The target of the link that has the given name at the end of a way, if there is one. -/
def FileSystem.linkTarget? (fs : FileSystem) (w : Way) (name : String) : Option String :=
  if maxPathBytes < w.bytesWith name then none
  else
    match fs.start? w.rooted with
    | none => none
    | some t =>
      match followLinks maxLinks t w.names.reverse with
      | .ok (.folder t) =>
        match t.here.get? name with
        | some (.link target) => some target
        | _ => none
      | _ => none

/-- The links that have been met, latest first, each with the way that it stands for or `none` as
long as that is being worked out. -/
abbrev Met := List (Way × Option Way)

/-- Why a path has no way without links: a circle leaves a spelling standing, or links lie too
deep inside each other. -/
inductive DeadEnd where
  | circle (left : String)
  | tooDeep
deriving DecidableEq

/-- The dead end of a path that goes on with more names. -/
def DeadEnd.extend (names : List String) : DeadEnd → DeadEnd
  | .circle left => .circle (Path.join left (Path.unsplit names))
  | .tooDeep => .tooDeep

/-- Walks names to the end of a way. `onLink` works out the way that a link stands for. -/
def chase (fs : FileSystem) (onLink : Met → Way → String → Except DeadEnd (Way × Met))
    (met : Met) (w : Way) : List String → Except DeadEnd (Way × Met)
  | [] => .ok (w, met)
  | name :: names =>
    let next := w.push name
    if name = "" ∨ name = "." ∨ name = ".." then chase fs onLink met next names
    else
      match fs.linkTarget? w name with
      | none => chase fs onLink met next names
      | some target =>
        match met.lookup next with
        | some (some known) => chase fs onLink met known names
        | some none => .error (.extend names (.circle next.text))
        | none =>
          match onLink ((next, none) :: met) w target with
          | .ok (found, met) => chase fs onLink ((next, some found) :: met) found names
          | .error deadEnd => .error (deadEnd.extend names)

/-- Walks a path to the end of a way, with fewer than the given number of links inside each
other. -/
def chaseLinks (fs : FileSystem) :
    (links : Nat) → Met → Way → String → Except DeadEnd (Way × Met)
  | 0, _, _, _ => .error .tooDeep
  | links + 1, met, w, path =>
    chase fs (chaseLinks fs links) met (w.start path) (Path.split path)

/-- The way that a path stands for, if it has no dead end. -/
def FileSystem.way? [Room] (fs : FileSystem) (path : String) : Option Way :=
  match chaseLinks fs (Room.links + 1) [] .here path with
  | .ok (w, _) => some w
  | .error _ => none

/-- The canonical spelling of a path, unless links lie too deep. -/
def FileSystem.realPath? [Room] (fs : FileSystem) (path : String) : Option String :=
  match chaseLinks fs (Room.links + 1) [] .here path with
  | .ok (w, _) => some (Path.absolute fs.cwdPath w.text)
  | .error (.circle left) => some (Path.absolute fs.cwdPath left)
  | .error .tooDeep => none

end SuiteLint.Files
