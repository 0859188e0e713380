/-!
# File trees

A folder is the list of its entries: files with their bytes, links with the path they point to,
and folders. Entries stand one after the other, each followed by the rest of the folder, so a tree
of any depth is one inductive value. Names are text: trees with names in bytes that are no text are
not considered.
-/

namespace SuiteLint.Files

/-- The entries of a folder. -/
inductive Folder where
  | empty
  | file (name : String) (bytes : List UInt8) (rest : Folder)
  | link (name target : String) (rest : Folder)
  | folder (name : String) (inside rest : Folder)
deriving DecidableEq

/-- One entry, without its name. -/
inductive Entry where
  | file (bytes : List UInt8)
  | link (target : String)
  | folder (inside : Folder)
deriving DecidableEq

namespace Folder

def get? (name : String) : Folder → Option Entry
  | .empty => none
  | .file n bytes rest => if n = name then some (.file bytes) else rest.get? name
  | .link n target rest => if n = name then some (.link target) else rest.get? name
  | .folder n inside rest => if n = name then some (.folder inside) else rest.get? name

/-- A folder with one more entry, in front. -/
def cons (name : String) (entry : Entry) (rest : Folder) : Folder :=
  match entry with
  | .file bytes => .file name bytes rest
  | .link target => .link name target rest
  | .folder inside => .folder name inside rest

def erase (name : String) : Folder → Folder
  | .empty => .empty
  | .file n bytes rest => if n = name then rest else .file n bytes (rest.erase name)
  | .link n target rest => if n = name then rest else .link n target (rest.erase name)
  | .folder n inside rest => if n = name then rest else .folder n inside (rest.erase name)

/-- The folder with an entry under a name, in place of the one that was there. -/
def set (name : String) (entry : Entry) (f : Folder) : Folder :=
  (f.erase name).cons name entry

/-- The folder of a name, or an empty one if there is none. -/
def sub (name : String) (f : Folder) : Folder :=
  match f.get? name with
  | some (.folder inside) => inside
  | _ => .empty

/-- The tree with an entry at the end of a way of names. Folders on the way are made. -/
def insert (f : Folder) (way : List String) (entry : Entry) : Folder :=
  match way with
  | [] => f
  | [name] => f.set name entry
  | name :: way => f.set name (.folder ((f.sub name).insert way entry))

/-- The tree without the entry at the end of a way of names. -/
def remove (f : Folder) (way : List String) : Folder :=
  match way with
  | [] => f
  | [name] => f.erase name
  | name :: way =>
    match f.get? name with
    | some (.folder inside) => f.set name (.folder (inside.remove way))
    | _ => f

/-- The entry at the end of a way of names through folders only. -/
def at? (f : Folder) : List String → Option Entry
  | [] => some (.folder f)
  | [name] => f.get? name
  | name :: way =>
    match f.get? name with
    | some (.folder inside) => inside.at? way
    | _ => none

end Folder

end SuiteLint.Files
