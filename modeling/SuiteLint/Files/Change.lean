import SuiteLint.Files.Canonical

/-!
# Changing a file system

A change keeps the current directory where it is, also when it takes that very directory away. A
directory that is made again under the same path is another one.
-/

namespace SuiteLint.Files.FileSystem

/-- The file system seen from the end of a way. Nothing lies inside a removed directory, so a way
that does not lead out of all of them leads to one of them. -/
def enter (fs : FileSystem) (w : Way) : FileSystem :=
  let ups := (w.names.filter (· = "..")).length
  if w.rooted then { fs with cwd := w.names.reverse, gone := 0 }
  else if ups < fs.gone then { fs with gone := fs.gone - ups }
  else
    { fs with
      cwd := fs.cwd.take (fs.cwd.length - (ups - fs.gone)) ++ w.names.reverse.drop ups
      gone := 0 }

/-- The names that lead from the top to where a path leads without links, unless it ends in a
removed directory. -/
def place? [Room] (fs : FileSystem) (path : String) : Option (List String) :=
  match fs.way? path with
  | none => none
  | some w => if (fs.enter w).gone = 0 then some (fs.enter w).cwd else none

/-- The file system with an entry at the end of a way of names. -/
def put (fs : FileSystem) (names : List String) (entry : Entry) : FileSystem :=
  match names, entry with
  | [], .folder inside => { fs with top := inside }
  | names, entry => { fs with top := fs.top.insert names entry }

/-- Makes a folder at the end of a way, if there is nothing and the way ends in no removed
directory. -/
def makeFolder (fs : FileSystem) (w : Way) : FileSystem :=
  let there := fs.enter w
  if there.gone = 0 ∧ (fs.top.at? there.cwd).isNone then fs.put there.cwd (.folder .empty) else fs

/-- Walks one name further, through a link if it stands for one, and makes a folder there if there
is nothing. -/
def makeStep [Room] (fs : FileSystem) (w : Way) (name : String) : FileSystem × Way :=
  let next := w.push name
  if name = "" ∨ name = "." ∨ name = ".." then (fs, next)
  else
    let reached := if (fs.linkTarget? w name).isSome then fs.way? next.text else some next
    match reached with
    | none => (fs, next)
    | some w => (fs.makeFolder w, w)

/-- Makes all folders that a path passes and the one that it leads to. -/
def makeFolders [Room] (fs : FileSystem) (path : String) : FileSystem :=
  ((Path.split path).foldl (fun (fs, w) name => fs.makeStep w name)
    (fs, Way.here.start path)).1

/-- The file system in which a path leads to the given entry. -/
def graft [Room] (fs : FileSystem) (path : String) (entry : Entry) : FileSystem :=
  let fs := fs.makeFolders path
  match fs.place? path with
  | none => fs
  | some names => fs.put names entry

/-- The file system without the entry at the end of a way of names. When the current directory
lies there, it is gone, and so are the directories between. -/
def remove (fs : FileSystem) (names : List String) : FileSystem :=
  let fs := { fs with top := fs.top.remove names }
  if names.isPrefixOf fs.cwd then
    { fs with cwd := names.dropLast, gone := fs.gone + (fs.cwd.length - names.length + 1) }
  else fs

end SuiteLint.Files.FileSystem
