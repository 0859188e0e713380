import SuiteLint.Files.Change
import SuiteLint.Run

/-!
# The program

The program takes a picture of the files that a command line is about, hands it to `Run.execute`
and prints what that says. Only the target and the settings of the project are in the picture;
files that are not reviewed are in it without their bytes, and excluded directories without their
entries.
-/

namespace SuiteLint.Main

open Files

/-- The target of a link that leads nowhere: no file has this name. -/
def nowhere : String :=
  "\x00"

/-- The bytes of a file, if it can be read. -/
def bytesOf? (path : String) : IO (Option (List UInt8)) := do
  try
    return some (← IO.FS.readBinFile path).toList
  catch _ =>
    return none

/-- Whether a file of the given name may be reviewed. -/
def isTestFile (name : String) : Bool :=
  (Discovery.endings true).any (Path.hasEnding · name)

/-- The entries of a directory. Links to directories are kept as links, which are never entered;
other links are kept as the files they lead to. -/
partial def picture (directory : String) : IO Folder := do
  let here ← IO.currentDir
  let mut folder := Folder.empty
  for entry in ← (here / directory).readDir do
    let name := entry.fileName
    let path := Path.join directory name
    let linked := (← entry.path.symlinkMetadata).type == .symlink
    if ← entry.path.isDir then
      if linked then
        folder := folder.cons name (.link "/")
      else if Exclusion.defaults.contains name then
        folder := folder.cons name (.folder .empty)
      else
        folder := folder.cons name (.folder (← picture path))
    else if isTestFile name then
      match ← bytesOf? path with
      | some bytes => folder := folder.cons name (.file bytes)
      | none => folder := folder.cons name (.link nowhere)
    else
      folder := folder.cons name (.file [])
  return folder

/-- The file system with the picture of a path in it, if the path leads anywhere. -/
def withPath (fs : FileSystem) (path : String) : IO FileSystem := do
  let here ← IO.currentDir
  if ← (here / path).isDir then
    return fs.graft path (.folder (← picture path))
  match ← bytesOf? path with
  | some bytes => return fs.graft path (.file bytes)
  | none => return fs

/-- The file system without files, seen from the current directory. -/
def surface : IO FileSystem := do
  let cwd := (← IO.currentDir).toString
  let fs : FileSystem := { top := .empty, cwd := Path.steps cwd }
  return fs.makeFolders cwd

/-- The root of the project, without links if it exists. -/
def projectRoot : IO String := do
  let root := Path.orHere ((← IO.getEnv "PLAYWRIGHT_REVIEW_ROOT").getD "")
  try
    return (← IO.FS.realPath root).toString
  catch _ =>
    return root

/-- Prints what a run leaves, and gives its exit status. -/
def report (ending : Except Abort Ending) : IO UInt32 := do
  match ending with
  | .ok e =>
    IO.print e.stdout
    IO.eprint e.stderr
    return e.status.toUInt32
  | .error abort =>
    IO.eprintln abort.message
    return 1

end SuiteLint.Main

open SuiteLint in
/-- Reviews what the command line asks for. -/
def main (args : List String) : IO UInt32 := do
  let root ← Main.projectRoot
  let around : Surroundings :=
    ⟨← (← IO.getStdout).isTty, (← IO.getEnv "NO_COLOR").isSome, some root, false⟩
  let mut fs ← Main.surface
  if let .ok options := Options.parse args then
    fs ← Main.withPath fs options.path
    if let .ok config := Config.projectPath fs around.projectRoot then
      if let some bytes ← Main.bytesOf? config then
        fs := fs.graft config (.file bytes)
  Main.report (Run.execute fs around args)
