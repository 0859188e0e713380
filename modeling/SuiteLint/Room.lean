/-!
# Room on the stack

Directories, the containers of a document and links may lie inside each other, and each level takes
room on the stack. How much of it is left depends on the calls that are under way where a search, a
reader or a chase of links starts, so it is a parameter of everything that recurses. Nothing is
assumed about it in general. A run that starts on an empty stack has at least the room that is
stated here.
-/

namespace SuiteLint

/-- How many directories, containers and links inside each other there is room for. -/
class Room where
  folders : Nat
  containers : Nat
  links : Nat

/-- A run that starts on an empty stack has room for this many directories inside each other. -/
def leastFolders : Nat := 990

/-- A run that starts on an empty stack has room for this many containers inside each other. -/
def leastContainers : Nat := 989

/-- The room of a run that starts on an empty stack. -/
class StartRoom extends Room where
  leastFolders_le : leastFolders ≤ folders
  leastContainers_le : leastContainers ≤ containers

/-- No more room than there always is at the start. It is what runs have here unless they are given
more. -/
instance (priority := low) leastRoom : StartRoom where
  folders := leastFolders
  containers := leastContainers
  links := 989
  leastFolders_le := Nat.le_refl _
  leastContainers_le := Nat.le_refl _

end SuiteLint
