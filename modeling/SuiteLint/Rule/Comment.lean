import SuiteLint.Text.Character
import SuiteLint.Text.Search

/-!
# Comments

Comment lines are exempt from every rule. Two slashes inside a line may start a comment or an
XPath expression; the shapes below tell the two apart, and a line with any of them is taken to
hold a comment. A miss is preferred over flagging a comment.
-/

namespace SuiteLint.Rule

open Text

/-- What a comment line starts with, blanks aside. -/
def commentMarks : List String :=
  ["//", "#", "/*", "*"]

/-- Whether a line is a comment from its first character on. -/
def isCommentLine (line : List Char) : Bool :=
  commentMarks.any (startsWith · (trim line))

/-- The text after two slashes that stand right after a cut. -/
def afterSlashes? (k : Cut) : Option (List Char) :=
  match k.after with
  | '/' :: '/' :: rest => some rest
  | _ => none

/-- Whether some pair of slashes meets a condition on the characters before it, nearest first, and
on the characters after it. Pairs may overlap. -/
def anySlashes (p : List Char → List Char → Bool) (line : List Char) : Bool :=
  anyCut (fun k => (afterSlashes? k).any (p k.before)) line

/-- Whether the next character, if any, is of the given kind. -/
def next (kind : Char → Bool) (s : List Char) : Bool :=
  s.head?.any kind

/-- Characters of the names that comments may write before an opening bracket. -/
def isCallNameChar (c : Char) : Bool :=
  c.isAlphanum || c == '_' || c == '-'

/-- A way in which two slashes look like the start of a comment. -/
structure CommentShape where
  name : String
  holds : List Char → Bool

/-- The shapes of comments. -/
def commentShapes : List CommentShape := [
  ⟨"starts_with_slashes", fun line => startsWith "//" (trim line)⟩,
  ⟨"spaced_inline_comment", contains "// "⟩,
  ⟨"word_slashes_word", anySlashes fun before after => next isWord before && next isWord after⟩,
  ⟨"word_spaced_slashes_word", anySlashes fun before after =>
    next isWord (before.dropWhile isBlank) && next isWord (after.dropWhile isBlank)⟩,
  ⟨"slashes_then_letter", anySlashes fun _ after => next Char.isAlpha (after.dropWhile isBlank)⟩,
  ⟨"slashes_then_digit", anySlashes fun _ after => next isDecimalDigit after⟩,
  ⟨"slashes_then_call", anySlashes fun _ after =>
    next isCallNameChar after && next (· == '(') (after.dropWhile isCallNameChar)⟩]

/-- Whether the slashes of a line look like a comment. -/
def looksLikeComment (line : List Char) : Bool :=
  commentShapes.any (·.holds line)

end SuiteLint.Rule
