import SuiteLint.Proofs.Review.Layout
import SuiteLint.Proofs.Text.Newline
import SuiteLint.Source

/-!
# Files and their texts

A file is reviewed like its text, as long as every `\r` of the text stands right before a `\n`. A
`\r` that stands alone is taken for a line end when the file is read, and not when its text is
reviewed: then the line numbers of the two reviews differ.
-/

namespace SuiteLint.Source

open Files Review Text

/-- The text that bytes stand for, with every line end left as it is. -/
def text (bytes : List UInt8) : String :=
  String.ofList (Utf8.decodeLossy bytes)

/-- The outcome of a text that is found at a path, as seen from the current directory. -/
def reviewText (fs : FileSystem) (path text : String) : Except Abort (Outcome × List Note) :=
  if hasRole fs path then .ok (.report (Review.content fs.cwdPath path text), [])
  else .error .lostDirectory

theorem read_of_read {fs : FileSystem} {path : String} {bytes : List UInt8}
    (hnull : hasNull path = false) (hread : fs.read (Path.tidy path) = .ok bytes) :
    read fs path = .ok (decode bytes) := by
  simp only [read, hnull, Bool.false_eq_true, ↓reduceIte, hread]

theorem review_of_read {fs : FileSystem} {path : String} {bytes : List UInt8}
    (hnull : hasNull path = false) (hread : fs.read (Path.tidy path) = .ok bytes) :
    review fs path = reviewText fs path (decode bytes) := by
  rw [review, read_of_read hnull hread, reviewText]

theorem review_of_unread {fs : FileSystem} {path : String} {cause : Cause}
    (hnull : hasNull path = false) (hread : fs.read (Path.tidy path) = .error cause) :
    ∃ notes, review fs path = .ok (.failure ⟨path, cause.message (Path.tidy path)⟩, notes) := by
  have hsource : read fs path = .error (.system cause (Path.tidy path)) := by
    simp only [read, hnull, Bool.false_eq_true, ↓reduceIte, hread]
  rw [review, hsource]
  exact ⟨_, rfl⟩

/-- A `\r` at the end of a line makes no difference to any pass. -/
theorem alike_of_mayReturn {unified line : List Char} (h : MayReturn unified line) :
    Alike unified line := by
  rcases h with rfl | rfl
  · exact ⟨fun _ => rfl, fun _ => rfl, fun _ => rfl, fun _ _ => rfl⟩
  · have hmargins : Margins [] ['\r'] :=
      ⟨fun c hc => absurd hc List.not_mem_nil, fun c hc => List.mem_singleton.1 hc ▸ (by decide)⟩
    exact (alike_margins hmargins unified).symm

theorem content_decode {bytes : List UInt8} (h : returnsPaired (text bytes).toList = true)
    (cwd path : String) :
    Review.content cwd path (decode bytes) = Review.content cwd path (text bytes) := by
  refine content_congr ?_ cwd path
  rw [text, String.toList_ofList] at h ⊢
  rw [decode, String.toList_ofList]
  exact (lines_unifyNewlines h).imp fun _ _ hline => alike_of_mayReturn hline

/-- The review of a file is that of its text with line ends unified. It is that of the text itself
when every `\r` stands right before a `\n`. -/
theorem review_eq_reviewText {fs : FileSystem} {path : String} {bytes : List UInt8}
    (hnull : hasNull path = false) (hread : fs.read (Path.tidy path) = .ok bytes) :
    review fs path =
        reviewText fs path (String.ofList (unifyNewlines (text bytes).toList)) ∧
      (returnsPaired (text bytes).toList = true →
        review fs path = reviewText fs path (text bytes)) := by
  rw [review_of_read hnull hread]
  constructor
  · rw [decode, text, String.toList_ofList]
  · intro hpaired
    rw [reviewText, reviewText, content_decode hpaired]

/-- A file with a wait after the given line end. -/
def waitAfter (ending : String) : FileSystem where
  top := .file "a.ts" (("x" ++ ending ++ "waitForTimeout(1)").toList.map fun c => c.toNat.toUInt8)
    .empty
  cwd := []

theorem review_eq_reviewText_waitAfter :
    ∃ bytes, hasNull "a.ts" = false ∧
      (waitAfter "\r\n").read (Path.tidy "a.ts") = .ok bytes ∧
      returnsPaired (text bytes).toList = true ∧
      review (waitAfter "\r\n") "a.ts" = reviewText (waitAfter "\r\n") "a.ts" (text bytes) := by
  have hnull : hasNull "a.ts" = false := by decide
  have hread : (waitAfter "\r\n").read (Path.tidy "a.ts") =
      .ok (("x\r\nwaitForTimeout(1)").toList.map fun c => c.toNat.toUInt8) := by decide +kernel
  have hpaired : returnsPaired (text (("x\r\nwaitForTimeout(1)").toList.map
      fun c => c.toNat.toUInt8)).toList = true := by decide +kernel
  exact ⟨_, hnull, hread, hpaired, (review_eq_reviewText hnull hread).2 hpaired⟩

/-- A file is reviewed like its text, whatever line ends it has. -/
def ReviewsAsText (fs : FileSystem) (path : String) : Prop :=
  ∀ bytes, hasNull path = false → fs.read (Path.tidy path) = .ok bytes →
    review fs path = reviewText fs path (text bytes)

/-- After a `\r` that stands alone, the wait is reported on the second line of the file and on the
first line of its text. -/
theorem not_reviewsAsText_lone_return : ¬ ReviewsAsText (waitAfter "\r") "a.ts" := by
  intro hreviews
  have heq := hreviews (("x\rwaitForTimeout(1)").toList.map fun c => c.toNat.toUInt8) (by decide)
    (by decide +kernel)
  revert heq
  decide +kernel

end SuiteLint.Source
