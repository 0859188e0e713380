import Mathlib.Data.List.Infix
import SuiteLint.Proofs.Review.Findings
import SuiteLint.Proofs.Source.Reading
import SuiteLint.Proofs.Text.Utf8

/-!
# Files line by line

What a review says about a line is told by that line alone, and a line of a file is told by the
bytes between two line ends. So bytes that are no text neither move a line nor reach into another
one: whatever stands between two line ends, the findings on all other lines are the same. This is
said of files without the byte of `\r`, which ends lines too when it stands alone.
-/

namespace SuiteLint

open Files

/-! ## The findings on one line -/

namespace Review

/-- The issues and good signs of a report that stand on a line. -/
def findingsOn (number : Int) (report : Report) : List Issue × List Positive :=
  (report.issues.filter fun issue => decide (issue.line = number),
    report.positives.filter fun sign => decide (sign.line = number))

/-- What is to be found on a line of a file at a path, from a look at that line alone. -/
def lineFindings (cwd path : String) (number : Int) (line : List Char) :
    List Issue × List Positive :=
  let role := Role.detect cwd path
  (Rule.lineIssues line number ++
      if role = .testSpec then Rule.specLineIssues line number else [],
    if recordsPositives (role == .testSpec) (Role.isPageObject path) then
      Rule.linePositives line number else [])

theorem line_of_mem_lineIssues (line : List Char) (number : Int) :
    ∀ issue ∈ Rule.lineIssues line number, issue.line = number :=
  fun _ hissue => (of_mem_lineIssues hissue).2

theorem line_of_mem_specLineIssues (line : List Char) (number : Int) :
    ∀ issue ∈ Rule.specLineIssues line number, issue.line = number :=
  fun _ hissue => (of_mem_specLineIssues hissue).2

theorem line_of_mem_linePositives (line : List Char) (number : Int) :
    ∀ sign ∈ Rule.linePositives line number, sign.line = number := by
  intro sign hsign
  obtain ⟨-, practice, -, -, rfl⟩ := mem_linePositives.1 hsign
  rfl

theorem issuesOn_content (cwd path text : String) (i : Nat) :
    (content cwd path text).issues.filter
        (fun issue => decide (issue.line = ((1 + i : Nat) : Int))) =
      ((Text.lines text.toList)[i]?.map fun line =>
        (lineFindings cwd path ((1 + i : Nat) : Int) line).1).getD [] := by
  have hlines := filter_pass line_of_mem_lineIssues 1 i (Text.lines text.toList)
  have hlayers := filter_pass line_of_mem_specLineIssues 1 i (Text.lines text.toList)
  -- The issue on the whole file stands on line 0.
  have hfile : (Rule.fileIssues path text.toList).filter
      (fun issue => decide (issue.line = ((1 + i : Nat) : Int))) = [] := by
    refine List.filter_eq_nil_iff.2 fun issue hissue => ?_
    rw [of_mem_fileIssues hissue, decide_eq_true_iff]
    show ¬ (0 : Int) = _
    omega
  change (lineIssues _ ++ Rule.layerIssues _ _ ++ Rule.fileIssues _ _).filter _ = _
  rw [List.filter_append, List.filter_append, hfile, List.append_nil, lineIssues_eq_pass, hlines,
    layerIssues_eq_pass]
  by_cases hspec : Role.detect cwd path = .testSpec
  · rw [if_pos hspec, hlayers]
    simp only [lineFindings, hspec, if_true]
    cases (Text.lines text.toList)[i]? <;> rfl
  · rw [if_neg hspec, List.filter_nil, List.append_nil]
    simp only [lineFindings, hspec, if_false, List.append_nil]

theorem positivesOn_content (cwd path text : String) (i : Nat) :
    (content cwd path text).positives.filter
        (fun sign => decide (sign.line = ((1 + i : Nat) : Int))) =
      ((Text.lines text.toList)[i]?.map fun line =>
        (lineFindings cwd path ((1 + i : Nat) : Int) line).2).getD [] := by
  have hlines := filter_pass line_of_mem_linePositives 1 i (Text.lines text.toList)
  have hfile : (Rule.filePositives text.toList).filter
      (fun sign => decide (sign.line = ((1 + i : Nat) : Int))) = [] := by
    refine List.filter_eq_nil_iff.2 fun sign hsign => ?_
    rw [of_mem_filePositives hsign, decide_eq_true_iff]
    show ¬ (0 : Int) = _
    omega
  change ((if recordsPositives (Role.detect cwd path == .testSpec) (Role.isPageObject path) then
    linePositives _ else []) ++ Rule.filePositives _).filter _ = _
  rw [List.filter_append, hfile, List.append_nil, linePositives_eq_pass]
  cases hrecords : recordsPositives (Role.detect cwd path == .testSpec) (Role.isPageObject path)
  · simp only [lineFindings, hrecords, Bool.false_eq_true, if_false, List.filter_nil]
    cases (Text.lines text.toList)[i]? <;> rfl
  · simp only [lineFindings, hrecords, if_true]
    exact hlines

/-- A report says about a line what is to be found on it, and nothing about lines that the text does
not have. -/
theorem findingsOn_content (cwd path text : String) (i : Nat) :
    findingsOn ((1 + i : Nat) : Int) (content cwd path text) =
      ((Text.lines text.toList)[i]?.map (lineFindings cwd path ((1 + i : Nat) : Int))).getD
        ([], []) := by
  rw [findingsOn, issuesOn_content, positivesOn_content]
  cases (Text.lines text.toList)[i]? <;> rfl

end Review

/-! ## The bytes between line ends -/

namespace Source

open Review Text

/-- The chunks of bytes between line ends. -/
def chunks (bytes : List UInt8) : List (List UInt8) :=
  bytes.splitOn 0x0A

/-- The bytes with the chunk of a number replaced. -/
def setChunk (bytes : List UInt8) (k : Nat) (chunk : List UInt8) : List UInt8 :=
  [0x0A].intercalate ((chunks bytes).set k chunk)

theorem chunks_set_ne_nil (bytes : List UInt8) (k : Nat) (chunk : List UInt8) :
    (chunks bytes).set k chunk ≠ [] := by
  rw [Ne, List.set_eq_nil_iff]
  exact List.splitOn_ne_nil 0x0A bytes

theorem chunks_setChunk {chunk : List UInt8} (h : 0x0A ∉ chunk) (bytes : List UInt8) (k : Nat) :
    chunks (setChunk bytes k chunk) = (chunks bytes).set k chunk := by
  refine List.splitOn_intercalate 0x0A (fun part hpart => ?_) (chunks_set_ne_nil bytes k chunk)
  rcases List.mem_or_eq_of_mem_set hpart with hpart | rfl
  · exact not_mem_of_mem_splitOn hpart
  · exact h

theorem not_mem_setChunk {bytes chunk : List UInt8} {b : UInt8} (hb : b ≠ 0x0A) (hbytes : b ∉ bytes)
    (hchunk : b ∉ chunk) (k : Nat) : b ∉ setChunk bytes k chunk := by
  -- A byte is in the bytes if it occurs there as a list of its own, and then it is in a chunk.
  have hend : (0x0A : UInt8) ∉ [b] := fun hmem => hb (List.mem_singleton.1 hmem).symm
  rw [← List.singleton_infix_iff] at hbytes hchunk ⊢
  rw [infix_iff_splitOn hend, not_exists] at hbytes
  rw [setChunk, infix_intercalate_iff hend (chunks_set_ne_nil bytes k chunk)]
  rintro ⟨part, hpart, hmem⟩
  rcases List.mem_or_eq_of_mem_set hpart with hpart | rfl
  · exact hbytes part ⟨hpart, hmem⟩
  · exact hchunk hmem

/-- Without the byte of `\r` the text has no `\r`, so reading changes no line end. -/
theorem decode_eq_text {bytes : List UInt8} (h : 0x0D ∉ bytes) : decode bytes = text bytes := by
  have hreturn : '\r' ∉ Utf8.decodeLossy bytes := fun hmem =>
    h (Utf8.mem_of_mem_decodeLossy (by decide) hmem)
  rw [decode, unifyNewlines_eq_self hreturn, text]

theorem lines_decode {bytes : List UInt8} (h : 0x0D ∉ bytes) :
    lines (decode bytes).toList = (chunks bytes).map Utf8.decodeLossy := by
  rw [decode_eq_text h, text, String.toList_ofList, Utf8.lines_decodeLossy, chunks]

theorem findingsOn_decode {bytes : List UInt8} (h : 0x0D ∉ bytes) (cwd path : String) (i : Nat) :
    findingsOn ((1 + i : Nat) : Int) (content cwd path (decode bytes)) =
      ((chunks bytes)[i]?.map fun chunk =>
        lineFindings cwd path ((1 + i : Nat) : Int) (Utf8.decodeLossy chunk)).getD ([], []) := by
  rw [findingsOn_content, lines_decode h, List.getElem?_map, Option.map_map]
  rfl

/-- Another chunk in the place of one leaves the findings on all other lines as they are. -/
theorem findingsOn_setChunk {bytes chunk : List UInt8} (hbytes : 0x0D ∉ bytes)
    (hend : 0x0A ∉ chunk) (hreturn : 0x0D ∉ chunk) {i k : Nat} (hne : i ≠ k) (cwd path : String) :
    findingsOn ((1 + i : Nat) : Int) (content cwd path (decode (setChunk bytes k chunk))) =
      findingsOn ((1 + i : Nat) : Int) (content cwd path (decode bytes)) := by
  have hchanged : 0x0D ∉ setChunk bytes k chunk := not_mem_setChunk (by decide) hbytes hreturn k
  rw [findingsOn_decode hchanged, findingsOn_decode hbytes, chunks_setChunk hend,
    List.getElem?_set_ne hne.symm]

/-- Text that is written in UTF-8 is read back. -/
theorem decode_toUTF8 {text : String} (h : '\r' ∉ text.toList) :
    decode text.toUTF8.data.toList = text := by
  have hbytes : text.toUTF8.data.toList = text.toList.flatMap String.utf8EncodeChar :=
    calc text.toUTF8.data.toList = (String.ofList text.toList).toByteArray.data.toList := by
          rw [String.toUTF8_eq_toByteArray, String.ofList_toList]
      _ = text.toList.flatMap String.utf8EncodeChar := by
          rw [String.toByteArray_ofList, List.utf8Encode, List.toList_data_toByteArray]
  rw [decode, hbytes, Utf8.decodeLossy_encode, unifyNewlines_eq_self h, String.ofList_toList]

theorem review_report {fs : FileSystem} {path : String} {bytes : List UInt8}
    (hnull : hasNull path = false) (hread : fs.read (Path.tidy path) = .ok bytes)
    (hrole : hasRole fs path = true) :
    review fs path = .ok (.report (content fs.cwdPath path (decode bytes)), []) := by
  rw [review_of_read hnull hread, reviewText, if_pos hrole]

/-- The lines of a file without the byte of `\r` are the texts of its chunks, and its report says
about a line what is to be found in the text of that chunk. So another chunk in the place of one
changes no finding on another line. Text that is written in UTF-8 is read as it was written. -/
theorem review_chunkwise {fs : FileSystem} {path : String} {bytes : List UInt8}
    (hnull : hasNull path = false) (hread : fs.read (Path.tidy path) = .ok bytes)
    (hbytes : 0x0D ∉ bytes) :
    (∃ text, read fs path = .ok text ∧
      lines text.toList = (chunks bytes).map Utf8.decodeLossy) ∧
    (hasRole fs path = true → ∃ report, review fs path = .ok (.report report, []) ∧
      (∀ i : Nat, findingsOn ((1 + i : Nat) : Int) report =
        ((chunks bytes)[i]?.map fun chunk =>
          lineFindings fs.cwdPath path ((1 + i : Nat) : Int) (Utf8.decodeLossy chunk)).getD
            ([], [])) ∧
      ∀ (top : Folder) (k : Nat) (chunk : List UInt8), 0x0A ∉ chunk → 0x0D ∉ chunk →
        FileSystem.read { fs with top } (Path.tidy path) = .ok (setChunk bytes k chunk) →
        ∃ changed, review { fs with top } path = .ok (.report changed, []) ∧
          ∀ i : Nat, i ≠ k → findingsOn ((1 + i : Nat) : Int) changed =
            findingsOn ((1 + i : Nat) : Int) report) ∧
    ∀ (other : FileSystem) (text : String), '\r' ∉ text.toList →
      other.read (Path.tidy path) = .ok text.toUTF8.data.toList → read other path = .ok text := by
  refine ⟨⟨decode bytes, read_of_read hnull hread, lines_decode hbytes⟩, ?_, ?_⟩
  · intro hrole
    refine ⟨_, review_report hnull hread hrole, findingsOn_decode hbytes fs.cwdPath path, ?_⟩
    intro top k chunk hend hreturn hchanged
    exact ⟨_, review_report hnull hchanged hrole,
      fun i hne => findingsOn_setChunk hbytes hend hreturn hne fs.cwdPath path⟩
  · intro other text hreturn hother
    rw [read_of_read hnull hother, decode_toUTF8 hreturn]

/-- A file with a wait after a chunk of bytes. -/
def waitAfterChunk (chunk : List UInt8) : FileSystem where
  top := .file "a.ts" ([0x0A].intercalate [chunk, "waitForTimeout(1)".toUTF8.data.toList]) .empty
  cwd := []

/-- The wait is found after a character that is cut off by the line end, and stays when other bytes
that are no text stand there. -/
theorem review_chunkwise_waitAfterChunk :
    ∃ bytes report changed, hasNull "a.ts" = false ∧
      (waitAfterChunk [0xE2, 0x82]).read (Path.tidy "a.ts") = .ok bytes ∧ 0x0D ∉ bytes ∧
      hasRole (waitAfterChunk [0xE2, 0x82]) "a.ts" = true ∧
      review (waitAfterChunk [0xE2, 0x82]) "a.ts" = .ok (.report report, []) ∧
      review (waitAfterChunk [0xC0, 0xF0, 0x9F]) "a.ts" = .ok (.report changed, []) ∧
      (findingsOn 2 report).1.map (·.rule) = ["wait_for_timeout"] ∧
      findingsOn 2 changed = findingsOn 2 report := by
  have hnull : hasNull "a.ts" = false := by decide
  have hread : (waitAfterChunk [0xE2, 0x82]).read (Path.tidy "a.ts") =
      .ok ([0x0A].intercalate [[0xE2, 0x82], "waitForTimeout(1)".toUTF8.data.toList]) := by
    decide +kernel
  have hbytes : 0x0D ∉
      [0x0A].intercalate [[0xE2, 0x82], "waitForTimeout(1)".toUTF8.data.toList] := by
    decide +kernel
  have hrole : hasRole (waitAfterChunk [0xE2, 0x82]) "a.ts" = true := by decide +kernel
  obtain ⟨-, hreport, -⟩ := review_chunkwise hnull hread hbytes
  obtain ⟨report, hreview, hfindings, hchange⟩ := hreport hrole
  obtain ⟨changed, hchanged, hsame⟩ := hchange (waitAfterChunk [0xC0, 0xF0, 0x9F]).top 0
    [0xC0, 0xF0, 0x9F] (by decide) (by decide) (by decide +kernel)
  refine ⟨_, report, changed, hnull, hread, hbytes, hrole, hreview, hchanged, ?_,
    hsame 1 (by decide)⟩
  have hsecond : findingsOn 2 report = _ := hfindings 1
  rw [hsecond]
  decide +kernel

end Source

end SuiteLint
