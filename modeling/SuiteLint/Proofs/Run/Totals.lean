import SuiteLint.Proofs.Review.Findings
import SuiteLint.Proofs.Run.Printing
import SuiteLint.Proofs.Score
import SuiteLint.Proofs.Source.Faults

/-!
# The totals of a run

The document of a run and its summary on the console both show figures: how many files were reviewed
and how many could not be read, how many issues there are of each severity, and the least score. All
of them are those that the entries of the files add up to. The score of an entry is told by its
counts, since every issue that a review reports has a severity that is counted.
-/

namespace SuiteLint

open Files Json

/-! ## Every issue counts -/

namespace Review

open Rule Text

theorem graded_lineIssues (line : List Char) (number : Int) :
    Graded (Rule.lineIssues line number) := by
  intro issue hissue
  obtain ⟨-, rule, -, hfound⟩ := mem_lineIssues.1 hissue
  obtain ⟨cited, -, rfl⟩ := Option.map_eq_some_iff.1 hfound
  exact ⟨rule.severity, rfl⟩

theorem graded_specLineIssues (line : List Char) (number : Int) :
    Graded (specLineIssues line number) := by
  intro issue hissue
  obtain ⟨-, rule, -, -, rfl⟩ := mem_specLineIssues.1 hissue
  exact ⟨LayerRule.severity, rfl⟩

theorem graded_pass {report : List Char → Int → List Issue}
    (h : ∀ line number, Graded (report line number)) (lines : List (List Char)) :
    Graded (pass 1 report lines) := by
  intro issue hissue
  obtain ⟨i, line, -, hline⟩ := mem_pass.1 hissue
  exact h line _ issue hline

/-- Every issue that a review reports has a known severity. -/
theorem graded_content (cwd path text : String) : Graded (content cwd path text).issues := by
  intro issue hissue
  rcases mem_issues.1 hissue with h | h | h
  · rw [lineIssues_eq_pass] at h
    exact graded_pass graded_lineIssues _ issue h
  · rw [layerIssues_eq_pass] at h
    split at h
    · exact graded_pass graded_specLineIssues _ issue h
    · exact absurd h List.not_mem_nil
  · rw [of_mem_fileIssues h]
    exact ⟨.medium, rfl⟩

end Review

/-! ## Entries of a document -/

namespace Json.Value

/-- Whether an entry is the report of a file, and not the error of one that could not be read. -/
def isReport (entry : Value) : Bool :=
  (entry.get? "error").isNone

def score? (entry : Value) : Option Int :=
  (entry.get? "score").bind int?

def count? (severity : Severity) (entry : Value) : Option Int :=
  ((entry.get? "counts").bind (·.get? severity.label)).bind int?

def issues? (entry : Value) : Option (List Value) :=
  (entry.get? "issues").bind items?

/-- The counts of an entry add up to its issues and tell its score. -/
def Scored (entry : Value) : Prop :=
  ∃ high medium score issues, entry.count? .high = some high ∧
    entry.count? .medium = some medium ∧ entry.score? = some score ∧
    entry.issues? = some issues ∧ high + medium = issues.length ∧
    score = max 0 (10 - 3 * high - medium) ∧ 0 ≤ score ∧ score ≤ 10

end Json.Value

theorem Report.score?_toJson (r : Report) : r.toJson.score? = some r.score := by
  simp [Report.toJson, Value.score?, get?_record, Value.int?]

theorem Report.count?_toJson (r : Report) (severity : Severity) :
    r.toJson.count? severity = some (r.count severity : Int) := by
  cases severity <;>
    simp [Report.toJson, Value.count?, get?_record, Value.int?, Severity.all, Severity.label]

theorem Report.issues?_toJson (r : Report) :
    r.toJson.issues? = some (r.issues.map Issue.toJson) := by
  simp [Report.toJson, Value.issues?, get?_record, Value.items?]

theorem ReadFailure.score?_toJson (f : ReadFailure) : f.toJson.score? = none := by
  simp [ReadFailure.toJson, Value.score?, get?_record]

theorem ReadFailure.count?_toJson (f : ReadFailure) (severity : Severity) :
    f.toJson.count? severity = none := by
  simp [ReadFailure.toJson, Value.count?, get?_record]

theorem Outcome.isReport_toJson (o : Outcome) :
    o.toJson.isReport = o.report?.isSome ∧ (!o.toJson.isReport) = o.failure?.isSome := by
  cases o with
  | report r => simp [Outcome.toJson, Report.toJson, Value.isReport, get?_record, Outcome.report?,
      Outcome.failure?]
  | failure f => simp [Outcome.toJson, ReadFailure.toJson, Value.isReport, get?_record,
      Outcome.report?, Outcome.failure?]

theorem Outcome.isReport_of_score? (o : Outcome) {score : Int}
    (h : o.toJson.score? = some score) : o.toJson.isReport = true := by
  cases o with
  | report r => exact (Outcome.report r).isReport_toJson.1
  | failure f =>
    rw [Outcome.toJson, f.score?_toJson] at h
    cases h

theorem scored_content (cwd path text : String) :
    (Review.content cwd path text).toJson.Scored := by
  have hgraded := Review.graded_content cwd path text
  have hlength := hgraded.length_eq
  have hpenalty := hgraded.totalPenalty_eq
  have hscore : (Review.content cwd path text).score =
      max 0 (10 - (totalPenalty (Review.content cwd path text).issues : Int)) := rfl
  refine ⟨_, _, _, _, Report.count?_toJson _ _, Report.count?_toJson _ _, Report.score?_toJson _,
    Report.issues?_toJson _, ?_, ?_, ?_, ?_⟩
  · rw [List.length_map, Report.count, Report.count]
    omega
  · rw [hscore, hpenalty, Report.count, Report.count]
    omega
  · rw [hscore]
    omega
  · rw [hscore]
    omega

/-- A file that was reviewed has a scored entry. -/
theorem Source.InPlace.scored {fs : FileSystem} {path : String} {o : Outcome}
    (h : InPlace fs path o) (hreport : o.toJson.isReport = true) : o.toJson.Scored := by
  cases hread : fs.read (Path.tidy path) with
  | ok bytes =>
    rw [h.report bytes hread]
    exact scored_content _ _ _
  | error cause =>
    rw [o.isReport_toJson.1, h.failure cause hread] at hreport
    exact absurd hreport nofun

theorem scored_of_inPlace {fs : FileSystem} {paths : List String} {outcomes : List Outcome}
    (h : List.Forall₂ (Source.InPlace fs) paths outcomes) :
    ∀ o ∈ outcomes, o.toJson.isReport = true → o.toJson.Scored := by
  induction h with
  | nil => exact fun o ho => absurd ho List.not_mem_nil
  | cons hplace _ ih => exact List.forall_mem_cons.2 ⟨hplace.scored, ih⟩

/-! ## Figures -/

/-- What is told about the files of a run. -/
structure Figures where
  reviewed : Nat
  failed : Nat
  high : Int
  medium : Int
  lowest : Option Int
deriving DecidableEq

namespace Figures

/-- The figures that entries add up to. -/
def ofEntries (entries : List Value) : Figures where
  reviewed := entries.countP Value.isReport
  failed := entries.countP (!·.isReport)
  high := (entries.filterMap (Value.count? .high)).sum
  medium := (entries.filterMap (Value.count? .medium)).sum
  lowest := (entries.filterMap Value.score?).min?

/-- The lines that show figures. -/
def text (f : Figures) : String :=
  "Run completed. Reviewed " ++ toString f.reviewed ++ " file" ++
    (if f.reviewed = 1 then "" else "s") ++
    (if f.failed = 0 then "" else ", " ++ toString f.failed ++ " unreadable") ++ ".\n" ++
  (if f.reviewed = 0 then ""
    else "Issues: " ++ toString f.high ++ " HIGH, " ++ toString f.medium ++ " MEDIUM.\n") ++
  match f.lowest with
  | none => ""
  | some low => "Lowest score: " ++ toString low ++ "/10. Check individual file scores above.\n"

end Figures

namespace Summary

variable (s : Summary)

/-- Only reports answer a question that the errors of files do not answer. -/
theorem filterMap_toJson {α : Type} {ask : Value → Option α} {answer : Report → α}
    (hreport : ∀ r : Report, ask r.toJson = some (answer r))
    (hfailure : ∀ f : ReadFailure, ask f.toJson = none) :
    (s.outcomes.map Outcome.toJson).filterMap ask = s.reports.map answer := by
  rw [Summary.reports, List.filterMap_map, List.map_filterMap]
  refine List.filterMap_congr fun o _ => ?_
  cases o with
  | report r => exact hreport r
  | failure f => exact hfailure f

theorem countP_toJson {α : Type} {test : Value → Bool} {pick : Outcome → Option α}
    (h : ∀ o : Outcome, test o.toJson = (pick o).isSome) :
    (s.outcomes.map Outcome.toJson).countP test = (s.outcomes.filterMap pick).length := by
  rw [List.countP_map, List.length_filterMap_eq_countP]
  refine List.countP_congr fun o _ => ?_
  rw [Function.comp_apply, h]

theorem sum_count?_toJson (severity : Severity) :
    ((s.outcomes.map Outcome.toJson).filterMap (Value.count? severity)).sum =
      s.total severity := by
  rw [s.filterMap_toJson (Report.count?_toJson · severity) (ReadFailure.count?_toJson · severity),
    Summary.total]
  induction s.reports with
  | nil => rfl
  | cons r reports ih =>
    rw [List.map_cons, List.map_cons, List.sum_cons, List.foldr_cons, ih, Int.natCast_add]

/-- A run knows the figures that the entries of its document add up to. -/
theorem figures_toJson :
    Figures.ofEntries (s.outcomes.map Outcome.toJson) =
      ⟨s.reports.length, s.failures.length, s.total .high, s.total .medium, s.lowestScore?⟩ := by
  rw [Figures.ofEntries, s.countP_toJson (·.isReport_toJson.1), s.countP_toJson
    (·.isReport_toJson.2), s.sum_count?_toJson, s.sum_count?_toJson,
    s.filterMap_toJson Report.score?_toJson ReadFailure.score?_toJson, Summary.lowestScore?]
  rfl

theorem below_ne_nil_iff (threshold : Int) :
    s.below threshold ≠ [] ↔ ∃ low, s.lowestScore? = some low ∧ low < threshold := by
  rw [s.lowest_lt_iff, Summary.below, Ne, List.filter_eq_nil_iff]
  simp

end Summary

/-! ## The summary on the console -/

namespace Render

variable (s : Summary)

theorem ite_isEmpty {α β : Type} (xs : List α) (hidden shown : β) :
    (if xs.isEmpty then hidden else shown) = if xs.length = 0 then hidden else shown :=
  if_congr (List.isEmpty_iff.trans List.length_eq_zero_iff.symm) rfl rfl

theorem fileCounts_eq :
    fileCounts s = "Run completed. Reviewed " ++ toString s.reports.length ++ " file" ++
      (if s.reports.length = 1 then "" else "s") ++
      (if s.failures.length = 0 then "" else ", " ++ toString s.failures.length ++ " unreadable") ++
      ".\n" :=
  congrArg ("Run completed. Reviewed " ++ toString s.reports.length ++ " file" ++
    (if s.reports.length = 1 then "" else "s") ++ · ++ ".\n") (ite_isEmpty s.failures _ _)

theorem issueCounts_eq :
    issueCounts s = if s.reports.length = 0 then ""
      else "Issues: " ++ toString (s.total .high) ++ " HIGH, " ++ toString (s.total .medium) ++
        " MEDIUM.\n" := by
  have hjoin (a b : String) : ", ".intercalate [a, b] = a ++ ", " ++ b := rfl
  rw [issueCounts, ite_isEmpty, Severity.all, List.map_cons, List.map_cons, List.map_nil,
    hjoin, Severity.label, Severity.label]
  split
  · rfl
  · simp [← String.toList_inj]

theorem lowestScore_eq :
    lowestScore s = match s.lowestScore? with
      | none => ""
      | some low => "Lowest score: " ++ toString low ++
        "/10. Check individual file scores above.\n" := by
  have hmax : toString maxScore = "10" := rfl
  rw [lowestScore]
  cases s.lowestScore? with
  | none => rfl
  | some low =>
    dsimp only
    rw [outOfMax, hmax]
    simp [← String.toList_inj]

/-- The summary shows the figures that the entries of the document add up to. -/
theorem render_summary (console : Console) :
    console.render (summary s) = console.paint (some .bold) "📊 Review Summary" ++
      "\n================\n" ++ (Figures.ofEntries (s.outcomes.map Outcome.toJson)).text := by
  have hjoin (a b : String) : String.join [a, b] = a ++ b := by
    show "" ++ a ++ b = a ++ b
    rw [String.empty_append]
  have hparts : console.render (summary s) = console.paint (some .bold) "📊 Review Summary" ++
      "\n================\n" ++ (fileCounts s ++ issueCounts s ++ lowestScore s) := by
    simp only [Console.render, summary, List.map_cons, List.map_nil, hjoin, Console.renderSpan,
      String.append_assoc]
  rw [hparts, s.figures_toJson, fileCounts_eq, issueCounts_eq, lowestScore_eq]
  rfl

end Render

/-! ## Totals -/

/-- The document, the threshold and the summary of a run agree with the entries of its files. -/
structure Totals (paths : List String) (s : Summary) (entries : List Value) : Prop where
  files : s.toJson.get? "files" = some (.array entries)
  inOrder : List.Forall₂ (fun path entry => entry.get? "path" = some (.string path)) paths entries
  reviewed : s.toJson.get? "reviewed" = some (.int (Figures.ofEntries entries).reviewed)
  failed : s.toJson.get? "failed" = some (.int (Figures.ofEntries entries).failed)
  parts : (Figures.ofEntries entries).reviewed + (Figures.ofEntries entries).failed =
    entries.length
  scored : ∀ entry ∈ entries, entry.isReport = true → entry.Scored
  lowest : s.toJson.get? "lowest_score" = some (match (Figures.ofEntries entries).lowest with
    | some low => .int low
    | none => .null)
  lowest_none : (Figures.ofEntries entries).lowest = none ↔ (Figures.ofEntries entries).reviewed = 0
  lowest_some : ∀ low, (Figures.ofEntries entries).lowest = some low →
    (∃ entry ∈ entries, entry.isReport = true ∧ entry.score? = some low) ∧
      ∀ entry ∈ entries, ∀ score, entry.score? = some score → low ≤ score
  below : ∀ threshold, s.below threshold ≠ [] ↔
    ∃ low, (Figures.ofEntries entries).lowest = some low ∧ low < threshold
  printed : ∀ console : Console, console.render (Render.summary s) =
    console.paint (some .bold) "📊 Review Summary" ++ "\n================\n" ++
      (Figures.ofEntries entries).text

theorem totals_of_inPlace {fs : FileSystem} {paths : List String} {s : Summary}
    (h : List.Forall₂ (Source.InPlace fs) paths s.outcomes) :
    Totals paths s (s.outcomes.map Outcome.toJson) where
  files := s.get?_files
  inOrder := by
    refine List.forall₂_map_right_iff.2 (h.imp fun path o hplace => ?_)
    rw [o.get?_path, hplace.path_eq]
  reviewed := by
    rw [s.figures_toJson]
    simp [Summary.toJson, get?_record]
  failed := by
    rw [s.figures_toJson]
    simp [Summary.toJson, get?_record]
  parts := by
    rw [List.length_eq_countP_add_countP Value.isReport]
    simp [Figures.ofEntries]
  scored := List.forall_mem_map.2 (scored_of_inPlace h)
  lowest := by
    rw [s.figures_toJson]
    cases hlow : s.lowestScore? <;> simp [Summary.toJson, get?_record, hlow]
  lowest_none := by
    rw [s.figures_toJson]
    show (s.reports.map Report.score).min? = none ↔ s.reports.length = 0
    rw [List.min?_eq_none_iff, List.map_eq_nil_iff, List.length_eq_zero_iff]
  lowest_some low hlow := by
    obtain ⟨hmem, hleast⟩ := List.min?_eq_some_iff.1 hlow
    constructor
    · obtain ⟨entry, hentry, hscore⟩ := List.mem_filterMap.1 hmem
      obtain ⟨o, -, rfl⟩ := List.mem_map.1 hentry
      exact ⟨_, hentry, o.isReport_of_score? hscore, hscore⟩
    · intro entry hentry score hscore
      exact hleast score (List.mem_filterMap.2 ⟨entry, hentry, hscore⟩)
  below threshold := by
    rw [s.below_ne_nil_iff, s.figures_toJson]
  printed := Render.render_summary s

open Source

/-- However many jobs review files, they come to one summary, whose totals agree with its entries.
The one exception is a file without a role, which leaves all files without a summary. -/
theorem comesTo_totals (fs : FileSystem) (jobs : Nat) {paths : List String}
    (hnull : ∀ path ∈ paths, hasNull path = false) :
    (∃ s entries, (∀ r, ComesTo fs jobs paths r ↔ r = .ok s.outcomes) ∧ Totals paths s entries) ∨
      (∃ path ∈ paths, Lost fs path) ∧
        ∀ r, ComesTo fs jobs paths r ↔ r = .error .lostDirectory := by
  by_cases hlost : ∃ path ∈ paths, Lost fs path
  · refine .inr ⟨hlost, fun r => ?_⟩
    rw [comesTo_iff_mapM, mapM_outcome_of_lost hnull hlost, eq_comm]
  · obtain ⟨outcomes, hall, hplaces⟩ := mapM_outcome_ok fun path hpath =>
      reviewable_iff.2 ⟨hnull path hpath, fun h => hlost ⟨path, hpath, h⟩⟩
    refine .inl ⟨⟨outcomes⟩, _, fun r => ?_, totals_of_inPlace hplaces⟩
    rw [comesTo_iff_mapM, hall, eq_comm]

/-- Two jobs review a file with a wait in it, a missing file, and the first one again. -/
theorem comesTo_totals_repeated :
    (∀ path ∈ ["a.ts", "b.ts", "a.ts"], hasNull path = false) ∧
      ∃ s entries, ComesTo (waitAfter "\n") 2 ["a.ts", "b.ts", "a.ts"] (.ok s.outcomes) ∧
        Totals ["a.ts", "b.ts", "a.ts"] s entries ∧
        Figures.ofEntries entries = ⟨2, 1, 2, 0, some 7⟩ := by
  have hnull : ∀ path ∈ ["a.ts", "b.ts", "a.ts"], hasNull path = false := by decide
  refine ⟨hnull, ?_⟩
  rcases comesTo_totals (waitAfter "\n") 2 hnull with
    ⟨s, entries, hcomes, htotals⟩ | ⟨⟨path, -, hlost⟩, -⟩
  · have hok := (hcomes _).2 rfl
    have hreviewed : (reviewAll (waitAfter "\n") ["a.ts", "b.ts", "a.ts"]).map Prod.fst =
        .ok [.report (Review.content "/" "a.ts" "x\nwaitForTimeout(1)"),
          .failure ⟨"b.ts", "[Errno 2] No such file or directory: 'b.ts'"⟩,
          .report (Review.content "/" "a.ts" "x\nwaitForTimeout(1)")] := by decide +kernel
    have houtcomes := Except.ok.inj (((comesTo_iff _ _ _ _).1 hok).trans hreviewed)
    obtain rfl : s.outcomes.map Outcome.toJson = entries :=
      Value.array.inj (Option.some.inj (s.get?_files.symm.trans htotals.files))
    refine ⟨s, _, hok, htotals, ?_⟩
    rw [houtcomes]
    decide +kernel
  · exact absurd rfl hlost.removed

/-- The files of a run come to a summary whose totals agree with its entries, wherever the current
directory is. -/
def HasTotals (fs : FileSystem) (jobs : Nat) (paths : List String) : Prop :=
  (∀ path ∈ paths, hasNull path = false) →
    ∃ s entries, ComesTo fs jobs paths (.ok s.outcomes) ∧ Totals paths s entries

/-- In a current directory that was removed, a spec above it leaves the files without totals. -/
theorem not_hasTotals_removed :
    ¬ HasTotals Discovery.removedDirectory 2 ["..", "../x.spec.ts"] := by
  intro htotals
  obtain ⟨s, entries, hcomes, -⟩ := htotals (by decide)
  have hreviewable := comesTo_ok_iff.1 ⟨s.outcomes, hcomes⟩ "../x.spec.ts" (by simp)
  exact (reviewable_iff.1 hreviewable).2 lost_removedDirectory

end SuiteLint
