import SuiteLint.Proofs.Review.Findings
import SuiteLint.Proofs.Rule.Structure
import SuiteLint.Proofs.Score

/-!
# Reviewing a text in two parts

When a text is cut at a line end, the report of the whole can be put together from the reports of
the parts: the findings on lines follow each other, those of the second part moved down by the
lines of the first, and the two checks on whole files combine what they have found in each part.
No pattern of a whole-file check gains or loses a match at the cut, since none reaches over a line
end.
-/

namespace SuiteLint.Review

open Rule Text

/-- The issue, a number of lines further down. -/
def issueBelow (k : Nat) (issue : Issue) : Issue :=
  { issue with line := issue.line + k }

/-- The good sign, a number of lines further down. -/
def positiveBelow (k : Nat) (sign : Positive) : Positive :=
  { sign with line := sign.line + k }

/-- The issues of a report that a pass has found. -/
def ofPass (p : Nat) (report : Report) : List Issue :=
  report.issues.filter fun issue => passOf issue.rule == p

/-- The good signs of a report that stand on lines. -/
def onLines (report : Report) : List Positive :=
  report.positives.filter fun sign => decide (1 ≤ sign.line)

/-- Whether a report has an issue of a rule. -/
def carries (rule : String) (report : Report) : Bool :=
  report.issues.any (·.rule == rule)

/-! ## What a report holds of each pass -/

theorem filter_pass_eq_self {issues : List Issue} {p : Nat}
    (h : ∀ issue ∈ issues, passOf issue.rule = p) :
    (issues.filter fun issue => passOf issue.rule == p) = issues :=
  List.filter_eq_self.2 fun issue hissue => beq_iff_eq.2 (h issue hissue)

theorem filter_pass_eq_nil {issues : List Issue} {p q : Nat} (hne : p ≠ q)
    (h : ∀ issue ∈ issues, passOf issue.rule = p) :
    (issues.filter fun issue => passOf issue.rule == q) = [] :=
  List.filter_eq_nil_iff.2 fun issue hissue he =>
    hne ((h issue hissue).symm.trans (beq_iff_eq.1 he))

section Content

variable (cwd path text : String)

theorem issues_content : (content cwd path text).issues =
    Review.lineIssues (lines text.toList) ++
      layerIssues (Role.detect cwd path) (lines text.toList) ++ fileIssues path text.toList := rfl

theorem ofPass_zero_content :
    ofPass 0 (content cwd path text) = Review.lineIssues (lines text.toList) := by
  rw [ofPass, issues_content, List.filter_append, List.filter_append,
    filter_pass_eq_self fun _ h => (of_mem_passIssues h).1,
    filter_pass_eq_nil (by decide) fun _ h => (of_mem_layerIssues h).1,
    filter_pass_eq_nil (by decide) fun _ h => passOf_of_mem_fileIssues h,
    List.append_nil, List.append_nil]

theorem ofPass_one_content :
    ofPass 1 (content cwd path text) =
      layerIssues (Role.detect cwd path) (lines text.toList) := by
  rw [ofPass, issues_content, List.filter_append, List.filter_append,
    filter_pass_eq_nil (by decide) fun _ h => (of_mem_passIssues h).1,
    filter_pass_eq_self fun _ h => (of_mem_layerIssues h).1,
    filter_pass_eq_nil (by decide) fun _ h => passOf_of_mem_fileIssues h,
    List.nil_append, List.append_nil]

theorem onLines_content :
    onLines (content cwd path text) =
      if recordsPositives (Role.detect cwd path == .testSpec) (Role.isPageObject path) then
        Review.linePositives (lines text.toList) else [] := by
  change ((if _ then Review.linePositives _ else []) ++ filePositives _).filter _ = _
  have hfile : ((filePositives text.toList).filter fun sign => decide (1 ≤ sign.line)) = [] := by
    refine List.filter_eq_nil_iff.2 fun sign hsign => ?_
    rw [of_mem_filePositives hsign]
    decide
  rw [List.filter_append, hfile, List.append_nil]
  split
  · exact List.filter_eq_self.2 fun sign hsign => decide_eq_true (of_mem_passPositives hsign).1
  · rfl

/-- The issue on the whole file is reported for page objects with an assertion. -/
theorem carries_content :
    carries assertionIssue.rule (content cwd path text) =
      (Role.isPageObject path && hasAssertion text.toList) := by
  have hpass {issue : Issue} (h : issue.rule = assertionIssue.rule) : passOf issue.rule = 2 := by
    rw [h, passOf_assertionIssue]
  rw [Bool.eq_iff_iff, carries, List.any_eq_true]
  constructor
  · intro hcarried
    obtain ⟨issue, hissue, hrule⟩ := hcarried
    rw [beq_iff_eq] at hrule
    rcases mem_issues.1 hissue with h | h | h
    · have hzero := (of_mem_passIssues h).1
      rw [hpass hrule] at hzero
      omega
    · have hone := (of_mem_layerIssues h).1
      rw [hpass hrule] at hone
      omega
    · unfold fileIssues at h
      split at h
      · assumption
      · exact absurd h List.not_mem_nil
  · intro h
    refine ⟨assertionIssue, mem_issues.2 (.inr (.inr ?_)), beq_self_eq_true _⟩
    rw [fileIssues, if_pos h]
    exact List.mem_singleton_self _

/-- The good sign on the whole file is noted for independent tests. -/
theorem independenceSign_mem_content :
    independenceSign ∈ (content cwd path text).positives ↔
      testsAreIndependent text.toList = true := by
  rw [mem_positives]
  constructor
  · rintro (⟨-, h⟩ | h)
    · exact absurd (of_mem_passPositives h).1 (by decide)
    · unfold filePositives at h
      split at h
      · assumption
      · exact absurd h List.not_mem_nil
  · intro h
    right
    rw [filePositives, if_pos h]
    exact List.mem_singleton_self _

end Content

/-! ## Line by line -/

theorem lineIssues_add (line : List Char) (number k : Nat) :
    Rule.lineIssues line ((number + k : Nat) : Int) =
      (Rule.lineIssues line number).map (issueBelow k) := by
  unfold Rule.lineIssues
  split
  · rfl
  · rw [List.map_filterMap]
    refine List.filterMap_congr fun rule _ => ?_
    rw [LineRule.issue?, LineRule.issue?, Option.map_map]
    rfl

theorem specLineIssues_add (line : List Char) (number k : Nat) :
    specLineIssues line ((number + k : Nat) : Int) =
      (specLineIssues line number).map (issueBelow k) := by
  dsimp only [specLineIssues]
  split
  · rfl
  · rw [List.map_map]
    rfl

theorem linePositives_add (line : List Char) (number k : Nat) :
    Rule.linePositives line ((number + k : Nat) : Int) =
      (Rule.linePositives line number).map (positiveBelow k) := by
  unfold Rule.linePositives
  split
  · rfl
  · rw [List.map_map]
    rfl

theorem lineIssues_append (ls ms : List (List Char)) :
    Review.lineIssues (ls ++ ms) =
      Review.lineIssues ls ++ (Review.lineIssues ms).map (issueBelow ls.length) := by
  rw [lineIssues_eq_pass, pass_append, pass_add _ issueBelow lineIssues_add]
  rfl

theorem layerIssues_append (role : Role) (ls ms : List (List Char)) :
    layerIssues role (ls ++ ms) =
      layerIssues role ls ++ (layerIssues role ms).map (issueBelow ls.length) := by
  simp only [layerIssues_eq_pass]
  split
  · rw [pass_append, pass_add _ issueBelow specLineIssues_add]
  · rfl

theorem linePositives_append (ls ms : List (List Char)) :
    Review.linePositives (ls ++ ms) =
      Review.linePositives ls ++ (Review.linePositives ms).map (positiveBelow ls.length) := by
  rw [linePositives_eq_pass, pass_append, pass_add _ positiveBelow linePositives_add]
  rfl

/-! ## Penalties -/

theorem totalPenalty_fileIssues (path : String) (text : List Char) :
    totalPenalty (fileIssues path text) =
      if Role.isPageObject path && hasAssertion text then 1 else 0 := by
  unfold fileIssues
  split
  · decide
  · rfl

theorem totalPenalty_content (cwd path text : String) :
    totalPenalty (content cwd path text).issues =
      totalPenalty (ofPass 0 (content cwd path text)) +
      totalPenalty (ofPass 1 (content cwd path text)) +
      if carries assertionIssue.rule (content cwd path text) then 1 else 0 := by
  rw [ofPass_zero_content, ofPass_one_content, carries_content, ← totalPenalty_fileIssues,
    issues_content, totalPenalty_append, totalPenalty_append]

theorem totalPenalty_issuesBelow (k : Nat) (issues : List Issue) :
    totalPenalty (issues.map (issueBelow k)) = totalPenalty issues :=
  totalPenalty_map (f := issueBelow k) (fun _ => rfl) issues

/-! ## The two parts of a text -/

section Parts

variable (cwd path a b : String)

theorem toList_append_newline : (a ++ "\n" ++ b).toList = a.toList ++ '\n' :: b.toList := by
  rw [String.toList_append, String.toList_append, List.append_assoc]
  rfl

theorem lines_toList_append :
    lines (a ++ "\n" ++ b).toList = lines a.toList ++ lines b.toList := by
  rw [toList_append_newline, lines_append_newline]

theorem ofPass_zero_append :
    ofPass 0 (content cwd path (a ++ "\n" ++ b)) =
      ofPass 0 (content cwd path a) ++
        (ofPass 0 (content cwd path b)).map (issueBelow (a.toList.count '\n' + 1)) := by
  rw [ofPass_zero_content, ofPass_zero_content, ofPass_zero_content, lines_toList_append,
    lineIssues_append, length_lines]

theorem ofPass_one_append :
    ofPass 1 (content cwd path (a ++ "\n" ++ b)) =
      ofPass 1 (content cwd path a) ++
        (ofPass 1 (content cwd path b)).map (issueBelow (a.toList.count '\n' + 1)) := by
  rw [ofPass_one_content, ofPass_one_content, ofPass_one_content, lines_toList_append,
    layerIssues_append, length_lines]

theorem onLines_append :
    onLines (content cwd path (a ++ "\n" ++ b)) =
      onLines (content cwd path a) ++
        (onLines (content cwd path b)).map (positiveBelow (a.toList.count '\n' + 1)) := by
  rw [onLines_content, onLines_content, onLines_content, lines_toList_append,
    linePositives_append, length_lines]
  split <;> rfl

theorem carries_append :
    carries assertionIssue.rule (content cwd path (a ++ "\n" ++ b)) =
      (carries assertionIssue.rule (content cwd path a) ||
        carries assertionIssue.rule (content cwd path b)) := by
  rw [carries_content, carries_content, carries_content, toList_append_newline,
    hasAssertion_append_newline, Bool.and_or_distrib_left]

/-- The penalty of the whole, by passes of the parts. -/
theorem totalPenalty_content_append :
    totalPenalty (content cwd path (a ++ "\n" ++ b)).issues =
      totalPenalty (ofPass 0 (content cwd path a)) + totalPenalty (ofPass 1 (content cwd path a)) +
      (totalPenalty (ofPass 0 (content cwd path b)) +
        totalPenalty (ofPass 1 (content cwd path b))) +
      if carries assertionIssue.rule (content cwd path a) ||
        carries assertionIssue.rule (content cwd path b) then 1 else 0 := by
  rw [totalPenalty_content, carries_append, ofPass_zero_append, ofPass_one_append,
    totalPenalty_append, totalPenalty_append, totalPenalty_issuesBelow, totalPenalty_issuesBelow]
  omega

theorem totalPenalty_add :
    totalPenalty (content cwd path (a ++ "\n" ++ b)).issues +
      (if carries assertionIssue.rule (content cwd path a) &&
        carries assertionIssue.rule (content cwd path b) then 1 else 0) =
      totalPenalty (content cwd path a).issues + totalPenalty (content cwd path b).issues := by
  rw [totalPenalty_content_append, totalPenalty_content cwd path a, totalPenalty_content cwd path b]
  cases carries assertionIssue.rule (content cwd path a) <;>
    cases carries assertionIssue.rule (content cwd path b) <;>
    simp only [Bool.or_self, Bool.or_true, Bool.or_false, Bool.and_self, Bool.and_true,
      Bool.and_false, Bool.false_eq_true, ↓reduceIte] <;> omega

theorem totalPenalty_left_le :
    totalPenalty (content cwd path a).issues ≤
      totalPenalty (content cwd path (a ++ "\n" ++ b)).issues := by
  rw [totalPenalty_content_append, totalPenalty_content cwd path a]
  cases carries assertionIssue.rule (content cwd path a) <;>
    simp only [Bool.true_or, Bool.false_eq_true, ↓reduceIte] <;> omega

theorem totalPenalty_right_le :
    totalPenalty (content cwd path b).issues ≤
      totalPenalty (content cwd path (a ++ "\n" ++ b)).issues := by
  rw [totalPenalty_content_append, totalPenalty_content cwd path b]
  cases carries assertionIssue.rule (content cwd path b) <;>
    simp only [Bool.or_true, Bool.false_eq_true, ↓reduceIte] <;> omega

end Parts

/-- The report of a text that is cut at a line end, from the reports of its two parts. -/
theorem content_append_newline (cwd path a b : String) :
    let k := a.toList.count '\n' + 1
    let reportA := content cwd path a
    let reportB := content cwd path b
    let report := content cwd path (a ++ "\n" ++ b)
    ofPass 0 report = ofPass 0 reportA ++ (ofPass 0 reportB).map (issueBelow k) ∧
    ofPass 1 report = ofPass 1 reportA ++ (ofPass 1 reportB).map (issueBelow k) ∧
    onLines report = onLines reportA ++ (onLines reportB).map (positiveBelow k) ∧
    carries "page_object_assertions" report =
      (carries "page_object_assertions" reportA || carries "page_object_assertions" reportB) ∧
    (independenceSign ∈ report.positives ↔
      1 < testDeclaration.countIn a.toList + testDeclaration.countIn b.toList ∧
      (sharedSetUp.countIn a.toList = 0 ∧ sharedSetUp.countIn b.toList = 0) ∧
      contains "test.use" a.toList = false ∧ contains "test.use" b.toList = false) ∧
    totalPenalty report.issues +
      (if carries "page_object_assertions" reportA && carries "page_object_assertions" reportB
        then 1 else 0) =
      totalPenalty reportA.issues + totalPenalty reportB.issues ∧
    report.score ≤ min reportA.score reportB.score := by
  refine ⟨ofPass_zero_append cwd path a b, ofPass_one_append cwd path a b,
    onLines_append cwd path a b, carries_append cwd path a b, ?_, totalPenalty_add cwd path a b, ?_⟩
  · rw [independenceSign_mem_content, toList_append_newline]
    exact testsAreIndependent_append_newline a.toList b.toList
  · exact le_min (score_le_score (totalPenalty_left_le cwd path a b))
      (score_le_score (totalPenalty_right_le cwd path a b))

end SuiteLint.Review
