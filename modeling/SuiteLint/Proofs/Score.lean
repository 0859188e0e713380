import Mathlib.Algebra.Order.Ring.Int
import SuiteLint.Report

/-!
# Penalties and scores

The penalties of issues add up, and a higher penalty never gives a higher score. Where every issue
has a known severity, the penalty is told by how many issues there are of each. A list with any
other issue has no score, wherever that issue stands and however low the score already is.
-/

namespace SuiteLint

theorem totalPenalty_append (a b : List Issue) :
    totalPenalty (a ++ b) = totalPenalty a + totalPenalty b := by
  induction a with
  | nil => simp [totalPenalty]
  | cons issue a ih =>
    simp only [totalPenalty, List.cons_append, List.map_cons, List.foldr_cons] at ih ⊢
    omega

theorem totalPenalty_map {f : Issue → Issue} (hf : ∀ issue, (f issue).penalty = issue.penalty)
    (issues : List Issue) : totalPenalty (issues.map f) = totalPenalty issues := by
  rw [totalPenalty, List.map_map]
  exact congrArg (fun g => (issues.map g).foldr (· + ·) 0) (funext hf)

theorem score_le_score {a b : List Issue} (h : totalPenalty a ≤ totalPenalty b) :
    score b ≤ score a := by
  unfold score
  omega

theorem score_nonneg (issues : List Issue) : 0 ≤ score issues := by
  unfold score minScore
  omega

theorem score_le_maxScore (issues : List Issue) : score issues ≤ maxScore := by
  unfold score minScore maxScore
  omega

/-- Two issues of a list cost at least what they cost together. -/
theorem penalty_add_le_totalPenalty {a b : Issue} {issues : List Issue} (ha : a ∈ issues)
    (hb : b ∈ issues) (hne : a ≠ b) : a.penalty + b.penalty ≤ totalPenalty issues := by
  have hcons (issue : Issue) (rest : List Issue) :
      totalPenalty (issue :: rest) = issue.penalty + totalPenalty rest := rfl
  have hmem : ∀ {issue : Issue} {rest : List Issue}, issue ∈ rest →
      issue.penalty ≤ totalPenalty rest := by
    intro issue rest h
    obtain ⟨left, right, rfl⟩ := List.append_of_mem h
    rw [totalPenalty_append, hcons]
    omega
  induction issues with
  | nil => exact absurd ha List.not_mem_nil
  | cons issue issues ih =>
    rw [hcons]
    rcases List.mem_cons.1 ha with rfl | ha'
    · have hle := hmem ((List.mem_cons.1 hb).resolve_left (Ne.symm hne))
      omega
    · rcases List.mem_cons.1 hb with rfl | hb'
      · have hle := hmem ha'
        omega
      · have hle := ih ha' hb'
        omega

theorem Issue.penalty_of_label {issue : Issue} {severity : Severity}
    (h : issue.severity = severity.label) : issue.penalty = severity.penalty := by
  rw [Issue.penalty, Issue.severity?, h]
  cases severity <;> rfl

/-! ## Issues of known severities -/

/-- Every issue has the label of a severity. -/
def Graded (issues : List Issue) : Prop :=
  ∀ issue ∈ issues, ∃ severity : Severity, issue.severity = severity.label

variable {issues : List Issue}

/-- What issues weigh together is told by how many there are of each severity. -/
theorem Graded.sum_weights (h : Graded issues) {weight : Issue → Nat} (unit : Severity → Nat)
    (hweight : ∀ issue severity, issue.severity = Severity.label severity →
      weight issue = unit severity) :
    (issues.map weight).foldr (· + ·) 0 =
      unit .high * issues.countP (·.severity = Severity.high.label) +
        unit .medium * issues.countP (·.severity = Severity.medium.label) := by
  induction issues with
  | nil => rfl
  | cons issue issues ih =>
    obtain ⟨⟨severity, hseverity⟩, hissues⟩ := List.forall_mem_cons.1 h
    rw [List.map_cons, List.foldr_cons, ih hissues, hweight issue severity hseverity,
      List.countP_cons, List.countP_cons, hseverity]
    cases severity <;> simp [Severity.label, Nat.mul_add] <;> omega

theorem Graded.length_eq (h : Graded issues) :
    issues.length = issues.countP (·.severity = Severity.high.label) +
      issues.countP (·.severity = Severity.medium.label) := by
  have hones : (issues.map fun _ => 1).foldr (· + ·) 0 = issues.length := by
    show (issues.map fun _ => 1).sum = issues.length
    rw [List.map_const', List.sum_replicate_nat, Nat.mul_one]
  have hsum := h.sum_weights (fun _ => 1) fun _ _ _ => rfl
  rw [hones] at hsum
  omega

theorem Graded.totalPenalty_eq (h : Graded issues) :
    totalPenalty issues = 3 * issues.countP (·.severity = Severity.high.label) +
      issues.countP (·.severity = Severity.medium.label) := by
  have hsum := h.sum_weights Severity.penalty fun _ _ hseverity => Issue.penalty_of_label hseverity
  rwa [show Severity.medium.penalty = 1 from rfl, Nat.one_mul] at hsum

/-! ## Scores of issues that may come from outside -/

theorem Severity.ofLabel?_eq_none_iff {label : String} :
    ofLabel? label = none ↔ label ≠ Severity.high.label ∧ label ≠ Severity.medium.label := by
  rw [ofLabel?, List.find?_eq_none]
  simp [all, @eq_comm _ label]

/-- A list is refused exactly if one of its issues has a label that names no severity. -/
theorem checkedScore_eq_error_iff (issues : List Issue) :
    (∃ unknown, checkedScore issues = .error unknown) ↔
      ∃ issue ∈ issues,
        issue.severity ≠ Severity.high.label ∧ issue.severity ≠ Severity.medium.label := by
  have hfind : (∃ unknown, checkedScore issues = .error unknown) ↔
      (issues.find? (·.severity?.isNone)).isSome := by
    unfold checkedScore unknownSeverity?
    cases issues.find? (·.severity?.isNone) <;> simp
  rw [hfind, List.find?_isSome]
  simp only [Option.isNone_iff_eq_none, Issue.severity?, Severity.ofLabel?_eq_none_iff]

theorem Graded.unknownSeverity?_eq_none (h : Graded issues) : unknownSeverity? issues = none := by
  rw [unknownSeverity?, Option.map_eq_none_iff, List.find?_eq_none]
  intro issue hissue
  obtain ⟨severity, hseverity⟩ := h issue hissue
  rw [Issue.severity?, hseverity]
  cases severity <;> decide

theorem Graded.checkedScore_eq (h : Graded issues) : checkedScore issues = .ok (score issues) := by
  rw [checkedScore, h.unknownSeverity?_eq_none]

theorem Graded.append {more : List Issue} (h : Graded issues) (hmore : Graded more) :
    Graded (issues ++ more) := by
  intro issue hissue
  rcases List.mem_append.1 hissue with hissue | hissue
  · exact h issue hissue
  · exact hmore issue hissue

theorem Graded.perm {others : List Issue} (h : Graded issues) (hperm : others.Perm issues) :
    Graded others :=
  fun issue hissue => h issue (hperm.mem_iff.1 hissue)

theorem totalPenalty_perm {others : List Issue} (hperm : others.Perm issues) :
    totalPenalty others = totalPenalty issues :=
  (hperm.map Issue.penalty).sum_nat

/-- Issues of known severities all cost something. -/
theorem Graded.totalPenalty_eq_zero_iff (h : Graded issues) :
    totalPenalty issues = 0 ↔ issues = [] := by
  have htotal := h.totalPenalty_eq
  have hlength := h.length_eq
  rw [← List.length_eq_zero_iff]
  omega

/-- The floor at zero is the only thing lost when scores are put together: what two lists cost
together can be told from their scores. -/
theorem score_append (a b : List Issue) :
    score (a ++ b) = max minScore (score a + score b - maxScore) := by
  unfold score minScore maxScore
  rw [totalPenalty_append]
  omega

/-- Scores of lists: a list has one unless an issue of it has an unknown severity. It is told by how
many issues there are of each severity, so their order does not matter; the score of two lists
together is told by their scores; it never rises with more issues, and only a list without issues
keeps all points. -/
theorem checkedScore_algebra (a b : List Issue) :
    ((∃ unknown, checkedScore a = .error unknown) ↔
      ∃ issue ∈ a, issue.severity ≠ "HIGH" ∧ issue.severity ≠ "MEDIUM") ∧
    (Graded a → Graded b → ∃ x y z : Int,
      checkedScore a = .ok x ∧ checkedScore b = .ok y ∧ checkedScore (a ++ b) = .ok z ∧
      x = max 0 (10 - 3 * a.countP (·.severity = "HIGH") - a.countP (·.severity = "MEDIUM")) ∧
      (∀ others, others.Perm a → checkedScore others = .ok x) ∧
      z = max 0 (x + y - 10) ∧
      z ≤ x ∧ z ≤ y ∧ 0 ≤ x ∧ x ≤ 10 ∧ (x = 0 → z = 0) ∧ (x = 10 ↔ a = [])) := by
  refine ⟨checkedScore_eq_error_iff a, fun ha hb => ?_⟩
  have hclosed : score a =
      max 0 (10 - 3 * a.countP (·.severity = "HIGH") - a.countP (·.severity = "MEDIUM")) := by
    rw [score, ha.totalPenalty_eq, minScore, maxScore, Severity.label, Severity.label]
    omega
  have hten : score a = 10 ↔ a = [] := by
    rw [← ha.totalPenalty_eq_zero_iff, score, minScore, maxScore]
    omega
  have happend : score (a ++ b) = max 0 (score a + score b - 10) := score_append a b
  have ha_nonneg := score_nonneg a
  have ha_le := score_le_maxScore a
  have hb_nonneg := score_nonneg b
  have hb_le := score_le_maxScore b
  rw [maxScore] at ha_le hb_le
  refine ⟨score a, score b, score (a ++ b), ha.checkedScore_eq, hb.checkedScore_eq,
    (ha.append hb).checkedScore_eq, hclosed, ?_, happend, by omega, by omega, ha_nonneg, ha_le,
    by omega, hten⟩
  intro others hperm
  rw [(ha.perm hperm).checkedScore_eq, score, totalPenalty_perm hperm, score]

example : checkedScore (List.replicate 4 ⟨"xpath", "HIGH", "", 1, ""⟩) = .ok 0 ∧
    checkedScore (List.replicate 4 ⟨"xpath", "HIGH", "", 1, ""⟩ ++ [⟨"xpath", "LOW", "", 1, ""⟩]) =
      .error (.severity "LOW") := by decide

end SuiteLint
