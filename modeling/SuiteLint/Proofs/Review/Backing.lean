import SuiteLint.Proofs.Review.Findings
import SuiteLint.Proofs.Rule.Slashes
import SuiteLint.Proofs.Score

/-!
# Line rules that the layer rules back

Specs are read twice: as they are by the line rules, and without their margins by the layer rules.
The two catalogues are written apart, but some line rules only ever look for texts that hold a
needle of a layer rule. What such a rule reports in a spec, the layer rule reports on the same line,
and the two issues together bound the score.
-/

namespace SuiteLint.Review

open Rule Text

/-! ## Reports of one rule -/

/-- A report has an issue of a rule on a line. -/
def Reports (report : Report) (rule : String) (number : Int) : Prop :=
  ∃ issue ∈ report.issues, issue.rule = rule ∧ issue.line = number

instance (report : Report) (rule : String) (number : Int) :
    Decidable (Reports report rule number) :=
  inferInstanceAs (Decidable (∃ issue ∈ report.issues, _))

theorem passOf_of_fires {rule : String} {line : List Char} (h : Fires rule line) :
    passOf rule = 0 := by
  obtain ⟨r, hr, rfl, -⟩ := h
  exact passOf_lineRule r hr

theorem passOf_of_applies {rule : String} {line : List Char} (h : Applies rule line) :
    passOf rule = 1 := by
  obtain ⟨r, hr, rfl, -⟩ := h
  exact passOf_layerRule r hr

section

variable {cwd path text rule : String} {number : Int}

/-- What is reported on a line of the file. -/
theorem reports_iff (hrule : passOf rule ≠ 2) :
    Reports (content cwd path text) rule number ↔
      ∃ (i : Nat) (line : List Char), number = i + 1 ∧ (lines text.toList)[i]? = some line ∧
        isCommentLine line = false ∧
        (Fires rule line ∨ Role.detect cwd path = .testSpec ∧ Applies rule (trim line)) := by
  constructor
  · intro h
    obtain ⟨issue, hissue, rfl, rfl⟩ := h
    rcases line_of_mem_issues hissue with ⟨hlo, -⟩ | rfl
    · obtain ⟨i, hi⟩ : ∃ i : Nat, issue.line = i + 1 := ⟨(issue.line - 1).toNat, by omega⟩
      obtain ⟨line, hline⟩ :=
        (exists_issue_iff cwd path text issue.rule i).1 ⟨issue, hissue, rfl, hi⟩
      exact ⟨i, line, hi, hline⟩
    · exact absurd passOf_assertionIssue hrule
  · intro h
    obtain ⟨i, line, rfl, hline⟩ := h
    exact (exists_issue_iff cwd path text rule i).2 ⟨line, hline⟩

theorem reports_lineRule_iff (hrule : passOf rule = 0) :
    Reports (content cwd path text) rule number ↔
      ∃ (i : Nat) (line : List Char), number = i + 1 ∧ (lines text.toList)[i]? = some line ∧
        isCommentLine line = false ∧ Fires rule line := by
  have hlayer : ∀ line, ¬ Applies rule (trim line) := by
    intro line h
    have hone := passOf_of_applies h
    omega
  rw [reports_iff (by omega)]
  simp only [hlayer, and_false, or_false]

theorem reports_layerRule_iff (hrule : passOf rule = 1) :
    Reports (content cwd path text) rule number ↔
      Role.detect cwd path = .testSpec ∧ ∃ (i : Nat) (line : List Char), number = i + 1 ∧
        (lines text.toList)[i]? = some line ∧ isCommentLine line = false ∧
        Applies rule (trim line) := by
  have hline : ∀ line, ¬ Fires rule line := by
    intro line h
    have hzero := passOf_of_fires h
    omega
  rw [reports_iff (by omega)]
  simp only [hline, false_or]
  constructor
  · intro h
    obtain ⟨i, line, hnumber, hget, hcomment, hspec, happlies⟩ := h
    exact ⟨hspec, i, line, hnumber, hget, hcomment, happlies⟩
  · intro h
    obtain ⟨hspec, i, line, hnumber, hget, hcomment, happlies⟩ := h
    exact ⟨i, line, hnumber, hget, hcomment, hspec, happlies⟩

end

/-! ## Covered texts -/

/-- A text that holds a needle of a layer rule. The needle is looked for anywhere and has no blanks,
so that trimming a line does not lose it. -/
def Covers (layer text : String) : Prop :=
  ∃ rule ∈ layerRules, rule.name = layer ∧ ∃ needle ∈ rule.needles, needle.atWord = false ∧
    needle.text.any isBlank = false ∧ needle.occursIn text.toList = true

instance (layer text : String) : Decidable (Covers layer text) :=
  inferInstanceAs (Decidable (∃ rule ∈ layerRules, _))

theorem Covers.applies_trim {layer text : String} (h : Covers layer text) {line : List Char}
    (hline : text.toList <:+: line) : Applies layer (trim line) := by
  obtain ⟨rule, hrule, hname, needle, hneedle, hplain, hblank, hoccurs⟩ := h
  obtain ⟨before, after, htext, -⟩ := Needle.occursIn_iff.1 hoccurs
  have hinfix : needle.text <:+: line := List.IsInfix.trans ⟨before, after, htext⟩ hline
  obtain ⟨left, right, htrim⟩ := (infix_trim hblank).2 hinfix
  refine ⟨rule, hrule, hname, List.any_eq_true.2 ⟨needle, hneedle, Needle.occursIn_iff.2 ?_⟩⟩
  refine ⟨left, right, htrim, fun hat => ?_⟩
  rw [hplain] at hat
  exact absurd hat Bool.false_ne_true

/-- Whatever a line rule finds, a layer rule finds without the margins of the line. -/
def Backs (layer rule : String) : Prop :=
  ∀ line, Fires rule line → Applies layer (trim line)

theorem covers_locatorCalls : ∀ call ∈ locatorCalls, Covers "locator_in_test" call := by
  decide +kernel

theorem covers_awaitedActions :
    ∀ action ∈ awaitedActions, Covers "action_in_test" (methodCall action) := by
  decide +kernel

theorem covers_awaitedAssertion : Covers "assertion_in_test" "expect(await " := by
  decide +kernel

theorem covers_xpathCall : Covers "locator_in_test" "xpath(" := by
  decide +kernel

theorem backs_badLocator : Backs "locator_in_test" "bad_locator" := by
  intro line h
  have hfound : (badLocator? line).isSome :=
    (fires_iff (show lineRules[0] ∈ lineRules from List.getElem_mem _)).1 h
  unfold badLocator? at hfound
  split at hfound
  · rename_i hcalls
    obtain ⟨call, hcall, hcontains⟩ := List.any_eq_true.1 hcalls
    exact (covers_locatorCalls call hcall).applies_trim (contains_iff.1 hcontains)
  · exact absurd hfound nofun

theorem backs_missingAwait : Backs "action_in_test" "missing_await" := by
  intro line h
  have hfound : (missingAwait? line).isSome :=
    (fires_iff (show lineRules[3] ∈ lineRules from List.getElem_mem _)).1 h
  unfold missingAwait? at hfound
  split at hfound
  · exact absurd hfound nofun
  · obtain ⟨action, haction, hcontains⟩ := List.find?_isSome.1 hfound
    exact (covers_awaitedActions action haction).applies_trim (contains_iff.1 hcontains)

theorem backs_weakVisibility : Backs "assertion_in_test" "weak_visibility_assertion" := by
  intro line h
  have hfound : (mark (hasWeakVisibility line)).isSome :=
    (fires_iff (show lineRules[2] ∈ lineRules from List.getElem_mem _)).1 h
  rw [isSome_mark, hasWeakVisibility, Bool.and_eq_true] at hfound
  exact covers_awaitedAssertion.applies_trim (contains_iff.1 hfound.1)

/-- In a spec, what a backed rule reports is reported by the layer rule too, on the same line. -/
theorem Backs.reports {layer rule : String} (h : Backs layer rule) {cwd path text : String}
    (hspec : Role.detect cwd path = .testSpec) (hrule : passOf rule = 0) (hlayer : passOf layer = 1)
    {number : Int} (hreports : Reports (content cwd path text) rule number) :
    Reports (content cwd path text) layer number := by
  obtain ⟨i, line, hnumber, hget, hcomment, hfires⟩ := (reports_lineRule_iff hrule).1 hreports
  exact (reports_layerRule_iff hlayer).2 ⟨hspec, i, line, hnumber, hget, hcomment, h line hfires⟩

/-! ## What the rules cost -/

/-- The points that an issue of each rule costs. -/
def costs : List (String × Nat) :=
  lineRules.map (fun rule => (rule.name, rule.severity.penalty)) ++
    layerRules.map (fun rule => (rule.name, LayerRule.severity.penalty)) ++
    [(assertionIssue.rule, assertionIssue.penalty)]

def cost (rule : String) : Nat :=
  (costs.lookup rule).getD 0

theorem cost_lineRule : ∀ rule ∈ lineRules, cost rule.name = rule.severity.penalty := by decide

theorem cost_layerRule : ∀ rule ∈ layerRules, cost rule.name = LayerRule.severity.penalty := by
  decide

/-- Every issue of a report costs what its rule costs. -/
theorem penalty_eq_cost {cwd path text : String} {issue : Issue}
    (h : issue ∈ (content cwd path text).issues) : issue.penalty = cost issue.rule := by
  rcases mem_issues.1 h with h | h | h
  · rw [lineIssues_eq_pass] at h
    obtain ⟨i, line, -, hissue⟩ := mem_pass.1 h
    obtain ⟨-, rule, hrule, hfound⟩ := mem_lineIssues.1 hissue
    obtain ⟨cited, -, rfl⟩ := Option.map_eq_some_iff.1 hfound
    rw [cost_lineRule rule hrule]
    exact Issue.penalty_of_label rfl
  · rw [layerIssues_eq_pass] at h
    split at h
    · obtain ⟨i, line, -, hissue⟩ := mem_pass.1 h
      obtain ⟨-, rule, hrule, -, rfl⟩ := mem_specLineIssues.1 hissue
      rw [LayerRule.issue, cost_layerRule rule hrule]
      exact Issue.penalty_of_label rfl
    · exact absurd h List.not_mem_nil
  · rw [of_mem_fileIssues h]
    decide

/-- Issues of two rules bound the score by what they cost together. -/
theorem score_le_of_reports {cwd path text rule rule' : String} {number number' : Int}
    (h : Reports (content cwd path text) rule number)
    (h' : Reports (content cwd path text) rule' number') (hne : rule ≠ rule') {points : Nat}
    (hpoints : points ≤ cost rule + cost rule') :
    (content cwd path text).score ≤ max 0 (10 - (points : Int)) := by
  obtain ⟨a, ha, rfl, -⟩ := h
  obtain ⟨b, hb, rfl, -⟩ := h'
  have hab : a ≠ b := fun he => hne (congrArg Issue.rule he)
  have hcosts := penalty_add_le_totalPenalty ha hb hab
  rw [penalty_eq_cost ha, penalty_eq_cost hb] at hcosts
  change max 0 (10 - (totalPenalty (content cwd path text).issues : Int)) ≤ _
  omega

/-! ## Specs -/

/-- In a spec, raw selectors, calls without `await` and weak assertions are always reported by the
layer rules too, on the same line, and so are calls of `xpath`. So the first two leave a spec at
most 4 points, the third at most 6. -/
theorem content_backed {cwd path : String} (hspec : Role.detect cwd path = .testSpec)
    (text : String) :
    let report := content cwd path text
    (∀ number, Reports report "bad_locator" number → Reports report "locator_in_test" number) ∧
    (∀ number, Reports report "missing_await" number → Reports report "action_in_test" number) ∧
    (∀ number, Reports report "weak_visibility_assertion" number →
      Reports report "assertion_in_test" number) ∧
    (∀ (i : Nat) (line : List Char), (lines text.toList)[i]? = some line →
      "xpath(".toList <:+: line → Reports report "xpath" (i + 1) →
      Reports report "locator_in_test" (i + 1)) ∧
    ((∃ number, Reports report "bad_locator" number ∨ Reports report "missing_await" number) →
      report.score ≤ 4) ∧
    ((∃ number, Reports report "weak_visibility_assertion" number) → report.score ≤ 6) := by
  have hlocator {number : Int} (h : Reports (content cwd path text) "bad_locator" number) :
      Reports (content cwd path text) "locator_in_test" number :=
    backs_badLocator.reports hspec (by decide) (by decide) h
  have haction {number : Int} (h : Reports (content cwd path text) "missing_await" number) :
      Reports (content cwd path text) "action_in_test" number :=
    backs_missingAwait.reports hspec (by decide) (by decide) h
  have hassertion {number : Int}
      (h : Reports (content cwd path text) "weak_visibility_assertion" number) :
      Reports (content cwd path text) "assertion_in_test" number :=
    backs_weakVisibility.reports hspec (by decide) (by decide) h
  refine ⟨fun _ => hlocator, fun _ => haction, fun _ => hassertion, ?_, ?_, ?_⟩
  · intro i line hget hcall hreports
    obtain ⟨j, line', hnumber, hget', hcomment, -⟩ :=
      (reports_lineRule_iff (by decide)).1 hreports
    obtain rfl : i = j := by omega
    obtain rfl : line = line' := Option.some.inj (hget.symm.trans hget')
    exact (reports_layerRule_iff (by decide)).2
      ⟨hspec, i, line, rfl, hget, hcomment, covers_xpathCall.applies_trim hcall⟩
  · intro h
    obtain ⟨number, h | h⟩ := h
    · exact score_le_of_reports h (hlocator h) (by decide) (show 6 ≤ _ by decide)
    · exact score_le_of_reports h (haction h) (by decide) (show 6 ≤ _ by decide)
  · intro h
    obtain ⟨number, h⟩ := h
    exact score_le_of_reports h (hassertion h) (by decide) (show 4 ≤ _ by decide)

/-- A spec with one backed finding of each kind, behind margins that the layer rules do not see. -/
def backedSpec : String :=
  "\t$('#menu').fill('x') \n  expect(await save.isVisible())\nxpath('//a')"

theorem content_backed_spec :
    Role.detect "/suite" "tests/menu.spec.ts" = .testSpec ∧
    Reports (content "/suite" "tests/menu.spec.ts" backedSpec) "bad_locator" 1 ∧
    Reports (content "/suite" "tests/menu.spec.ts" backedSpec) "locator_in_test" 1 ∧
    (content "/suite" "tests/menu.spec.ts" backedSpec).score ≤ 4 := by
  have hspec : Role.detect "/suite" "tests/menu.spec.ts" = .testSpec := by decide +kernel
  have hreports : Reports (content "/suite" "tests/menu.spec.ts" backedSpec) "bad_locator" 1 := by
    decide +kernel
  obtain ⟨hlocator, -, -, -, hscore, -⟩ := content_backed hspec backedSpec
  exact ⟨hspec, hreports, hlocator 1 hreports, hscore ⟨1, .inl hreports⟩⟩

end SuiteLint.Review
