import Mathlib.Data.List.Nodup
import SuiteLint.Proofs.Review.Passes
import SuiteLint.Proofs.Text.Blank

/-!
# The findings of a review

A report collects the findings of three passes. This file says which findings it holds and in
which order: each rule reports at most once for a line, line 0 is kept for the findings on whole
files, and the issues are sorted by pass, then by line, then by the place of their rule in the
catalogue. The patterns of the single rules do not matter here.
-/

namespace SuiteLint.Review

open Rule Text

/-- The names of all rules, pass by pass, in the order in which they report. -/
def catalogue : List (List String) :=
  [lineRules.map (·.name), layerRules.map (·.name), [assertionIssue.rule]]

/-- The pass that a rule belongs to: 0 for lines, 1 for layers, 2 for whole files. -/
def passOf (rule : String) : Nat :=
  catalogue.findIdx (·.contains rule)

/-- The place of a rule among the rules of its pass. -/
def placeOf (rule : String) : Nat :=
  (catalogue.getD (passOf rule) []).idxOf rule

example : passOf "xpath" = 0 ∧ placeOf "xpath" = 5 ∧ passOf "action_in_test" = 1 ∧
    placeOf "action_in_test" = 1 ∧ passOf "page_object_assertions" = 2 := by decide

/-- The order of issues in a report: by pass, then by line, then by place in the catalogue. -/
def Precedes (a b : Issue) : Prop :=
  passOf a.rule < passOf b.rule ∨ passOf a.rule = passOf b.rule ∧
    (a.line < b.line ∨ a.line = b.line ∧ placeOf a.rule < placeOf b.rule)

/-- Whether the line rule of a name finds something on a line. -/
def Fires (rule : String) (line : List Char) : Prop :=
  ∃ r ∈ lineRules, r.name = rule ∧ (r.find? line).isSome

/-- Whether the layer rule of a name applies to a line. -/
def Applies (rule : String) (line : List Char) : Prop :=
  ∃ r ∈ layerRules, r.name = rule ∧ r.applies line = true

/-- Whether the good practice of a description shows on a line. -/
def Shows (description : String) (line : List Char) : Prop :=
  ∃ practice ∈ practices, practice.description = description ∧ contains practice.text line = true

/-- The name of a line rule stands for that rule only. -/
theorem fires_iff {rule : LineRule} (h : rule ∈ lineRules) {line : List Char} :
    Fires rule.name line ↔ (rule.find? line).isSome := by
  have hnames : (lineRules.map (·.name)).Nodup := by decide
  constructor
  · intro hfires
    obtain ⟨r, hr, hname, hfound⟩ := hfires
    rwa [List.inj_on_of_nodup_map hnames hr h hname] at hfound
  · intro hfound
    exact ⟨rule, h, rfl, hfound⟩

/-- The name of a layer rule stands for that rule only. -/
theorem applies_iff {rule : LayerRule} (h : rule ∈ layerRules) {line : List Char} :
    Applies rule.name line ↔ rule.applies line = true := by
  have hnames : (layerRules.map (·.name)).Nodup := by decide
  constructor
  · intro happlies
    obtain ⟨r, hr, hname, hfound⟩ := happlies
    rwa [List.inj_on_of_nodup_map hnames hr h hname] at hfound
  · intro hfound
    exact ⟨rule, h, rfl, hfound⟩

/-- Issues in the order of a report are never of one rule and on one line. -/
theorem Precedes.ne {a b : Issue} (h : Precedes a b) : ¬(a.rule = b.rule ∧ a.line = b.line) := by
  intro hsame
  obtain ⟨hrule, hline⟩ := hsame
  unfold Precedes at h
  rw [hrule, hline] at h
  omega

/-! ## The findings of one line -/

theorem isCommentLine_trim (line : List Char) : isCommentLine (trim line) = isCommentLine line := by
  rw [isCommentLine, trim_trim, isCommentLine]

theorem mem_lineIssues {issue : Issue} {line : List Char} {number : Int} :
    issue ∈ Rule.lineIssues line number ↔ isCommentLine line = false ∧
      ∃ rule ∈ lineRules, rule.issue? line number = some issue := by
  unfold Rule.lineIssues
  cases isCommentLine line <;> simp

theorem of_issue?_eq_some {rule : LineRule} {issue : Issue} {line : List Char} {number : Int}
    (h : rule.issue? line number = some issue) :
    issue.rule = rule.name ∧ issue.line = number ∧ (rule.find? line).isSome := by
  obtain ⟨cited, hfind, rfl⟩ := Option.map_eq_some_iff.1 h
  exact ⟨rfl, rfl, by rw [hfind]; rfl⟩

theorem mem_specLineIssues {issue : Issue} {line : List Char} {number : Int} :
    issue ∈ specLineIssues line number ↔ isCommentLine line = false ∧
      ∃ rule ∈ layerRules, rule.applies (trim line) = true ∧ rule.issue number = issue := by
  simp only [specLineIssues, isCommentLine_trim]
  cases isCommentLine line <;> simp [and_assoc]

theorem mem_linePositives {sign : Positive} {line : List Char} {number : Int} :
    sign ∈ Rule.linePositives line number ↔ isCommentLine line = false ∧
      ∃ practice ∈ practices, contains practice.text line = true ∧
        ⟨practice.description, number⟩ = sign := by
  unfold Rule.linePositives
  cases isCommentLine line <;> simp [and_assoc]

theorem passOf_lineRule : ∀ rule ∈ lineRules, passOf rule.name = 0 := by decide

theorem passOf_layerRule : ∀ rule ∈ layerRules, passOf rule.name = 1 := by decide

theorem passOf_assertionIssue : passOf assertionIssue.rule = 2 := by decide

theorem pairwise_placeOf_lineRules :
    lineRules.Pairwise fun a b => placeOf a.name < placeOf b.name := by decide

theorem pairwise_placeOf_layerRules :
    layerRules.Pairwise fun a b => placeOf a.name < placeOf b.name := by decide

theorem of_mem_lineIssues {issue : Issue} {line : List Char} {number : Int}
    (h : issue ∈ Rule.lineIssues line number) : passOf issue.rule = 0 ∧ issue.line = number := by
  obtain ⟨-, rule, hrule, hissue⟩ := mem_lineIssues.1 h
  obtain ⟨hname, hline, -⟩ := of_issue?_eq_some hissue
  rw [hname]
  exact ⟨passOf_lineRule rule hrule, hline⟩

theorem of_mem_specLineIssues {issue : Issue} {line : List Char} {number : Int}
    (h : issue ∈ specLineIssues line number) : passOf issue.rule = 1 ∧ issue.line = number := by
  obtain ⟨-, rule, hrule, -, rfl⟩ := mem_specLineIssues.1 h
  exact ⟨passOf_layerRule rule hrule, rfl⟩

theorem of_mem_fileIssues {issue : Issue} {path : String} {text : List Char}
    (h : issue ∈ fileIssues path text) : issue = assertionIssue := by
  unfold fileIssues at h
  split at h
  · exact List.mem_singleton.1 h
  · exact absurd h List.not_mem_nil

theorem of_mem_filePositives {sign : Positive} {text : List Char}
    (h : sign ∈ filePositives text) : sign = independenceSign := by
  unfold filePositives at h
  split at h
  · exact List.mem_singleton.1 h
  · exact absurd h List.not_mem_nil

/-- The issues of one line stand in the order of the catalogue. -/
theorem pairwise_lineIssues (line : List Char) (number : Int) :
    (Rule.lineIssues line number).Pairwise Precedes := by
  unfold Rule.lineIssues
  split
  · exact List.Pairwise.nil
  rw [List.pairwise_filterMap]
  refine pairwise_placeOf_lineRules.imp_of_mem ?_
  intro a b ha hb hplace x hx y hy
  obtain ⟨hxn, hxl, -⟩ := of_issue?_eq_some hx
  obtain ⟨hyn, hyl, -⟩ := of_issue?_eq_some hy
  refine .inr ⟨?_, .inr ⟨hxl.trans hyl.symm, ?_⟩⟩
  · rw [hxn, hyn, passOf_lineRule a ha, passOf_lineRule b hb]
  · rwa [hxn, hyn]

theorem pairwise_specLineIssues (line : List Char) (number : Int) :
    (specLineIssues line number).Pairwise Precedes := by
  dsimp only [specLineIssues]
  split
  · exact List.Pairwise.nil
  rw [List.pairwise_map]
  refine (pairwise_placeOf_layerRules.sublist List.filter_sublist).imp_of_mem ?_
  intro a b ha hb hplace
  refine .inr ⟨?_, .inr ⟨rfl, hplace⟩⟩
  exact (passOf_layerRule a (List.mem_of_mem_filter ha)).trans
    (passOf_layerRule b (List.mem_of_mem_filter hb)).symm

theorem pairwise_linePositives (line : List Char) (number : Int) :
    (Rule.linePositives line number).Pairwise
      fun a b => ¬(a.description = b.description ∧ a.line = b.line) := by
  unfold Rule.linePositives
  split
  · exact List.Pairwise.nil
  rw [List.pairwise_map]
  have hpractices : practices.Pairwise fun a b => a.description ≠ b.description := by decide
  exact (hpractices.sublist List.filter_sublist).imp fun hne h => hne h.1

/-! ## The findings of a file -/

/-- Every issue of a pass over the lines belongs to that pass and to one of the lines. -/
theorem of_mem_pass {report : List Char → Int → List Issue} {p : Nat} {lines : List (List Char)}
    (hreport : ∀ line number, ∀ issue ∈ report line number,
      passOf issue.rule = p ∧ issue.line = number)
    {issue : Issue} (h : issue ∈ pass 1 report lines) :
    passOf issue.rule = p ∧ 1 ≤ issue.line ∧ issue.line ≤ lines.length := by
  obtain ⟨i, line, hline, hissue⟩ := mem_pass.1 h
  obtain ⟨hpass, hnumber⟩ := hreport line _ issue hissue
  obtain ⟨hi, -⟩ := List.getElem?_eq_some_iff.1 hline
  exact ⟨hpass, by omega, by omega⟩

theorem of_mem_passIssues {lines : List (List Char)} {issue : Issue}
    (h : issue ∈ Review.lineIssues lines) :
    passOf issue.rule = 0 ∧ 1 ≤ issue.line ∧ issue.line ≤ lines.length := by
  rw [lineIssues_eq_pass] at h
  exact of_mem_pass (fun _ _ _ => of_mem_lineIssues) h

theorem of_mem_layerIssues {role : Role} {lines : List (List Char)} {issue : Issue}
    (h : issue ∈ layerIssues role lines) :
    passOf issue.rule = 1 ∧ 1 ≤ issue.line ∧ issue.line ≤ lines.length := by
  rw [layerIssues_eq_pass] at h
  split at h
  · exact of_mem_pass (fun _ _ _ => of_mem_specLineIssues) h
  · exact absurd h List.not_mem_nil

theorem passOf_of_mem_fileIssues {path : String} {text : List Char} {issue : Issue}
    (h : issue ∈ fileIssues path text) : passOf issue.rule = 2 := by
  rw [of_mem_fileIssues h, passOf_assertionIssue]

/-- The issues of a pass over the lines stand in order if those of each line do. -/
theorem pairwise_pass_precedes {report : List Char → Int → List Issue} {p : Nat}
    (hreport : ∀ line number, ∀ issue ∈ report line number,
      passOf issue.rule = p ∧ issue.line = number)
    (hline : ∀ line number, (report line number).Pairwise Precedes) (lines : List (List Char)) :
    (pass 1 report lines).Pairwise Precedes := by
  refine pairwise_pass (fun line number => hline line number) ?_ lines
  intro line line' number number' hlt a ha b hb
  obtain ⟨hpa, hla⟩ := hreport _ _ a ha
  obtain ⟨hpb, hlb⟩ := hreport _ _ b hb
  exact .inr ⟨hpa.trans hpb.symm, .inl (by omega)⟩

theorem pairwise_layerIssues (role : Role) (lines : List (List Char)) :
    (layerIssues role lines).Pairwise Precedes := by
  rw [layerIssues_eq_pass]
  split
  · exact pairwise_pass_precedes (fun _ _ _ => of_mem_specLineIssues) pairwise_specLineIssues lines
  · exact List.Pairwise.nil

theorem pairwise_fileIssues (path : String) (text : List Char) :
    (fileIssues path text).Pairwise Precedes := by
  unfold fileIssues
  split
  · exact List.pairwise_singleton _ _
  · exact List.Pairwise.nil

/-- The issues of a report are strictly sorted. -/
theorem pairwise_issues (cwd path text : String) :
    (content cwd path text).issues.Pairwise Precedes := by
  change (Review.lineIssues _ ++ layerIssues _ _ ++ fileIssues _ _).Pairwise Precedes
  refine List.pairwise_append.2 ⟨List.pairwise_append.2 ⟨?_, pairwise_layerIssues _ _, ?_⟩,
    pairwise_fileIssues _ _, ?_⟩
  · rw [lineIssues_eq_pass]
    exact pairwise_pass_precedes (fun _ _ _ => of_mem_lineIssues) pairwise_lineIssues _
  · intro a ha b hb
    have hpa := (of_mem_passIssues ha).1
    have hpb := (of_mem_layerIssues hb).1
    exact .inl (by omega)
  · intro a ha b hb
    have hpb := passOf_of_mem_fileIssues hb
    rcases List.mem_append.1 ha with ha | ha
    · have hpa := (of_mem_passIssues ha).1
      exact .inl (by omega)
    · have hpa := (of_mem_layerIssues ha).1
      exact .inl (by omega)

theorem mem_issues {cwd path text : String} {issue : Issue} :
    issue ∈ (content cwd path text).issues ↔
      issue ∈ Review.lineIssues (lines text.toList) ∨
      issue ∈ layerIssues (Role.detect cwd path) (lines text.toList) ∨
      issue ∈ fileIssues path text.toList := by
  change issue ∈ Review.lineIssues _ ++ layerIssues _ _ ++ fileIssues _ _ ↔ _
  rw [List.mem_append, List.mem_append, or_assoc]

theorem mem_positives {cwd path text : String} {sign : Positive} :
    sign ∈ (content cwd path text).positives ↔
      (Role.detect cwd path ≠ .testSpec ∨ Role.isPageObject path = true) ∧
        sign ∈ Review.linePositives (lines text.toList) ∨
      sign ∈ filePositives text.toList := by
  change sign ∈ (if recordsPositives (Role.detect cwd path == .testSpec) (Role.isPageObject path)
    then Review.linePositives _ else []) ++ filePositives _ ↔ _
  rw [List.mem_append]
  by_cases hspec : Role.detect cwd path = .testSpec <;> cases hpage : Role.isPageObject path <;>
    simp [recordsPositives, hspec]

/-- The line of an issue is one of the file, or 0 for the issue on the whole file. -/
theorem line_of_mem_issues {cwd path text : String} {issue : Issue}
    (h : issue ∈ (content cwd path text).issues) :
    1 ≤ issue.line ∧ issue.line ≤ (lines text.toList).length ∨ issue = assertionIssue := by
  rcases mem_issues.1 h with h | h | h
  · exact .inl (of_mem_passIssues h).2
  · exact .inl (of_mem_layerIssues h).2
  · exact .inr (of_mem_fileIssues h)

theorem of_mem_passPositives {lines : List (List Char)} {sign : Positive}
    (h : sign ∈ Review.linePositives lines) : 1 ≤ sign.line ∧ sign.line ≤ lines.length := by
  rw [linePositives_eq_pass] at h
  obtain ⟨i, line, hline, hsign⟩ := mem_pass.1 h
  obtain ⟨-, practice, -, -, rfl⟩ := mem_linePositives.1 hsign
  obtain ⟨hi, -⟩ := List.getElem?_eq_some_iff.1 hline
  dsimp only
  omega

theorem line_of_mem_positives {cwd path text : String} {sign : Positive}
    (h : sign ∈ (content cwd path text).positives) :
    1 ≤ sign.line ∧ sign.line ≤ (lines text.toList).length ∨ sign = independenceSign := by
  rcases mem_positives.1 h with ⟨-, h⟩ | h
  · exact .inl (of_mem_passPositives h)
  · exact .inr (of_mem_filePositives h)

/-- No good sign is noted twice for a line. -/
theorem pairwise_positives (cwd path text : String) :
    (content cwd path text).positives.Pairwise
      fun a b => ¬(a.description = b.description ∧ a.line = b.line) := by
  change ((if _ then Review.linePositives _ else []) ++ filePositives _).Pairwise _
  refine List.pairwise_append.2 ⟨?_, ?_, ?_⟩
  · split
    · rw [linePositives_eq_pass]
      refine pairwise_pass (fun line number => pairwise_linePositives line number) ?_ _
      intro line line' number number' hlt a ha b hb hab
      obtain ⟨-, _, -, -, rfl⟩ := mem_linePositives.1 ha
      obtain ⟨-, _, -, -, rfl⟩ := mem_linePositives.1 hb
      have hline := hab.2
      dsimp only at hline
      omega
    · exact List.Pairwise.nil
  · unfold filePositives
    split
    · exact List.pairwise_singleton _ _
    · exact List.Pairwise.nil
  · intro a ha b hb hab
    split at ha
    · have hline := (of_mem_passPositives ha).1
      rw [hab.2, of_mem_filePositives hb] at hline
      exact absurd hline (by decide)
    · exact absurd ha List.not_mem_nil

/-- An issue stands on a line exactly when the line is no comment and a rule of that name, for
lines or for the lines of specs, has found something there. -/
theorem exists_issue_iff (cwd path text rule : String) (i : Nat) :
    (∃ issue ∈ (content cwd path text).issues, issue.rule = rule ∧ issue.line = i + 1) ↔
      ∃ line, (lines text.toList)[i]? = some line ∧ isCommentLine line = false ∧
        (Fires rule line ∨ Role.detect cwd path = .testSpec ∧ Applies rule (trim line)) := by
  constructor
  · intro hexists
    obtain ⟨issue, hissue, hrule, hline⟩ := hexists
    rcases mem_issues.1 hissue with h | h | h
    · rw [lineIssues_eq_pass] at h
      obtain ⟨j, line, hj, hmem⟩ := mem_pass.1 h
      obtain ⟨hcomment, r, hr, hfound⟩ := mem_lineIssues.1 hmem
      obtain ⟨hname, hnumber, hsome⟩ := of_issue?_eq_some hfound
      obtain rfl : j = i := by omega
      exact ⟨line, hj, hcomment, .inl ⟨r, hr, hname.symm.trans hrule, hsome⟩⟩
    · rw [layerIssues_eq_pass] at h
      split at h
      · rename_i hspec
        obtain ⟨j, line, hj, hmem⟩ := mem_pass.1 h
        obtain ⟨hcomment, r, hr, happlies, rfl⟩ := mem_specLineIssues.1 hmem
        have hnumber : ((1 + j : Nat) : Int) = i + 1 := hline
        obtain rfl : j = i := by omega
        exact ⟨line, hj, hcomment, .inr ⟨hspec, r, hr, hrule, happlies⟩⟩
      · exact absurd h List.not_mem_nil
    · rw [of_mem_fileIssues h] at hline
      have hzero : (0 : Int) = i + 1 := hline
      omega
  · rintro ⟨line, hline, hcomment, ⟨r, hr, hname, hsome⟩ | ⟨hspec, r, hr, hname, happlies⟩⟩
    · obtain ⟨cited, hcited⟩ := Option.isSome_iff_exists.1 hsome
      obtain ⟨issue, hissue⟩ : ∃ issue, r.issue? line ((1 + i : Nat) : Int) = some issue :=
        ⟨_, by rw [LineRule.issue?, hcited]; rfl⟩
      obtain ⟨hrule, hnumber, -⟩ := of_issue?_eq_some hissue
      refine ⟨issue, mem_issues.2 (.inl ?_), hrule.trans hname, by omega⟩
      rw [lineIssues_eq_pass]
      exact mem_pass.2 ⟨i, line, hline, mem_lineIssues.2 ⟨hcomment, r, hr, hissue⟩⟩
    · refine ⟨r.issue ((1 + i : Nat) : Int), mem_issues.2 (.inr (.inl ?_)), hname, ?_⟩
      · rw [layerIssues_eq_pass, if_pos hspec]
        exact mem_pass.2 ⟨i, line, hline, mem_specLineIssues.2 ⟨hcomment, r, hr, happlies, rfl⟩⟩
      · change ((1 + i : Nat) : Int) = i + 1
        omega

/-- A good sign stands on a line exactly when the line is no comment and shows the practice, in a
file whose good signs count. -/
theorem mem_positives_iff (cwd path text description : String) (i : Nat) :
    (⟨description, i + 1⟩ : Positive) ∈ (content cwd path text).positives ↔
      ∃ line, (lines text.toList)[i]? = some line ∧ isCommentLine line = false ∧
        Shows description line ∧
        (Role.detect cwd path ≠ .testSpec ∨ Role.isPageObject path = true) := by
  rw [mem_positives, linePositives_eq_pass]
  constructor
  · rintro (⟨hcounts, h⟩ | h)
    · obtain ⟨j, line, hj, hmem⟩ := mem_pass.1 h
      obtain ⟨hcomment, practice, hpractice, hcontains, hsign⟩ := mem_linePositives.1 hmem
      obtain ⟨hdescription, hnumber⟩ := Positive.mk.inj hsign
      obtain rfl : j = i := by omega
      exact ⟨line, hj, hcomment, ⟨practice, hpractice, hdescription, hcontains⟩, hcounts⟩
    · have hzero : (i : Int) + 1 = 0 := congrArg Positive.line (of_mem_filePositives h)
      omega
  · intro hshown
    obtain ⟨line, hline, hcomment, ⟨practice, hpractice, rfl, hcontains⟩, hcounts⟩ := hshown
    refine .inl ⟨hcounts, mem_pass.2 ⟨i, line, hline, mem_linePositives.2 ⟨hcomment, practice,
      hpractice, hcontains, ?_⟩⟩⟩
    rw [Int.natCast_add, Int.add_comm]
    rfl

/-- The findings of a review: each is reported once, its line is one of the file, whole files have
line 0, lines have exactly the findings of the rules that look at them, and the issues are strictly
sorted by pass, line and place in the catalogue. -/
theorem content_findings (cwd path text : String) :
    let lines := Text.lines text.toList
    let role := Role.detect cwd path
    let report := content cwd path text
    (report.issues.Pairwise fun a b => ¬(a.rule = b.rule ∧ a.line = b.line)) ∧
    (report.positives.Pairwise fun a b =>
      ¬(a.description = b.description ∧ a.line = b.line)) ∧
    (∀ issue ∈ report.issues, 0 ≤ issue.line ∧ issue.line ≤ lines.length ∧
      (issue.line = 0 → issue.rule = "page_object_assertions")) ∧
    (∀ sign ∈ report.positives, 0 ≤ sign.line ∧ sign.line ≤ lines.length ∧
      (sign.line = 0 → sign = independenceSign)) ∧
    (∀ (rule : String) (i : Nat),
      (∃ issue ∈ report.issues, issue.rule = rule ∧ issue.line = i + 1) ↔
        ∃ line, lines[i]? = some line ∧ isCommentLine line = false ∧
          (Fires rule line ∨ role = .testSpec ∧ Applies rule (trim line))) ∧
    (∀ (description : String) (i : Nat),
      (⟨description, i + 1⟩ : Positive) ∈ report.positives ↔
        ∃ line, lines[i]? = some line ∧ isCommentLine line = false ∧ Shows description line ∧
          (role ≠ .testSpec ∨ Role.isPageObject path = true)) ∧
    report.issues.Pairwise Precedes := by
  refine ⟨(pairwise_issues cwd path text).imp Precedes.ne, pairwise_positives cwd path text, ?_, ?_,
    exists_issue_iff cwd path text, mem_positives_iff cwd path text, pairwise_issues cwd path text⟩
  · intro issue hissue
    rcases line_of_mem_issues hissue with ⟨hlo, hhi⟩ | rfl
    · exact ⟨by omega, hhi, fun hzero => by omega⟩
    · exact ⟨by decide, Int.natCast_nonneg _, fun _ => rfl⟩
  · intro sign hsign
    rcases line_of_mem_positives hsign with ⟨hlo, hhi⟩ | rfl
    · exact ⟨by omega, hhi, fun hzero => by omega⟩
    · exact ⟨by decide, Int.natCast_nonneg _, fun _ => rfl⟩

end SuiteLint.Review
