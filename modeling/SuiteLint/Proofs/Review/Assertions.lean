import SuiteLint.Proofs.Review.Backing
import SuiteLint.Proofs.Review.Concatenation

/-!
# Assertions in page objects and in specs

Assertions are looked for in two ways: in the whole text of a page object, and line by line in specs.
No call of an assertion reaches over a line end and none has blanks, so the two ways agree on every
text. They differ only in comment lines, which count for the whole text and not for its lines.
-/

namespace SuiteLint.Review

open Rule Text Text.Pattern

/-! ## Calls of assertions -/

/-- A text that calls an assertion, hard or soft. -/
def Asserts (s : List Char) : Prop :=
  "expect(".toList <:+: s ∨ "expect.soft(".toList <:+: s

variable {s line : List Char}

/-- What is looked for in a whole text: a call, which may be soft. -/
def assertionCall : Pattern :=
  seq (text "expect") (seq (maybe (text ".soft")) (text "("))

theorem matches_assertionCall :
    assertionCall.Matches s ↔ s = "expect(".toList ∨ s = "expect.soft(".toList := by
  constructor
  · intro h
    obtain ⟨a, rest, ha, hrest, rfl⟩ := matches_seq.1 h
    obtain ⟨b, c, hb, hc, rfl⟩ := matches_seq.1 hrest
    rw [matches_text.1 ha, matches_text.1 hc]
    rcases matches_either.1 hb with hb | hb
    · rw [matches_text.1 hb]
      exact .inr rfl
    · rw [matches_text.1 hb]
      exact .inl rfl
  · intro h
    rcases h with rfl | rfl
    · exact .seq (.text "expect") (.seq (.right (.text "")) (.text "("))
    · exact .seq (.text "expect") (.seq (.left (.text ".soft")) (.text "("))

theorem foundIn_assertionCall : assertionCall.FoundIn s ↔ Asserts s := by
  constructor
  · intro h
    obtain ⟨left, stretch, right, hs, hmatch⟩ := h
    rcases matches_assertionCall.1 hmatch with rfl | rfl
    · exact .inl ⟨left, right, hs⟩
    · exact .inr ⟨left, right, hs⟩
  · intro h
    rcases h with ⟨left, right, hs⟩ | ⟨left, right, hs⟩
    · exact ⟨left, _, right, hs, matches_assertionCall.2 (.inl rfl)⟩
    · exact ⟨left, _, right, hs, matches_assertionCall.2 (.inr rfl)⟩

theorem hasAssertion_iff : hasAssertion s = true ↔ Asserts s := by
  have hor (p q : Cut → Bool) : anyCut (fun k => p k || q k) s = (anyCut p s || anyCut q s) := by
    rw [anyCut_eq_any, anyCut_eq_any, anyCut_eq_any, Bool.eq_iff_iff]
    simp only [List.any_eq_true, Bool.or_eq_true, and_or_left, exists_or]
  have hneedle (literal : String) :
      anyCut (fun k => startsWith literal k.after) s = contains literal s := by
    rw [contains, Needle.occursIn, funext (startsAt_plain literal)]
  have hparts : hasAssertion s = (contains "expect(" s || contains "expect.soft(" s) := by
    rw [← hneedle, ← hneedle, ← hor]
    rfl
  rw [hparts, Bool.or_eq_true, contains_iff, contains_iff, Asserts]

theorem applies_assertion_iff : Applies "assertion_in_test" line ↔ Asserts line := by
  have hrule : Applies "assertion_in_test" line ↔
      (contains "expect(" line || (contains "expect.soft(" line || false)) = true :=
    applies_iff (show layerRules[2] ∈ layerRules from List.getElem_mem _)
  rw [hrule, Bool.or_false, Bool.or_eq_true, contains_iff, contains_iff, Asserts]

/-- A call does not reach over a line end. -/
theorem asserts_iff_lines : Asserts s ↔ ∃ line ∈ lines s, Asserts line := by
  have hhard := infix_iff_splitOn (show '\n' ∉ "expect(".toList by decide) s
  have hsoft := infix_iff_splitOn (show '\n' ∉ "expect.soft(".toList by decide) s
  simp only [Asserts, and_or_left, exists_or]
  exact or_congr hhard hsoft

theorem asserts_trim : Asserts (trim line) ↔ Asserts line :=
  or_congr (infix_trim (by decide)) (infix_trim (by decide))

/-- The detector for whole texts finds a call exactly when the one for lines finds it in some line. -/
theorem hasAssertion_iff_applies :
    hasAssertion s = true ↔ ∃ line ∈ lines s, Applies "assertion_in_test" line := by
  simp only [applies_assertion_iff]
  exact hasAssertion_iff.trans asserts_iff_lines

/-! ## What a report carries -/

variable {cwd path text : String}

theorem carries_iff {rule : String} {report : Report} :
    carries rule report = true ↔ ∃ number, Reports report rule number := by
  rw [carries, List.any_eq_true]
  constructor
  · intro h
    obtain ⟨issue, hissue, hrule⟩ := h
    exact ⟨issue.line, issue, hissue, beq_iff_eq.1 hrule, rfl⟩
  · intro h
    obtain ⟨number, issue, hissue, hrule, -⟩ := h
    exact ⟨issue, hissue, beq_iff_eq.2 hrule⟩

theorem carries_pageObject_iff (hpage : Role.isPageObject path = true) :
    carries "page_object_assertions" (content cwd path text) = true ↔
      ∃ line ∈ lines text.toList, Asserts line := by
  have hcarries : carries "page_object_assertions" (content cwd path text) = _ :=
    carries_content cwd path text
  rw [hcarries, hpage, Bool.true_and, hasAssertion_iff, asserts_iff_lines]

/-- A spec carries an issue about assertions exactly when some line that is no comment calls one. -/
theorem carries_assertion_iff :
    carries "assertion_in_test" (content cwd path text) = true ↔
      Role.detect cwd path = .testSpec ∧
        ∃ line ∈ lines text.toList, isCommentLine line = false ∧ Asserts line := by
  rw [carries_iff]
  constructor
  · intro h
    obtain ⟨number, hreports⟩ := h
    obtain ⟨hspec, i, line, -, hget, hcomment, happlies⟩ :=
      (reports_layerRule_iff (by decide)).1 hreports
    exact ⟨hspec, line, List.mem_of_getElem? hget, hcomment,
      asserts_trim.1 (applies_assertion_iff.1 happlies)⟩
  · intro h
    obtain ⟨hspec, line, hmem, hcomment, hasserts⟩ := h
    obtain ⟨i, hget⟩ := List.getElem?_of_mem hmem
    exact ⟨i + 1, (reports_layerRule_iff (by decide)).2 ⟨hspec, i, line, rfl, hget, hcomment,
      applies_assertion_iff.2 (asserts_trim.2 hasserts)⟩⟩

theorem asserts_of_weakVisibility
    (h : carries "weak_visibility_assertion" (content cwd path text) = true) :
    ∃ line ∈ lines text.toList, Asserts line := by
  obtain ⟨number, hreports⟩ := carries_iff.1 h
  obtain ⟨i, line, -, hget, -, hfires⟩ := (reports_lineRule_iff (by decide)).1 hreports
  exact ⟨line, List.mem_of_getElem? hget,
    asserts_trim.1 (applies_assertion_iff.1 (backs_weakVisibility line hfires))⟩

theorem asserts_of_softSign {sign : Positive} (h : sign ∈ (content cwd path text).positives)
    (hsign : sign.description = "Using soft assertions for multiple checks") :
    ∃ line ∈ lines text.toList, Asserts line := by
  rcases mem_positives.1 h with ⟨-, h⟩ | h
  · rw [linePositives_eq_pass] at h
    obtain ⟨i, line, hget, hline⟩ := mem_pass.1 h
    obtain ⟨-, practice, hpractice, hcontains, rfl⟩ := mem_linePositives.1 hline
    have hsoft : ∀ practice ∈ practices,
        practice.description = "Using soft assertions for multiple checks" →
        practice.text = "expect.soft(" := by decide
    rw [hsoft practice hpractice hsign] at hcontains
    exact ⟨line, List.mem_of_getElem? hget, .inr (contains_iff.1 hcontains)⟩
  · rw [of_mem_filePositives h] at hsign
    exact absurd hsign (by decide)

/-- The two detectors of assertions agree. The search in a whole text is that for one pattern, and
finds it exactly when the rule for specs applies to some line of the text, be it a comment or not.
So the report of a page object tells of assertions exactly when some line calls one, and always when
it has a finding that is about an assertion. Where comments call none, a spec that is a page object
too has the issue on the whole file only together with one on a line. -/
theorem content_assertions (cwd path text : String) :
    let ls := lines text.toList
    let report := content cwd path text
    (hasAssertion text.toList = true ↔ assertionCall.FoundIn text.toList) ∧
    (hasAssertion text.toList = true ↔ ∃ line ∈ ls, Applies "assertion_in_test" line) ∧
    (Role.isPageObject path = true →
      (carries "page_object_assertions" report = true ↔
        ∃ line ∈ ls, "expect(".toList <:+: line ∨ "expect.soft(".toList <:+: line) ∧
      (carries "assertion_in_test" report = true ∨
        carries "weak_visibility_assertion" report = true ∨
        (∃ sign ∈ report.positives,
          sign.description = "Using soft assertions for multiple checks") →
        carries "page_object_assertions" report = true) ∧
      (Role.detect cwd path = .testSpec →
        (∀ line ∈ ls, isCommentLine line = true →
          ¬ ("expect(".toList <:+: line ∨ "expect.soft(".toList <:+: line)) →
        carries "page_object_assertions" report = true →
        carries "assertion_in_test" report = true)) := by
  refine ⟨hasAssertion_iff.trans foundIn_assertionCall.symm, hasAssertion_iff_applies, ?_⟩
  intro hpage
  have hwhole : carries "page_object_assertions" (content cwd path text) = true ↔
      ∃ line ∈ lines text.toList, Asserts line :=
    carries_pageObject_iff hpage
  refine ⟨hwhole, ?_, ?_⟩
  · intro h
    apply hwhole.2
    rcases h with h | h | ⟨sign, hsign, hdescription⟩
    · obtain ⟨-, line, hmem, -, hasserts⟩ := carries_assertion_iff.1 h
      exact ⟨line, hmem, hasserts⟩
    · exact asserts_of_weakVisibility h
    · exact asserts_of_softSign hsign hdescription
  · intro hspec hcomments h
    obtain ⟨line, hmem, hasserts⟩ := hwhole.1 h
    refine carries_assertion_iff.2 ⟨hspec, line, hmem, ?_, hasserts⟩
    cases hcomment : isCommentLine line with
    | false => rfl
    | true => exact absurd hasserts (hcomments line hmem hcomment)

/-- A spec that is a page object too: the comment names the assertion without a call. -/
def softSpec : String :=
  "// soft: expect goes on\n\tawait expect.soft(row).toHaveText('x');\r"

theorem content_assertions_pageSpec :
    Role.isPageObject "tests/loginPage.spec.ts" = true ∧
    Role.detect "/suite" "tests/loginPage.spec.ts" = .testSpec ∧
    carries "page_object_assertions" (content "/suite" "tests/loginPage.spec.ts" softSpec) = true ∧
    carries "assertion_in_test" (content "/suite" "tests/loginPage.spec.ts" softSpec) = true := by
  have hpage : Role.isPageObject "tests/loginPage.spec.ts" = true := by decide +kernel
  have hspec : Role.detect "/suite" "tests/loginPage.spec.ts" = .testSpec := by decide +kernel
  have hcomments : ∀ line ∈ lines softSpec.toList, isCommentLine line = true →
      ¬ ("expect(".toList <:+: line ∨ "expect.soft(".toList <:+: line) := by
    decide +kernel
  have hline : ∃ line ∈ lines softSpec.toList,
      "expect(".toList <:+: line ∨ "expect.soft(".toList <:+: line := by
    decide +kernel
  obtain ⟨-, -, hreport⟩ := content_assertions "/suite" "tests/loginPage.spec.ts" softSpec
  obtain ⟨hwhole, -, hback⟩ := hreport hpage
  have hcarries := hwhole.2 hline
  exact ⟨hpage, hspec, hcarries, hback hspec hcomments hcarries⟩

end SuiteLint.Review
