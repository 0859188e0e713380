import SuiteLint.Proofs.Console
import SuiteLint.Proofs.Render.Document
import SuiteLint.Proofs.Score
import SuiteLint.Run

/-!
# Colours and what they leave alone

Whether a run is shown in colours depends on where it is printed, and nothing else does: without its
sequences, what a terminal shows is what is printed anywhere else. This is said of runs whose texts
hold no sequences of their own, since those are printed as they are. The document of a run has no
colours, whatever stands in the texts.
-/

namespace SuiteLint

/-! ## Texts of a run -/

theorem unescaped_of_isInk {text : String} (h : ∀ c ∈ text.toList, Json.IsInk c) :
    Unescaped text := by
  intro hmem
  exact absurd (h escape hmem) (by decide)

theorem unescaped_toString (n : Int) : Unescaped (toString n) :=
  unescaped_of_isInk (Json.isInk_toString n)

theorem unescaped_toString_nat (n : Nat) : Unescaped (toString n) :=
  unescaped_toString n

/-- The texts that an outcome has from its file and from the rules. -/
def Outcome.texts : Outcome → List String
  | .report r => r.path ::
    (r.issues.flatMap fun i => [i.rule, i.severity, i.description, i.suggestion]) ++
    r.positives.map (·.description)
  | .failure f => [f.path, f.message]

def Summary.texts (s : Summary) : List String :=
  s.outcomes.flatMap Outcome.texts

namespace Render

/-! ## What is shown of a run -/

theorem tame_heading {path : String} (h : Unescaped path) : (heading path).Tame := by
  refine .plain ?_
  simp only [unescaped_append]
  exact ⟨⟨by decide, h⟩, by decide⟩

theorem tame_failure {f : ReadFailure} (hpath : Unescaped f.path) (hmessage : Unescaped f.message) :
    ∀ span ∈ failure f, span.Tame := by
  have herror : Unescaped ("❌ Error reading file: " ++ f.message ++ "\n") := by
    simp only [unescaped_append]
    exact ⟨⟨by decide, hmessage⟩, by decide⟩
  simp only [failure, List.forall_mem_cons, List.not_mem_nil, false_implies, implies_true, and_true]
  exact ⟨tame_heading hpath, .painted (by decide) herror, .plain (by decide)⟩

theorem severityColor_ne_reset (severity : Option Severity) : severityColor severity ≠ .reset := by
  rcases severity with _ | _ | _ <;> decide

theorem scoreColor_ne_reset (score : Int) : scoreColor score ≠ .reset := by
  unfold scoreColor
  split
  · decide
  · split <;> decide

theorem unescaped_outOfMax (score : Int) : Unescaped (outOfMax score) := by
  simp only [outOfMax, unescaped_append]
  exact ⟨⟨unescaped_toString score, by decide⟩, unescaped_toString maxScore⟩

theorem tame_issue {i : Issue} (hseverity : Unescaped i.severity)
    (hdescription : Unescaped i.description) (hsuggestion : Unescaped i.suggestion) :
    ∀ span ∈ issue i, span.Tame := by
  have hicon : Unescaped (icon i.severity?) := by
    rcases i.severity? with _ | _ | _ <;> decide
  have hadvice : Unescaped (if i.suggestion = "" then ""
      else "  💡 Suggestion: " ++ i.suggestion ++ "\n") := by
    split
    · decide
    · simp only [unescaped_append]
      exact ⟨⟨by decide, hsuggestion⟩, by decide⟩
  simp only [issue, List.forall_mem_cons, List.not_mem_nil, false_implies, implies_true, and_true]
  refine ⟨.plain ?_, .painted (severityColor_ne_reset _) ?_, .plain ?_⟩
  · simp only [unescaped_append]
    exact ⟨⟨by decide, hicon⟩, by decide⟩
  · simp only [unescaped_append]
    exact ⟨⟨by decide, hseverity⟩, by decide⟩
  · simp only [unescaped_append]
    exact ⟨⟨⟨⟨⟨by decide, hdescription⟩, by decide⟩, unescaped_toString i.line⟩, by decide⟩, hadvice⟩

theorem tame_positive {p : Positive} (h : Unescaped p.description) : (positive p).Tame := by
  refine .plain ?_
  simp only [unescaped_append]
  exact ⟨⟨⟨⟨by decide, h⟩, by decide⟩, unescaped_toString p.line⟩, by decide⟩

theorem tame_part {title : String} {body : List Span} (htitle : Unescaped title)
    (hbody : ∀ span ∈ body, span.Tame) : ∀ span ∈ part title body, span.Tame := by
  unfold part
  split
  · exact nofun
  · have hline : Unescaped ("\n### " ++ title) := unescaped_append.2 ⟨by decide, htitle⟩
    simp only [List.forall_mem_cons]
    exact ⟨.painted (by decide) hline, .plain (by decide), hbody⟩

theorem tame_report {r : Report} (h : ∀ text ∈ (Outcome.report r).texts, Unescaped text) :
    ∀ span ∈ report r, span.Tame := by
  simp only [Outcome.texts, List.cons_append, List.forall_mem_cons, List.forall_mem_append,
    List.forall_mem_flatMap, List.forall_mem_map] at h
  obtain ⟨hpath, hissues, hpositives⟩ := h
  have hrole : Unescaped ("Role: " ++ r.role.label) := by
    cases r.role <;> decide
  have hissueSpans : ∀ span ∈ r.issues.flatMap issue, span.Tame := by
    intro span hspan
    obtain ⟨i, hi, hspan⟩ := List.mem_flatMap.1 hspan
    obtain ⟨-, hseverity, hdescription, hsuggestion, -⟩ := hissues i hi
    exact tame_issue hseverity hdescription hsuggestion span hspan
  have hpositiveSpans : ∀ span ∈ r.positives.map positive, span.Tame :=
    List.forall_mem_map.2 fun p hp => tame_positive (hpositives p hp)
  simp only [report, List.forall_mem_append, List.forall_mem_cons, List.not_mem_nil, false_implies,
    implies_true, and_true]
  exact ⟨⟨⟨⟨tame_heading hpath, .painted (by decide) hrole, .plain (by decide)⟩,
    tame_part (by decide) hissueSpans⟩, tame_part (by decide) hpositiveSpans⟩, .plain (by decide),
    .painted (scoreColor_ne_reset r.score) (unescaped_outOfMax r.score), .plain (by decide)⟩

theorem tame_outcome {o : Outcome} (h : ∀ text ∈ o.texts, Unescaped text) :
    ∀ span ∈ outcome o, span.Tame := by
  cases o with
  | report r => exact tame_report h
  | failure f =>
    simp only [Outcome.texts, List.forall_mem_cons] at h
    exact tame_failure h.1 h.2.1

theorem unescaped_fileCounts (s : Summary) : Unescaped (fileCounts s) := by
  have hplural : Unescaped (if s.reports.length = 1 then "" else "s") := by
    split <;> decide
  have hunreadable : Unescaped (if s.failures.isEmpty then ""
      else ", " ++ toString s.failures.length ++ " unreadable") := by
    split
    · decide
    · simp only [unescaped_append]
      exact ⟨⟨by decide, unescaped_toString_nat _⟩, by decide⟩
  unfold fileCounts
  dsimp only
  simp only [unescaped_append]
  exact ⟨⟨⟨⟨⟨by decide, unescaped_toString_nat _⟩, by decide⟩, hplural⟩, hunreadable⟩, by decide⟩

theorem unescaped_issueCounts (s : Summary) : Unescaped (issueCounts s) := by
  have hcount (severity : Severity) :
      Unescaped (toString (s.total severity) ++ " " ++ severity.label) := by
    simp only [unescaped_append]
    exact ⟨⟨unescaped_toString_nat _, by decide⟩, by cases severity <;> decide⟩
  have hjoin (a b : String) : ", ".intercalate [a, b] = a ++ ", " ++ b := rfl
  unfold issueCounts
  split
  · decide
  · rw [Severity.all, List.map_cons, List.map_cons, List.map_nil, hjoin]
    simp only [unescaped_append (b := ".\n"), unescaped_append (a := "Issues: ")]
    refine ⟨⟨by decide, ?_⟩, by decide⟩
    exact unescaped_append.2 ⟨unescaped_append.2 ⟨hcount .high, by decide⟩, hcount .medium⟩

theorem unescaped_lowestScore (s : Summary) : Unescaped (lowestScore s) := by
  unfold lowestScore
  cases s.lowestScore? with
  | none => decide
  | some score =>
    simp only [unescaped_append]
    exact ⟨⟨by decide, unescaped_outOfMax score⟩, by decide⟩

theorem tame_summary (s : Summary) : ∀ span ∈ summary s, span.Tame := by
  simp only [summary, List.forall_mem_cons, List.not_mem_nil, false_implies, implies_true, and_true]
  refine ⟨.painted (by decide) (by decide), .plain ?_⟩
  simp only [unescaped_append]
  exact ⟨⟨⟨by decide, unescaped_fileCounts s⟩, unescaped_issueCounts s⟩, unescaped_lowestScore s⟩

theorem tame_run {s : Summary} (h : ∀ text ∈ s.texts, Unescaped text) :
    ∀ span ∈ run s, span.Tame := by
  have hbanner : ∀ span ∈ banner s.outcomes.length, span.Tame := by
    refine List.forall_mem_singleton.2 (.plain ?_)
    simp only [unescaped_append]
    exact ⟨⟨by decide, unescaped_toString _⟩, by decide⟩
  have houtcomes : ∀ span ∈ s.outcomes.flatMap outcome, span.Tame := by
    intro span hspan
    obtain ⟨o, ho, hspan⟩ := List.mem_flatMap.1 hspan
    exact tame_outcome (fun text htext => h text (List.mem_flatMap.2 ⟨o, ho, htext⟩)) span hspan
  simp only [run, List.forall_mem_append]
  exact ⟨⟨hbanner, houtcomes⟩, tame_summary s⟩

/-- Nothing is refused where every label names a severity. -/
theorem checked_of_graded {s : Summary} (h : ∀ r ∈ s.reports, Graded r.issues) (spans : List Span) :
    checked s.outcomes spans = .ok spans := by
  have hnone : unknownSeverity? s.outcomes = none := by
    rw [unknownSeverity?, List.findSome?_eq_none_iff]
    intro o ho
    cases hreport : o.report? with
    | none => rfl
    | some r => exact (h r (List.mem_filterMap.2 ⟨o, ho, hreport⟩)).unknownSeverity?_eq_none
  rw [checked, hnone]

end Render

theorem Console.colored_eq_false {tty : Bool} {noColor : Option String}
    (h : tty = false ∨ noColor ≠ none) : (Console.mk tty noColor.isSome).colored = false := by
  rcases h with rfl | h
  · rfl
  · have hsome : noColor.isSome = true := Option.isSome_iff_ne_none.2 h
    rw [Console.colored, hsome]
    exact Bool.and_false tty

/-- Colours change nothing but colours. Where every label names a severity and no text starts a
sequence, a run is shown in full. On a terminal that is not asked to stay plain, what is shown has
the sequences of its painted spans, a colour and a reset for each of them; without the sequences it
is what is printed on any other console, and there nothing starts a sequence. The document of a run
never has a sequence and is the same on every console. -/
theorem output_colors (s : Summary) :
    ((∀ r ∈ s.reports, Graded r.issues) → (∀ text ∈ s.texts, '\x1b' ∉ text.toList) →
      Render.checked s.outcomes (Render.run s) = .ok (Render.run s) ∧
      ∀ (tty : Bool) (noColor : Option String), tty = false ∨ noColor ≠ none →
        let painted := (Run.output ⟨true, false⟩ false s).toList
        let plain := (Run.output ⟨tty, noColor.isSome⟩ false s).toList
        strip painted = plain ∧ '\x1b' ∉ plain ∧
        sequences painted = (Render.run s).flatMap Span.sequences ∧
        Alternates (sequences painted)) ∧
    ∀ console : Console, '\x1b' ∉ (Run.output console true s).toList ∧
      ∀ other : Console, Run.output other true s = Run.output console true s := by
  refine ⟨fun hseverities htexts => ⟨Render.checked_of_graded hseverities _, ?_⟩, fun console => ?_⟩
  · intro tty noColor hplain painted plain
    have htame := Render.tame_run htexts
    have hcolored : (Console.mk true false).colored = true := rfl
    have hnot : (Console.mk tty noColor.isSome).colored = false :=
      Console.colored_eq_false hplain
    have hstrip : strip painted = plain :=
      (Console.strip_render hcolored htame).trans (Console.toList_render_plain hnot).symm
    have hsequences : sequences painted = (Render.run s).flatMap Span.sequences :=
      Console.sequences_render hcolored htame
    have hfree : '\x1b' ∉ plain :=
      Console.escape_not_mem_render_plain hnot htame
    exact ⟨hstrip, hfree, hsequences, hsequences ▸ alternates_flatMap htame⟩
  · exact ⟨unescaped_of_isInk (Render.isInk_json s), fun other => rfl⟩

/-- A run with issues of both severities, one of them without advice, and a file that could not be
read. The brackets in its texts look like sequences without their first character. -/
def bracketRun : Summary where
  outcomes := [
    .report ⟨"tests/[0m.spec.ts", .testSpec,
      [⟨"wait_for_timeout", "HIGH", "Using [31m", 3, "Use [1m"⟩, ⟨"xpath", "MEDIUM", "é", -1, ""⟩],
      [⟨"Using getByRole()", 7⟩], 6⟩,
    .failure ⟨"gone.ts", "[Errno 2]"⟩]

/-- An empty setting switches colours off too. -/
theorem output_colors_bracketRun :
    (∀ r ∈ bracketRun.reports, Graded r.issues) ∧
    (∀ text ∈ bracketRun.texts, '\x1b' ∉ text.toList) ∧
    strip (Run.output ⟨true, false⟩ false bracketRun).toList =
      (Run.output ⟨true, (some "").isSome⟩ false bracketRun).toList ∧
    sequences (Run.output ⟨true, false⟩ false bracketRun).toList =
      [.dim, .reset, .bold, .reset, .red, .reset, .yellow, .reset, .bold, .reset, .yellow, .reset,
        .red, .reset, .bold, .reset] := by
  have hseverities : ∀ r ∈ bracketRun.reports, Graded r.issues := by
    refine List.forall_mem_singleton.2 ?_
    simp only [Graded, List.forall_mem_cons, List.not_mem_nil, false_implies, implies_true, and_true]
    exact ⟨⟨.high, rfl⟩, .medium, rfl⟩
  have htexts : ∀ text ∈ bracketRun.texts, '\x1b' ∉ text.toList := by decide
  obtain ⟨-, hconsoles⟩ := (output_colors bracketRun).1 hseverities htexts
  obtain ⟨hstrip, -, hsequences, -⟩ := hconsoles true (some "") (.inr nofun)
  refine ⟨hseverities, htexts, hstrip, hsequences.trans ?_⟩
  decide

end SuiteLint
