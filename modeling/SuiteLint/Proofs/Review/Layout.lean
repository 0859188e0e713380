import SuiteLint.Proofs.Review.Passes
import SuiteLint.Proofs.Rule.Margins
import SuiteLint.Proofs.Rule.Structure
import SuiteLint.Proofs.Text.Split

/-!
# The layout of a file

A report does not depend on how the lines of a file are indented, nor on blanks at their ends other
than plain spaces. So it is the same whether lines end with `\n` or with `\r\n`. A plain space at
the end of a line does matter: `await` and two slashes are looked for with one after them.
-/

namespace SuiteLint.Review

open Rule Text

/-- Two lines that no pass can tell apart. -/
structure Alike (l m : List Char) : Prop where
  lineIssues : ∀ number, Rule.lineIssues l number = Rule.lineIssues m number
  specLineIssues : ∀ number, specLineIssues l number = specLineIssues m number
  linePositives : ∀ number, Rule.linePositives l number = Rule.linePositives m number
  answers : ∀ q ∈ fileQuestions, answers (ask q) l = answers (ask q) m

theorem Alike.symm {l m : List Char} (h : Alike l m) : Alike m l :=
  ⟨fun n => (h.lineIssues n).symm, fun n => (h.specLineIssues n).symm,
    fun n => (h.linePositives n).symm, fun q hq => (h.answers q hq).symm⟩

theorem Alike.trans {l m n : List Char} (h : Alike l m) (h' : Alike m n) : Alike l n :=
  ⟨fun i => (h.lineIssues i).trans (h'.lineIssues i),
    fun i => (h.specLineIssues i).trans (h'.specLineIssues i),
    fun i => (h.linePositives i).trans (h'.linePositives i),
    fun q hq => (h.answers q hq).trans (h'.answers q hq)⟩

theorem alike_margins {p s : List Char} (h : Margins p s) (line : List Char) :
    Alike (p ++ line ++ s) line :=
  ⟨lineIssues_margins h line, specLineIssues_margins h line, linePositives_margins h line,
    fun q hq => answers_margins (marginBlind_fileQuestions q hq).ask h line⟩

theorem alike_indent {p : List Char} (hp : ∀ c ∈ p, isBlank c = true) (line : List Char) :
    Alike (p ++ line) line := by
  have h := alike_margins (s := []) ⟨hp, fun c hc => absurd hc List.not_mem_nil⟩ line
  rwa [List.append_nil] at h

theorem alike_trimStart (line : List Char) : Alike (trimStart line) line := by
  have h := alike_indent (p := line.takeWhile isBlank) (fun c hc => List.mem_takeWhile_imp hc)
    (trimStart line)
  rw [trimStart, List.takeWhile_append_dropWhile] at h
  exact h.symm

theorem flatMap_answers_congr {ls ms : List (List Char)} (h : List.Forall₂ Alike ls ms)
    {q : Cut → Bool} (hq : q ∈ fileQuestions) :
    ls.flatMap (answers (ask q)) = ms.flatMap (answers (ask q)) := by
  induction h with
  | nil => rfl
  | cons hline _ ih => rw [List.flatMap_cons, List.flatMap_cons, hline.answers q hq, ih]

/-- Files whose lines are alike, one by one, have the same report. -/
theorem content_congr {text text' : String}
    (h : List.Forall₂ Alike (lines text'.toList) (lines text.toList)) (cwd path : String) :
    content cwd path text' = content cwd path text := by
  have hfile : ∀ q ∈ fileQuestions, answers (ask q) text'.toList = answers (ask q) text.toList := by
    intro q hq
    have hbound := (lineBound_fileQuestions q hq).ask
    rw [answers_eq_flatMap_lines hbound, answers_eq_flatMap_lines hbound,
      flatMap_answers_congr h hq]
  have hline : Review.lineIssues (lines text'.toList) = Review.lineIssues (lines text.toList) := by
    rw [lineIssues_eq_pass, lineIssues_eq_pass, pass_congr (h.imp fun _ _ hl => hl.lineIssues)]
  have hlayer (role : Role) :
      layerIssues role (lines text'.toList) = layerIssues role (lines text.toList) := by
    rw [layerIssues_eq_pass, layerIssues_eq_pass, pass_congr (h.imp fun _ _ hl => hl.specLineIssues)]
  have hpositive :
      Review.linePositives (lines text'.toList) = Review.linePositives (lines text.toList) := by
    rw [linePositives_eq_pass, linePositives_eq_pass,
      pass_congr (h.imp fun _ _ hl => hl.linePositives)]
  unfold content
  simp only [hline, hlayer, hpositive, fileIssues_congr hfile, filePositives_congr hfile]

/-- The text with each of its lines laid out anew. A layout is told the place of the line too. -/
def relaid (layout : Nat → List Char → List Char) (text : String) : String :=
  String.ofList (['\n'].intercalate ((lines text.toList).mapIdx layout))

/-- A layout that adds no line ends keeps the lines apart. -/
theorem lines_relaid {layout : Nat → List Char → List Char}
    (hlayout : ∀ i line, '\n' ∉ line → '\n' ∉ layout i line) (text : String) :
    lines (relaid layout text).toList = (lines text.toList).mapIdx layout := by
  rw [relaid, String.toList_ofList]
  refine List.splitOn_intercalate '\n' (fun l hl => ?_) ?_
  · obtain ⟨i, hi, rfl⟩ := List.mem_mapIdx.1 hl
    exact hlayout i _ (not_mem_of_mem_splitOn (List.getElem_mem hi))
  · intro hnil
    exact List.splitOn_ne_nil '\n' text.toList (List.mapIdx_eq_nil_iff.1 hnil)

theorem content_relaid_of_alike {layout : Nat → List Char → List Char}
    (hlayout : ∀ i line, '\n' ∉ line → '\n' ∉ layout i line)
    (halike : ∀ i line, Alike (layout i line) line) (cwd path text : String) :
    content cwd path (relaid layout text) = content cwd path text := by
  refine content_congr ?_ cwd path
  rw [lines_relaid hlayout, List.forall₂_iff_get]
  refine ⟨List.length_mapIdx, fun i hi hi' => ?_⟩
  simpa using halike i _

/-- Blanks in front of the lines and blanks other than plain spaces behind them do not change the
report. Neither does another indentation, nor `\r\n` for `\n` at the end of some lines. -/
theorem content_relaid (cwd path text : String) (p s : Nat → List Char)
    (hp : ∀ i, ∀ c ∈ p i, isBlank c = true ∧ c ≠ '\n')
    (hs : ∀ i, ∀ c ∈ s i, isBlank c = true ∧ c ≠ '\n' ∧ c ≠ ' ') :
    content cwd path (relaid (fun i line => p i ++ line ++ s i) text) = content cwd path text ∧
    content cwd path (relaid (fun i line => p i ++ trimStart line) text) = content cwd path text ∧
    ∀ ends : Nat → Bool,
      content cwd path (relaid (fun i line => line ++ if ends i then ['\r'] else []) text) =
        content cwd path text := by
  have hpn : ∀ i, '\n' ∉ p i := fun i hn => (hp i '\n' hn).2 rfl
  have hsn : ∀ i, '\n' ∉ s i := fun i hn => (hs i '\n' hn).2.1 rfl
  have hpb : ∀ i, ∀ c ∈ p i, isBlank c = true := fun i c hc => (hp i c hc).1
  refine ⟨?_, ?_, fun ends => ?_⟩
  · refine content_relaid_of_alike (fun i line hline => ?_) (fun i line => ?_) cwd path text
    · simp [hpn i, hline, hsn i]
    · refine alike_margins ⟨hpb i, fun c hc => ?_⟩ line
      obtain ⟨hblank, -, hspace⟩ := hs i c hc
      rw [isTrailing, hblank, Bool.true_and, bne_iff_ne]
      exact hspace
  · refine content_relaid_of_alike (fun i line hline => ?_) (fun i line => ?_) cwd path text
    · have htrim : '\n' ∉ trimStart line := fun hn => hline (List.dropWhile_subset isBlank hn)
      simp [hpn i, htrim]
    · exact (alike_indent (hpb i) (trimStart line)).trans (alike_trimStart line)
  · refine content_relaid_of_alike (fun i line hline => ?_) (fun i line => ?_) cwd path text
    · split <;> simp [hline]
    · refine alike_margins (p := []) ⟨fun c hc => absurd hc List.not_mem_nil, fun c hc => ?_⟩ line
      split at hc
      · rw [List.mem_singleton.1 hc]
        decide
      · exact absurd hc List.not_mem_nil

/-- A tab and a carriage return around lines with issues. -/
theorem content_relaid_tab_return :
    let p : Nat → List Char := fun i => if i = 1 then ['\t', ' '] else []
    let s : Nat → List Char := fun i => if i = 0 then ['\r'] else []
    (∀ i, ∀ c ∈ p i, isBlank c = true ∧ c ≠ '\n') ∧
    (∀ i, ∀ c ∈ s i, isBlank c = true ∧ c ≠ '\n' ∧ c ≠ ' ') ∧
    relaid (fun i line => p i ++ line ++ s i) "page.locator('.a');\nx.click();" =
      "page.locator('.a');\r\n\t x.click();" ∧
    content "/" "a.ts" "page.locator('.a');\r\n\t x.click();" =
      content "/" "a.ts" "page.locator('.a');\nx.click();" := by
  intro p s
  have hp : ∀ i, ∀ c ∈ p i, isBlank c = true ∧ c ≠ '\n' := by
    intro i c hc
    dsimp only [p] at hc
    split at hc
    · rcases List.mem_pair.1 hc with rfl | rfl <;> decide
    · exact absurd hc List.not_mem_nil
  have hs : ∀ i, ∀ c ∈ s i, isBlank c = true ∧ c ≠ '\n' ∧ c ≠ ' ' := by
    intro i c hc
    dsimp only [s] at hc
    split at hc
    · rw [List.mem_singleton.1 hc]
      decide
    · exact absurd hc List.not_mem_nil
  have htext : relaid (fun i line => p i ++ line ++ s i) "page.locator('.a');\nx.click();" =
      "page.locator('.a');\r\n\t x.click();" := by decide
  refine ⟨hp, hs, htext, ?_⟩
  rw [← htext]
  exact (content_relaid "/" "a.ts" "page.locator('.a');\nx.click();" p s hp hs).1

end SuiteLint.Review
