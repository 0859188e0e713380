import Mathlib.Data.List.Forall2
import SuiteLint.Review

/-!
# Passes over numbered lines

The line rules, the layer rules and the search for good signs read a file in the same way: line by
line, with a running number. `pass` is that way of reading. The lemmas say which findings a pass
has, in which order they stand, and what becomes of them when a file is continued or when its
first line has another number. None of them looks at what is reported for a single line.
-/

namespace SuiteLint.Review

variable {α : Type}

/-- The findings of a pass whose first line has the given number. -/
def pass (first : Nat) (report : List Char → Int → List α) (lines : List (List Char)) : List α :=
  (lines.zipIdx first).flatMap fun (line, number) => report line number

theorem lineIssues_eq_pass (lines : List (List Char)) :
    lineIssues lines = pass 1 Rule.lineIssues lines := rfl

theorem linePositives_eq_pass (lines : List (List Char)) :
    linePositives lines = pass 1 Rule.linePositives lines := rfl

theorem layerIssues_eq_pass (role : Role) (lines : List (List Char)) :
    Rule.layerIssues role lines =
      if role = .testSpec then pass 1 Rule.specLineIssues lines else [] := by
  cases role <;> rfl

/-- A finding of a pass is a finding of one of its lines, under the number of that line. -/
theorem mem_pass {first : Nat} {report : List Char → Int → List α} {lines : List (List Char)}
    {x : α} :
    x ∈ pass first report lines ↔
      ∃ (i : Nat) (line : List Char), lines[i]? = some line ∧
        x ∈ report line ((first + i : Nat) : Int) := by
  simp only [pass, List.mem_flatMap, Prod.exists, List.mem_zipIdx_iff_le_and_getElem?_sub]
  constructor
  · intro hexists
    obtain ⟨line, number, ⟨hle, hline⟩, hx⟩ := hexists
    refine ⟨number - first, line, hline, ?_⟩
    rwa [Nat.add_sub_cancel' hle]
  · intro hexists
    obtain ⟨i, line, hline, hx⟩ := hexists
    refine ⟨line, first + i, ⟨Nat.le_add_right first i, ?_⟩, hx⟩
    rwa [Nat.add_sub_cancel_left]

/-- A pass goes on over more lines with the next number. -/
theorem pass_append (first : Nat) (report : List Char → Int → List α)
    (lines more : List (List Char)) :
    pass first report (lines ++ more) =
      pass first report lines ++ pass (first + lines.length) report more := by
  rw [pass, List.zipIdx_append, List.flatMap_append]
  rfl

/-- When renumbering a line only renumbers its findings, the same holds of a pass. -/
theorem pass_add (report : List Char → Int → List α) (renumber : Nat → α → α)
    (hreport : ∀ line (number k : Nat),
      report line ((number + k : Nat) : Int) = (report line number).map (renumber k))
    (first k : Nat) (lines : List (List Char)) :
    pass (first + k) report lines = (pass first report lines).map (renumber k) := by
  induction lines generalizing first with
  | nil => rfl
  | cons line lines ih =>
    have hrest : pass (first + 1 + k) report lines =
        (pass (first + 1) report lines).map (renumber k) := ih (first + 1)
    rw [Nat.add_right_comm] at hrest
    simp only [pass, List.zipIdx_cons, List.flatMap_cons, List.map_append] at hrest ⊢
    rw [hrest, hreport]

/-- When findings carry the number of their line, those of a pass under one number are those of the
line with that number. -/
theorem filter_pass {report : List Char → Int → List α} {lineOf : α → Int}
    (hreport : ∀ line number, ∀ x ∈ report line number, lineOf x = number) (first i : Nat)
    (lines : List (List Char)) :
    (pass first report lines).filter (fun x => decide (lineOf x = ((first + i : Nat) : Int))) =
      (lines[i]?.map fun line => report line ((first + i : Nat) : Int)).getD [] := by
  induction lines generalizing first i with
  | nil => rfl
  | cons line lines ih =>
    rw [show line :: lines = [line] ++ lines from rfl, pass_append, List.filter_append]
    have hfirst : pass first report [line] = report line first := List.append_nil _
    rw [hfirst]
    cases i with
    | zero =>
      have hself : (report line first).filter
          (fun x => decide (lineOf x = ((first + 0 : Nat) : Int))) = report line first :=
        List.filter_eq_self.2 fun x hx => decide_eq_true (hreport line first x hx)
      have hlater : (pass (first + [line].length) report lines).filter
          (fun x => decide (lineOf x = ((first + 0 : Nat) : Int))) = [] := by
        refine List.filter_eq_nil_iff.2 fun x hx => ?_
        obtain ⟨j, _, _, hx⟩ := mem_pass.1 hx
        rw [hreport _ _ x hx, List.length_singleton, decide_eq_true_iff]
        omega
      rw [hself, hlater, List.append_nil]
      rfl
    | succ i =>
      have hearlier : (report line first).filter
          (fun x => decide (lineOf x = ((first + (i + 1) : Nat) : Int))) = [] := by
        refine List.filter_eq_nil_iff.2 fun x hx => ?_
        rw [hreport _ _ x hx, decide_eq_true_iff]
        omega
      have hrest := ih (first + 1) i
      rw [Nat.add_assoc, Nat.add_comm 1 i] at hrest
      rw [hearlier, List.nil_append, List.length_singleton, hrest]
      rfl

/-- Findings stand in an order if those of each line do and if the findings of a line come before
those of every later line. -/
theorem pairwise_pass {first : Nat} {report : List Char → Int → List α} {R : α → α → Prop}
    (hline : ∀ line (number : Nat), (report line number).Pairwise R)
    (hlines : ∀ line line' (number number' : Nat), number < number' →
      ∀ x ∈ report line number, ∀ y ∈ report line' number', R x y)
    (lines : List (List Char)) : (pass first report lines).Pairwise R := by
  induction lines generalizing first with
  | nil => exact List.Pairwise.nil
  | cons line lines ih =>
    rw [show line :: lines = [line] ++ lines from rfl, pass_append, List.pairwise_append]
    refine ⟨?_, ih, ?_⟩
    · simpa [pass] using hline line first
    · intro x hx y hy
      obtain ⟨i, _, _, hx⟩ := mem_pass.1 hx
      obtain ⟨j, _, _, hy⟩ := mem_pass.1 hy
      have hi : i = 0 := by grind
      subst hi
      exact hlines _ _ _ _ (by simp; omega) x hx y hy

/-- Two files have the same findings when they have them line by line. -/
theorem pass_congr {report : List Char → Int → List α} {lines lines' : List (List Char)}
    (h : List.Forall₂ (fun line line' => ∀ number, report line number = report line' number)
      lines lines') (first : Nat) :
    pass first report lines = pass first report lines' := by
  induction h generalizing first with
  | nil => rfl
  | cons hline _ ih =>
    simp only [pass, List.zipIdx_cons, List.flatMap_cons] at ih ⊢
    rw [hline, ih]

end SuiteLint.Review
