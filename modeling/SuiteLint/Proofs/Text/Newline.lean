import Mathlib.Data.List.Forall2
import SuiteLint.Text.Utf8

/-!
# Line ends of one kind

Reading turns every line end into `\n`. Where each `\r` stands right before a `\n`, this takes the
`\r` off the ends of lines and does nothing else. A `\r` anywhere else becomes the end of a line.
-/

namespace SuiteLint.Text

/-- Whether every `\r` of a text stands right before a `\n`. -/
def returnsPaired : List Char → Bool
  | [] => true
  | c :: s => (c != '\r' || s.head? == some '\n') && returnsPaired s

theorem written_foldl_step (s : List Char) (st : NewlineState) :
    (s.foldl NewlineState.step st).written =
      (s.foldl NewlineState.step ⟨[], st.afterReturn⟩).written ++ st.written := by
  induction s generalizing st with
  | nil => rfl
  | cons c s ih =>
    rw [List.foldl_cons, List.foldl_cons, ih, ih (NewlineState.step ⟨[], st.afterReturn⟩ c)]
    unfold NewlineState.step
    split
    · simp
    split <;> simp

theorem unifyNewlines_cons {c : Char} (h : c ≠ '\r') (s : List Char) :
    unifyNewlines (c :: s) = c :: unifyNewlines s := by
  have hstep : NewlineState.step ⟨[], false⟩ c = ⟨[c], false⟩ := by
    simp [NewlineState.step, h]
  rw [unifyNewlines, List.foldl_cons, hstep, written_foldl_step, List.reverse_append]
  rfl

theorem unifyNewlines_pair (s : List Char) :
    unifyNewlines ('\r' :: '\n' :: s) = '\n' :: unifyNewlines s := by
  have hsteps : NewlineState.step (NewlineState.step ⟨[], false⟩ '\r') '\n' = ⟨['\n'], false⟩ := rfl
  rw [unifyNewlines, List.foldl_cons, List.foldl_cons, hsteps, written_foldl_step,
    List.reverse_append]
  rfl

theorem unifyNewlines_eq_self {s : List Char} (h : '\r' ∉ s) : unifyNewlines s = s := by
  induction s with
  | nil => rfl
  | cons c s ih =>
    obtain ⟨hc, hs⟩ := not_or.1 (List.mem_cons.not.1 h)
    rw [unifyNewlines_cons (Ne.symm hc), ih hs]

theorem lines_newline (s : List Char) : lines ('\n' :: s) = [] :: lines s := by
  rw [lines, List.splitOn_cons_eq_if_modifyHead, if_pos (beq_self_eq_true '\n'), lines]

theorem lines_cons {c : Char} (h : c ≠ '\n') (s : List Char) :
    lines (c :: s) = (lines s).modifyHead (c :: ·) := by
  rw [lines, List.splitOn_cons_eq_if_modifyHead, if_neg (by simpa using h), lines]

/-- The same line, or the line with a `\r` at its end. -/
def MayReturn (unified line : List Char) : Prop :=
  line = unified ∨ line = unified ++ ['\r']

theorem MayReturn.cons {unified line : List Char} (h : MayReturn unified line) (c : Char) :
    MayReturn (c :: unified) (c :: line) := by
  rcases h with rfl | rfl
  · exact Or.inl rfl
  · exact Or.inr rfl

/-- Where returns are paired, the lines are the same but for the `\r` at their ends. -/
theorem lines_unifyNewlines {s : List Char} (h : returnsPaired s = true) :
    List.Forall₂ MayReturn (lines (unifyNewlines s)) (lines s) := by
  induction s with
  | nil => exact .cons (Or.inl rfl) .nil
  | cons c s ih =>
    rw [returnsPaired, Bool.and_eq_true, Bool.or_eq_true, bne_iff_ne, beq_iff_eq] at h
    obtain ⟨hc, hs⟩ := h
    have hrest := ih hs
    by_cases hreturn : c = '\r'
    -- The `\n` that follows ends the line in both texts, so its own line is left out of `hrest`.
    · obtain ⟨s, rfl⟩ : ∃ t, s = '\n' :: t := by
        rcases hc with hne | hhead
        · exact absurd hreturn hne
        · exact ⟨s.tail, List.eq_cons_of_mem_head? hhead⟩
      have hlines : lines (c :: '\n' :: s) = ['\r'] :: lines s := by
        rw [hreturn, lines_cons (by decide), lines_newline]
        rfl
      rw [unifyNewlines_cons (by decide), lines_newline, lines_newline] at hrest
      rw [hlines, hreturn, unifyNewlines_pair, lines_newline]
      exact .cons (Or.inr rfl) (List.forall₂_cons.1 hrest).2
    · rw [unifyNewlines_cons hreturn]
      by_cases hnewline : c = '\n'
      · rw [hnewline, lines_newline, lines_newline]
        exact .cons (Or.inl rfl) hrest
      · rw [lines_cons hnewline, lines_cons hnewline]
        generalize lines (unifyNewlines s) = unified, lines s = whole at hrest
        cases hrest with
        | nil => exact .nil
        | cons hline htail => exact .cons (hline.cons c) htail

end SuiteLint.Text
