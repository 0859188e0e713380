import SuiteLint.Proofs.Text.Blank
import SuiteLint.Text.Utf8
import SuiteLint.Text.Search

/-!
# Questions that a text answers line by line

Every search in a text puts one question to all of its cuts, and what it finds can be read off the
list of answers; the leftmost answer is the first of them. Two laws make that list easy to handle. A
question that does not look beyond the line of a cut is answered line by line. A question that does
not care for blanks at the ends of a line has the same answers with and without them. Both are
stated for an arbitrary question; the needles of the rule catalogue are such questions.
-/

namespace SuiteLint.Text

variable {α β : Type}

/-- What the cuts of a text answer to a question, left to right. -/
def answers (f : Cut → Option α) (s : List Char) : List α :=
  (cuts s).filterMap f

/-- A condition as a question, which is answered where it holds. -/
def ask (p : Cut → Bool) (k : Cut) : Option Unit :=
  if p k then some () else none

theorem length_filterMap_ask (p : Cut → Bool) (ks : List Cut) :
    (ks.filterMap (ask p)).length = ks.countP p := by
  induction ks with
  | nil => rfl
  | cons k ks ih =>
    rw [List.countP_cons, ← ih]
    cases h : p k <;> simp [ask, h]

theorem countCuts_eq_answers (p : Cut → Bool) (s : List Char) :
    countCuts p s = (answers (ask p) s).length := by
  rw [countCuts_eq_countP, answers, length_filterMap_ask]

theorem anyCut_eq_answers (p : Cut → Bool) (s : List Char) :
    anyCut p s = !(answers (ask p) s).isEmpty := by
  have hlength := length_filterMap_ask p (cuts s)
  have hpos : 0 < (cuts s).countP p ↔ ∃ k ∈ cuts s, p k = true := List.countP_pos_iff
  rw [anyCut_eq_any, Bool.eq_iff_iff, List.any_eq_true, ← hpos, ← hlength, answers]
  cases (cuts s).filterMap (ask p) <;> simp

theorem firstCut?_eq_answers (f : Cut → Option α) (s : List Char) :
    firstCut? f s = (answers f s).head? := by
  rw [firstCut?_eq_findSome?, answers, List.head?_filterMap]

/-! ## The leftmost answer -/

theorem pairwise_cutsFrom (before s : List Char) :
    (cutsFrom before s).Pairwise fun k k' => k.before.length < k'.before.length := by
  induction s generalizing before with
  | nil => exact List.pairwise_singleton _ _
  | cons c s ih =>
    refine List.pairwise_cons.2 ⟨fun k hk => ?_, ih (c :: before)⟩
    obtain ⟨passed, -, hbefore⟩ := mem_cutsFrom.1 hk
    rw [hbefore, List.length_append, List.length_cons]
    show before.length < _
    omega

/-- The leftmost answer is that of a cut which answers while no cut to the left of it does. -/
theorem firstCut?_eq_some_iff {f : Cut → Option α} {s : List Char} {a : α} :
    firstCut? f s = some a ↔ ∃ k ∈ cuts s, f k = some a ∧
      ∀ k' ∈ cuts s, k'.before.length < k.before.length → f k' = none := by
  rw [firstCut?_eq_findSome?, List.findSome?_eq_some_iff]
  have hsorted := pairwise_cutsFrom [] s
  constructor
  · rintro ⟨left, k, right, hcuts, hk, hleft⟩
    refine ⟨k, by simp [hcuts], hk, fun k' hk' hlt => ?_⟩
    rw [show cutsFrom [] s = left ++ k :: right from hcuts, List.pairwise_append,
      List.pairwise_cons] at hsorted
    rw [hcuts, List.mem_append, List.mem_cons] at hk'
    rcases hk' with hk' | rfl | hk'
    · exact hleft k' hk'
    · omega
    · have hgt := hsorted.2.1.1 k' hk'
      omega
  · rintro ⟨k, hmem, hk, hleast⟩
    obtain ⟨left, right, hcuts⟩ := List.append_of_mem hmem
    refine ⟨left, k, right, hcuts, hk, fun k' hk' => ?_⟩
    rw [show cutsFrom [] s = left ++ k :: right from hcuts, List.pairwise_append] at hsorted
    exact hleast k' (by simp [hcuts, hk']) (hsorted.2.2 k' hk' k List.mem_cons_self)

/-! ## Questions about one line -/

/-- What can be seen of a text from a cut without looking beyond the line. -/
def Cut.inLine (k : Cut) : Cut :=
  ⟨k.before.takeWhile (· != '\n'), k.after.takeWhile (· != '\n')⟩

/-- Questions that do not look beyond the line of a cut. -/
def LineBound (f : Cut → β) : Prop :=
  ∀ k, f k.inLine = f k

theorem LineBound.ask {p : Cut → Bool} (hp : LineBound p) : LineBound (ask p) := by
  intro k
  simp only [Text.ask, hp k]

theorem LineBound.or {p q : Cut → Bool} (hp : LineBound p) (hq : LineBound q) :
    LineBound fun k => p k || q k := by
  intro k
  simp only [hp k, hq k]

theorem cutsFrom_append_cons (before s t : List Char) (c : Char) :
    cutsFrom before (s ++ c :: t) =
      (cutsFrom before s).map (fun k => ⟨k.before, k.after ++ c :: t⟩) ++
        cutsFrom (c :: s.reverse ++ before) t := by
  induction s generalizing before with
  | nil => rfl
  | cons d s ih =>
    simp only [List.cons_append, cutsFrom, List.map_cons, ih, List.reverse_cons, List.append_assoc,
      List.nil_append]

theorem cutsFrom_append_before (before base s : List Char) :
    cutsFrom (before ++ base) s =
      (cutsFrom before s).map fun k => ⟨k.before ++ base, k.after⟩ := by
  induction s generalizing before with
  | nil => rfl
  | cons c s ih =>
    simp only [cutsFrom, List.map_cons]
    rw [← ih, List.cons_append]

theorem takeWhile_append_newline (s t : List Char) :
    (s ++ '\n' :: t).takeWhile (· != '\n') = s.takeWhile (· != '\n') := by
  induction s with
  | nil => rfl
  | cons c s ih => rw [List.cons_append, List.takeWhile_cons, List.takeWhile_cons, ih]

/-- A line end separates the answers of what stands before it from those of what comes after. -/
theorem answers_append_newline {f : Cut → Option α} (hf : LineBound f) (s t : List Char) :
    answers f (s ++ '\n' :: t) = answers f s ++ answers f t := by
  have hleft (k : Cut) : f ⟨k.before, k.after ++ '\n' :: t⟩ = f k := by
    rw [← hf, ← hf k, Cut.inLine, Cut.inLine, takeWhile_append_newline]
  have hright (k : Cut) : f ⟨k.before ++ '\n' :: s.reverse, k.after⟩ = f k := by
    rw [← hf, ← hf k, Cut.inLine, Cut.inLine, takeWhile_append_newline]
  have hbase : '\n' :: s.reverse ++ [] = [] ++ '\n' :: s.reverse := by simp
  unfold answers cuts
  rw [cutsFrom_append_cons, List.filterMap_append, List.filterMap_map, hbase,
    cutsFrom_append_before, List.filterMap_map]
  congr 1
  · exact congrArg (List.filterMap · _) (funext hleft)
  · exact congrArg (List.filterMap · _) (funext hright)

theorem lines_append_newline (s t : List Char) : lines (s ++ '\n' :: t) = lines s ++ lines t :=
  List.splitOn_append_cons_self s t

theorem length_lines (s : List Char) : (lines s).length = s.count '\n' + 1 := by
  unfold lines
  induction s with
  | nil => rfl
  | cons c s ih =>
    rw [List.splitOn_cons_eq_if_modifyHead, List.count_cons]
    split
    · rw [List.length_cons, ih]
    · rw [List.length_modifyHead, ih]

/-- A question about lines is answered line by line. -/
theorem answers_intercalate {f : Cut → Option α} (hf : LineBound f) {ls : List (List Char)}
    (hls : ls ≠ []) : answers f (['\n'].intercalate ls) = ls.flatMap (answers f) := by
  induction ls with
  | nil => exact absurd rfl hls
  | cons l ls ih =>
    cases ls with
    | nil => simp
    | cons l' ls =>
      have hrest := ih (List.cons_ne_nil l' ls)
      rw [List.intercalate_cons_cons, List.append_assoc, List.singleton_append,
        answers_append_newline hf, hrest]
      rfl

theorem answers_eq_flatMap_lines {f : Cut → Option α} (hf : LineBound f) (s : List Char) :
    answers f s = (lines s).flatMap (answers f) := by
  rw [lines, ← answers_intercalate hf (List.splitOn_ne_nil _ s), List.intercalate_splitOn]

theorem anyCut_append_newline {p : Cut → Bool} (hp : LineBound p) (s t : List Char) :
    anyCut p (s ++ '\n' :: t) = (anyCut p s || anyCut p t) := by
  simp only [anyCut_eq_answers, answers_append_newline hp.ask]
  cases answers (ask p) s <;> simp

theorem countCuts_append_newline {p : Cut → Bool} (hp : LineBound p) (s t : List Char) :
    countCuts p (s ++ '\n' :: t) = countCuts p s + countCuts p t := by
  simp only [countCuts_eq_answers, answers_append_newline hp.ask, List.length_append]

theorem isPrefixOf_takeWhile {p : Char → Bool} {text : List Char} (h : ∀ c ∈ text, p c = true)
    (s : List Char) : text.isPrefixOf (s.takeWhile p) = text.isPrefixOf s := by
  induction text generalizing s with
  | nil => simp
  | cons c text ih =>
    obtain ⟨hc, htext⟩ := List.forall_mem_cons.1 h
    cases s with
    | nil => rfl
    | cons d s =>
      rw [List.takeWhile_cons]
      split
      · rw [List.isPrefixOf_cons_cons, List.isPrefixOf_cons_cons, ih htext]
      · rename_i hd
        have hne : c ≠ d := fun he => hd (he ▸ hc)
        simp [List.isPrefixOf_cons_cons, hne]

theorem isWord_newline : isWord '\n' = false := by decide

/-- A needle without line ends lies in one line. -/
theorem Needle.lineBound {n : Needle} (hn : '\n' ∉ n.text) : LineBound n.startsAt := by
  intro k
  have htext : ∀ c ∈ n.text, (c != '\n') = true :=
    fun c hc => bne_iff_ne.2 fun he => hn (he ▸ hc)
  have hword : (k.before.takeWhile (· != '\n')).head?.any isWord = k.before.head?.any isWord := by
    cases k.before with
    | nil => rfl
    | cons c before =>
      rw [List.takeWhile_cons]
      split
      · rfl
      · rename_i hc
        have he : c = '\n' := by simpa using hc
        simp [he, isWord_newline]
  rw [Needle.startsAt, Needle.startsAt, Cut.inLine, isPrefixOf_takeWhile htext, hword]

theorem startsAt_plain (text : String) (k : Cut) :
    (Needle.plain text).startsAt k = startsWith text k.after := by
  rw [Needle.startsAt, Needle.plain, startsWith, Bool.false_and, Bool.not_false, Bool.and_true]

theorem lineBound_startsWith {text : String} (h : '\n' ∉ text.toList) :
    LineBound fun k => startsWith text k.after := by
  intro k
  have hplain := Needle.lineBound (n := .plain text) h k
  rwa [startsAt_plain, startsAt_plain] at hplain

end SuiteLint.Text
