import SuiteLint.Proofs.Review.Findings
import SuiteLint.Proofs.Rule.Margins
import SuiteLint.Proofs.Text.Pattern

/-!
# Two slashes: comment or XPath

Two slashes on a line are taken for the start of a comment if they have one of seven shapes. Six of
the shapes are patterns to look for, and each of them is a condition on what stands before and after
some pair of slashes. Together they say in five ways what a comment looks like; the shape of two
words with nothing between them and the slashes adds nothing to the one that allows blanks there.
-/

namespace SuiteLint.Rule

open Text Text.Pattern

variable {line : List Char}

/-! ## Pairs of slashes -/

/-- Some pair of slashes on the line has the given surroundings. Pairs may overlap. -/
def AroundSlashes (holds : List Char → List Char → Prop) (line : List Char) : Prop :=
  ∃ before after, before ++ ("//".toList ++ after) = line ∧ holds before after

theorem AroundSlashes.congr {p q : List Char → List Char → Prop}
    (h : ∀ before after, p before after ↔ q before after) :
    AroundSlashes p line ↔ AroundSlashes q line :=
  exists_congr fun before => exists_congr fun after => and_congr_right fun _ => h before after

theorem aroundSlashes_or {p q : List Char → List Char → Prop} :
    AroundSlashes (fun before after => p before after ∨ q before after) line ↔
      AroundSlashes p line ∨ AroundSlashes q line := by
  simp only [AroundSlashes, and_or_left, exists_or]

theorem afterSlashes?_eq_some_iff {k : Cut} {after : List Char} :
    afterSlashes? k = some after ↔ "//".toList ++ after = k.after := by
  unfold afterSlashes?
  split
  · rename_i rest hk
    rw [hk, Option.some_inj]
    constructor
    · intro h
      rw [h]
      rfl
    · intro h
      have hcons : '/' :: '/' :: after = '/' :: '/' :: rest := h
      exact (List.cons.inj (List.cons.inj hcons).2).2.symm
  · rename_i hnone
    constructor
    · intro h
      exact absurd h nofun
    · intro h
      exact absurd h.symm (hnone after)

theorem anySlashes_iff {q : List Char → List Char → Bool} :
    anySlashes q line = true ↔ AroundSlashes (fun before after => q before.reverse after) line := by
  rw [anySlashes, anyCut_eq_any, List.any_eq_true]
  constructor
  · intro h
    obtain ⟨k, hk, hq⟩ := h
    obtain ⟨after, hafter, hholds⟩ := (Option.any_eq_true _ _).1 hq
    refine ⟨k.before.reverse, after, ?_, ?_⟩
    · rw [afterSlashes?_eq_some_iff.1 hafter]
      exact mem_cuts.1 hk
    · show q k.before.reverse.reverse after = true
      rwa [List.reverse_reverse]
  · intro h
    obtain ⟨before, after, hline, hq⟩ := h
    refine ⟨⟨before.reverse, "//".toList ++ after⟩, mem_cuts.2 ?_, ?_⟩
    · rwa [List.reverse_reverse]
    · rwa [afterSlashes?_eq_some_iff.2 rfl]

/-- What is looked for after two slashes. -/
theorem foundIn_slashes {q : Pattern} :
    (seq (text "//") q).FoundIn line ↔ AroundSlashes (fun _ after => q.OpensIn after) line := by
  rw [foundIn_iff_opensIn]
  constructor
  · intro h
    obtain ⟨before, rest, hline, hrest⟩ := h
    obtain ⟨after, rfl, hafter⟩ := opensIn_text_seq.1 hrest
    exact ⟨before, after, hline, hafter⟩
  · intro h
    obtain ⟨before, after, hline, hafter⟩ := h
    exact ⟨before, _, hline, opensIn_text_seq.2 ⟨after, rfl, hafter⟩⟩

/-- What is looked for on both sides of two slashes. -/
theorem foundIn_around_slashes {p q : Pattern} :
    (seq p (seq (text "//") q)).FoundIn line ↔
      AroundSlashes (fun before after => p.ClosesIn before ∧ q.OpensIn after) line := by
  rw [foundIn_seq]
  constructor
  · intro h
    obtain ⟨before, rest, hline, hbefore, hrest⟩ := h
    obtain ⟨after, rfl, hafter⟩ := opensIn_text_seq.1 hrest
    exact ⟨before, after, hline, hbefore, hafter⟩
  · intro h
    obtain ⟨before, after, hline, hbefore, hafter⟩ := h
    exact ⟨before, _, hline, hbefore, opensIn_text_seq.2 ⟨after, rfl, hafter⟩⟩

/-! ## The shapes as patterns -/

/-- The patterns of the shapes that are looked for anywhere on a line. -/
def shapePatterns : List (String × Pattern) := [
  ("spaced_inline_comment", text "// "),
  ("word_slashes_word", seq (plus (one isWord)) (seq (text "//") (plus (one isWord)))),
  ("word_spaced_slashes_word", seq (seq (plus (one isWord)) (many (one isBlank)))
    (seq (text "//") (seq (many (one isBlank)) (plus (one isWord))))),
  ("slashes_then_letter", seq (text "//") (seq (many (one isBlank)) (one Char.isAlpha))),
  ("slashes_then_digit", seq (text "//") (one isDecimalDigit)),
  ("slashes_then_call", seq (text "//") (seq (plus (one isCallNameChar)) (text "(")))]

/-- Blanks are skipped before a character that is none. -/
theorem opensIn_blanks {q : Pattern} {kind : Char → Bool} {s : List Char}
    (hkind : ∀ c, isBlank c = true → kind c = false)
    (hq : ∀ s, q.OpensIn s ↔ s.head?.any kind = true) :
    (seq (many (one isBlank)) q).OpensIn s ↔ next kind (s.dropWhile isBlank) = true := by
  rw [opensIn_many_seq, hq, next]
  intro c rest hblank hopens
  rw [hq, List.head?_cons, Option.any_some, hkind c hblank] at hopens
  exact Bool.false_ne_true hopens

theorem closesIn_word_blanks {s : List Char} :
    (seq (plus (one isWord)) (many (one isBlank))).ClosesIn s ↔
      next isWord (s.reverse.dropWhile isBlank) = true := by
  rw [closesIn_seq_many, closesIn_plus_one, List.getLast?_reverse, next]
  intro c front hblank hcloses
  rw [closesIn_plus_one, List.getLast?_concat, Option.any_some, not_isWord_of_isBlank hblank]
    at hcloses
  exact Bool.false_ne_true hcloses

theorem isCallNameChar_bracket : isCallNameChar '(' = false := by decide

/-- The name before a bracket ends there: the bracket is no character of a name. -/
theorem opensIn_name_bracket {s : List Char} :
    (seq (plus (one isCallNameChar)) (text "(")).OpensIn s ↔
      ∃ name rest, name ++ '(' :: rest = s ∧ name ≠ [] ∧ ∀ c ∈ name, isCallNameChar c = true := by
  rw [opensIn_seq]
  constructor
  · intro h
    obtain ⟨name, b, rfl, hname, hb⟩ := h
    obtain ⟨rest, rfl⟩ := opensIn_text.1 hb
    exact ⟨name, rest, rfl, matches_plus_one.1 hname⟩
  · intro h
    obtain ⟨name, rest, rfl, hname⟩ := h
    exact ⟨name, _, rfl, matches_plus_one.2 hname, opensIn_text.2 ⟨rest, rfl⟩⟩

theorem name_bracket_iff {s : List Char} :
    (next isCallNameChar s && next (· == '(') (s.dropWhile isCallNameChar)) = true ↔
      ∃ name rest, name ++ '(' :: rest = s ∧ name ≠ [] ∧ ∀ c ∈ name, isCallNameChar c = true := by
  rw [Bool.and_eq_true]
  constructor
  · intro h
    obtain ⟨hfirst, hbracket⟩ := h
    obtain ⟨c, rest, rfl⟩ : ∃ c rest, s = c :: rest := by
      cases s with
      | nil => exact absurd hfirst nofun
      | cons c rest => exact ⟨c, rest, rfl⟩
    cases hdrop : (c :: rest).dropWhile isCallNameChar with
    | nil =>
      rw [hdrop] at hbracket
      exact absurd hbracket nofun
    | cons d after =>
      rw [hdrop] at hbracket
      obtain rfl : d = '(' := by simpa [next] using hbracket
      refine ⟨(c :: rest).takeWhile isCallNameChar, after, ?_, ?_, fun x hx =>
        List.mem_takeWhile_imp hx⟩
      · rw [← hdrop, List.takeWhile_append_dropWhile]
      · have hc : isCallNameChar c = true := hfirst
        rw [List.takeWhile_cons_of_pos hc]
        exact List.cons_ne_nil _ _
  · intro h
    obtain ⟨name, rest, rfl, hne, hname⟩ := h
    rw [List.dropWhile_append_of_pos hname,
      List.dropWhile_cons_of_neg (by simp [isCallNameChar_bracket])]
    obtain ⟨c, more, rfl⟩ := List.exists_cons_of_ne_nil hne
    exact ⟨hname c List.mem_cons_self, rfl⟩

/-- Each shape but the first holds where its pattern is found. -/
theorem forall₂_shapePatterns :
    List.Forall₂ (fun shape named => shape.name = named.1 ∧
      ∀ line, shape.holds line = true ↔ named.2.FoundIn line) commentShapes.tail shapePatterns := by
  refine .cons ⟨rfl, fun line => ?_⟩ <| .cons ⟨rfl, fun line => ?_⟩ <|
    .cons ⟨rfl, fun line => ?_⟩ <| .cons ⟨rfl, fun line => ?_⟩ <| .cons ⟨rfl, fun line => ?_⟩ <|
    .cons ⟨rfl, fun line => ?_⟩ .nil
  · rw [foundIn_text, ← contains_iff]
  · rw [anySlashes_iff, foundIn_around_slashes]
    refine AroundSlashes.congr fun before after => ?_
    rw [closesIn_plus_one, opensIn_plus_one, Bool.and_eq_true, next, next, List.head?_reverse]
  · rw [anySlashes_iff, foundIn_around_slashes]
    refine AroundSlashes.congr fun before after => ?_
    have hwords := opensIn_blanks (s := after) (fun _ => not_isWord_of_isBlank) fun _ =>
      opensIn_plus_one
    rw [closesIn_word_blanks, hwords, Bool.and_eq_true]
  · rw [anySlashes_iff, foundIn_slashes]
    refine AroundSlashes.congr fun before after => ?_
    exact (opensIn_blanks (fun _ => not_isAlpha_of_isBlank) fun _ => opensIn_one).symm
  · rw [anySlashes_iff, foundIn_slashes]
    exact AroundSlashes.congr fun before after => opensIn_one.symm
  · rw [anySlashes_iff, foundIn_slashes]
    exact AroundSlashes.congr fun before after => name_bracket_iff.trans opensIn_name_bracket.symm

/-! ## What a comment looks like -/

/-- The ways in which two slashes look like the start of a comment, told by the text before and
after them. -/
inductive StartsComment (before after : List Char) : Prop
  | space (h : after.head? = some ' ')
  | letter (h : (trimStart after).head?.any Char.isAlpha = true)
  | digit (h : after.head?.any isDecimalDigit = true)
  | call (name rest : List Char) (h : name ++ '(' :: rest = after) (hne : name ≠ [])
    (hname : ∀ c ∈ name, isCallNameChar c = true)
  | words (hbefore : (trimEnd before).getLast?.any isWord = true)
    (hafter : (trimStart after).head?.any isWord = true)

theorem startsComment_iff {before after : List Char} :
    StartsComment before after ↔
      after.head? = some ' ' ∨
      (next isWord (before.reverse.dropWhile isBlank) &&
        next isWord (after.dropWhile isBlank)) = true ∨
      next Char.isAlpha (after.dropWhile isBlank) = true ∨
      next isDecimalDigit after = true ∨
      (next isCallNameChar after && next (· == '(') (after.dropWhile isCallNameChar)) = true := by
  have hlast : (trimEnd before).getLast? = (before.reverse.dropWhile isBlank).head? :=
    List.getLast?_reverse
  constructor
  · intro h
    cases h with
    | space h => exact .inl h
    | letter h => exact .inr (.inr (.inl h))
    | digit h => exact .inr (.inr (.inr (.inl h)))
    | call name rest h hne hname =>
      exact .inr (.inr (.inr (.inr (name_bracket_iff.2 ⟨name, rest, h, hne, hname⟩))))
    | words hbefore hafter =>
      rw [hlast] at hbefore
      exact .inr (.inl ((Bool.and_eq_true _ _).mpr ⟨hbefore, hafter⟩))
  · intro h
    rcases h with h | h | h | h | h
    · exact .space h
    · obtain ⟨hbefore, hafter⟩ := (Bool.and_eq_true _ _).mp h
      refine .words ?_ hafter
      rw [hlast]
      exact hbefore
    · exact .letter h
    · exact .digit h
    · obtain ⟨name, rest, hafter, hne, hname⟩ := name_bracket_iff.1 h
      exact .call name rest hafter hne hname

theorem contains_spaced_iff :
    contains "// " line = true ↔ AroundSlashes (fun _ after => after.head? = some ' ') line := by
  rw [contains_iff]
  constructor
  · intro h
    obtain ⟨left, right, hline⟩ := h
    exact ⟨left, ' ' :: right, by simpa using hline, rfl⟩
  · intro h
    obtain ⟨before, after, hline, hspace⟩ := h
    obtain ⟨rest, rfl⟩ := List.head?_eq_some_iff.1 hspace
    exact ⟨before, rest, by simpa using hline⟩

/-- Words right next to the slashes are words with no blanks in between. -/
theorem next_dropWhile_blank {s : List Char} (h : next isWord s = true) :
    next isWord (s.dropWhile isBlank) = true := by
  cases s with
  | nil => exact h
  | cons c rest =>
    have hblank : ¬ isBlank c = true := by
      intro hblank
      have hword : isWord c = true := h
      rw [not_isWord_of_isBlank hblank] at hword
      exact Bool.false_ne_true hword
    rwa [List.dropWhile_cons_of_neg hblank]

/-- The shape of words next to the slashes is a case of that of words with blanks between. -/
theorem spaced_of_unspaced
    (h : anySlashes (fun before after => next isWord before && next isWord after) line = true) :
    anySlashes (fun before after => next isWord (before.dropWhile isBlank) &&
      next isWord (after.dropWhile isBlank)) line = true := by
  rw [anySlashes_iff] at h ⊢
  obtain ⟨before, after, hline, hwords⟩ := h
  obtain ⟨hbefore, hafter⟩ := (Bool.and_eq_true _ _).mp hwords
  refine ⟨before, after, hline, (Bool.and_eq_true _ _).mpr ?_⟩
  exact ⟨next_dropWhile_blank hbefore, next_dropWhile_blank hafter⟩

/-- The shapes without that of words next to the slashes. -/
def otherShapes : List CommentShape :=
  commentShapes.filter (·.name ≠ "word_slashes_word")

theorem any_otherShapes (line : List Char) :
    otherShapes.any (·.holds line) = looksLikeComment line := by
  obtain ⟨unspaced, hshapes, hothers, habsorbed⟩ : ∃ unspaced : CommentShape,
      commentShapes = commentShapes.take 2 ++ unspaced :: commentShapes.drop 3 ∧
      otherShapes = commentShapes.take 2 ++ commentShapes.drop 3 ∧
      (unspaced.holds line = true → (commentShapes.drop 3).any (·.holds line) = true) := by
    refine ⟨_, rfl, rfl, fun h => List.any_eq_true.2 ⟨_, List.mem_cons_self, ?_⟩⟩
    exact spaced_of_unspaced h
  rw [looksLikeComment, hothers, hshapes, List.any_append, List.any_append, List.any_cons,
    Bool.or_eq_right_iff_imp.2 habsorbed]
  rfl

theorem looksLikeComment_iff :
    looksLikeComment line = true ↔
      "//".toList <+: trim line ∨ AroundSlashes StartsComment line := by
  have hshapes : otherShapes = commentShapes.take 2 ++ commentShapes.drop 3 := rfl
  have haround : AroundSlashes StartsComment line ↔ _ :=
    AroundSlashes.congr fun before after => startsComment_iff
  have hstart : startsWith "//" (trim line) = true ↔ "//".toList <+: trim line :=
    List.isPrefixOf_iff_prefix
  rw [← any_otherShapes, hshapes, haround]
  simp only [aroundSlashes_or, commentShapes, List.take_succ_cons, List.take_zero,
    List.drop_succ_cons, List.drop_zero, List.cons_append, List.nil_append, List.any_cons,
    List.any_nil, Bool.or_false, Bool.or_eq_true, hstart, contains_spaced_iff, anySlashes_iff]

/-! ## XPath -/

theorem isSome_mark (flagged : Bool) : (mark flagged).isSome = flagged := by
  cases flagged <;> rfl

theorem fires_xpath_iff :
    Review.Fires "xpath" line ↔
      ("xpath(".toList <:+: line ∨ "xpath=".toList <:+: line) ∨
      "//".toList <:+: line ∧ ¬ "http".toList <:+: line ∧ looksLikeComment line = false := by
  have hrule : Review.Fires "xpath" line ↔ (mark (hasXPath line)).isSome :=
    Review.fires_iff (show lineRules[5] ∈ lineRules from List.getElem_mem _)
  rw [hrule, isSome_mark, hasXPath, hasXPathCall, hasXPathExpression, isUrlLine, Bool.or_eq_true,
    Bool.or_eq_true, Bool.and_eq_true, Bool.and_eq_true, Bool.not_eq_true', Bool.not_eq_true',
    ← Bool.not_eq_true (contains _ _), contains_iff, contains_iff, contains_iff, contains_iff,
    and_assoc]

/-- What two slashes on a line are taken for. Each shape of a comment but the first is a pattern
looked for on the line. A line looks like a comment if it starts with slashes, blanks aside, or if
some pair of slashes starts a comment by what stands around it; the shape of words next to the
slashes makes no difference. XPath is reported for its calls, and for slashes that are no part of an
address and do not look like a comment. -/
theorem looksLikeComment_closed_form (line : List Char) :
    List.Forall₂ (fun shape named => shape.name = named.1 ∧
      (shape.holds line = true ↔ named.2.FoundIn line)) commentShapes.tail shapePatterns ∧
    (looksLikeComment line = true ↔ "//".toList <+: trim line ∨
      ∃ before after, before ++ ("//".toList ++ after) = line ∧ StartsComment before after) ∧
    (commentShapes.filter (·.name ≠ "word_slashes_word")).any (·.holds line) =
      looksLikeComment line ∧
    (Review.Fires "xpath" line ↔
      ("xpath(".toList <:+: line ∨ "xpath=".toList <:+: line) ∨
      "//".toList <:+: line ∧ ¬ "http".toList <:+: line ∧ looksLikeComment line = false) :=
  ⟨forall₂_shapePatterns.imp fun _ _ h => ⟨h.1, h.2 line⟩, looksLikeComment_iff,
    any_otherShapes line, fires_xpath_iff⟩

/-- Of three slashes the second and the third are a pair too. -/
example : looksLikeComment "=///x".toList = true ∧ looksLikeComment "= //*[1]".toList = false := by
  decide +kernel

end SuiteLint.Rule
