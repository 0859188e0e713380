import SuiteLint.Proofs.Text.Answers

/-!
# Questions that do not care for the margins of a line

The margins of a line are the blanks that it starts and ends with. A plain space at the end is
kept apart: some needles end with one, so it is no part of the margin. A question that is never
answered at a blank and that sees no difference between a line and the same line with margins has
the same answers in both.
-/

namespace SuiteLint.Text

variable {α β : Type}

/-- The blanks that may end a line without anyone noticing. -/
def isTrailing (c : Char) : Bool :=
  isBlank c && c != ' '

/-- Blanks to put around a line. -/
structure Margins (p s : List Char) : Prop where
  leading : ∀ c ∈ p, isBlank c = true
  trailing : ∀ c ∈ s, isTrailing c = true

theorem Margins.blank_trailing {p s : List Char} (h : Margins p s) : ∀ c ∈ s, isBlank c = true :=
  fun c hc => ((Bool.and_eq_true _ _).mp (h.trailing c hc)).1

structure MarginBlind (nothing : β) (f : Cut → β) : Prop where
  atBlank : ∀ before c after, isBlank c = true → f ⟨before, c :: after⟩ = nothing
  atEnd : ∀ before, f ⟨before, []⟩ = nothing
  margins : ∀ {p s : List Char}, Margins p s →
    ∀ before after, f ⟨before ++ p, after ++ s⟩ = f ⟨before, after⟩

theorem MarginBlind.ask {p : Cut → Bool} (hp : MarginBlind false p) : MarginBlind none (ask p) where
  atBlank before c after hc := by rw [Text.ask, hp.atBlank before c after hc]; rfl
  atEnd before := by rw [Text.ask, hp.atEnd before]; rfl
  margins h before after := by rw [Text.ask, Text.ask, hp.margins h before after]

theorem MarginBlind.or {p q : Cut → Bool} (hp : MarginBlind false p) (hq : MarginBlind false q) :
    MarginBlind false fun k => p k || q k where
  atBlank before c after hc := by rw [hp.atBlank before c after hc, hq.atBlank before c after hc]; rfl
  atEnd before := by rw [hp.atEnd before, hq.atEnd before]; rfl
  margins h before after := by rw [hp.margins h before after, hq.margins h before after]

section Answers

variable {f : Cut → Option α}

theorem filterMap_cutsFrom_blank (hf : MarginBlind none f) {p : List Char}
    (hp : ∀ c ∈ p, isBlank c = true) (before s : List Char) :
    (cutsFrom before (p ++ s)).filterMap f = (cutsFrom (p.reverse ++ before) s).filterMap f := by
  induction p generalizing before with
  | nil => rfl
  | cons c p ih =>
    obtain ⟨hc, hrest⟩ := List.forall_mem_cons.1 hp
    rw [List.cons_append, cutsFrom, List.filterMap_cons_none (hf.atBlank before c _ hc), ih hrest,
      List.reverse_cons, List.append_assoc, List.singleton_append]

theorem filterMap_cutsFrom_end (hf : MarginBlind none f) (before : List Char) :
    (cutsFrom before []).filterMap f = [] := by
  rw [cutsFrom, List.filterMap_cons_none (hf.atEnd before), List.filterMap_nil]

theorem filterMap_cutsFrom_margins (hf : MarginBlind none f) {p s : List Char} (h : Margins p s)
    (before line : List Char) :
    (cutsFrom (before ++ p) (line ++ s)).filterMap f = (cutsFrom before line).filterMap f := by
  induction line generalizing before with
  | nil =>
    have hs := filterMap_cutsFrom_blank hf h.blank_trailing (before ++ p) []
    rw [List.append_nil] at hs
    rw [List.nil_append, hs, filterMap_cutsFrom_end hf, filterMap_cutsFrom_end hf]
  | cons c line ih =>
    rw [List.cons_append, cutsFrom, cutsFrom, List.filterMap_cons, List.filterMap_cons,
      ← List.cons_append, hf.margins h before (c :: line), ← List.cons_append, ih (c :: before)]

/-- Margins change no answers. -/
theorem answers_margins (hf : MarginBlind none f) {p s : List Char} (h : Margins p s)
    (line : List Char) : answers f (p ++ line ++ s) = answers f line := by
  have hrev : Margins p.reverse s :=
    ⟨fun c hc => h.leading c (List.mem_reverse.1 hc), h.trailing⟩
  unfold answers cuts
  rw [List.append_assoc, filterMap_cutsFrom_blank hf h.leading, List.append_nil]
  exact filterMap_cutsFrom_margins hf hrev [] line

theorem anyCut_margins {q : Cut → Bool} (hq : MarginBlind false q) {p s : List Char}
    (h : Margins p s) (line : List Char) : anyCut q (p ++ line ++ s) = anyCut q line := by
  rw [anyCut_eq_answers, anyCut_eq_answers, answers_margins hq.ask h]

theorem firstCut?_margins (hf : MarginBlind none f) {p s : List Char} (h : Margins p s)
    (line : List Char) : firstCut? f (p ++ line ++ s) = firstCut? f line := by
  rw [firstCut?_eq_answers, firstCut?_eq_answers, answers_margins hf h]

end Answers

/-! ## Needles -/

theorem not_isWord_of_isBlank {c : Char} (h : isBlank c = true) : isWord c = false := by
  simpa using of_isBlank (fun c => !isWord c) (by decide +kernel) h

/-- Whether a text starts with no blank and ends with none but a plain space. -/
def isTight (text : List Char) : Bool :=
  text.head?.any (!isBlank ·) && text.getLast?.any (!isTrailing ·)

theorem isPrefixOf_append_of_last {text s : List Char}
    (hlast : ∀ c, text.getLast? = some c → c ∉ s) (after : List Char) :
    text.isPrefixOf (after ++ s) = text.isPrefixOf after := by
  rw [Bool.eq_iff_iff, List.isPrefixOf_iff_prefix, List.isPrefixOf_iff_prefix]
  refine ⟨fun h => ?_, fun h => h.trans (List.prefix_append after s)⟩
  rcases List.prefix_or_prefix_of_prefix h (List.prefix_append after s) with hle | ⟨u, hu⟩
  · exact hle
  -- The text reaches beyond `after` by `u`, so its last character would stand in the margin.
  · subst hu
    have hus : u <+: s := (List.prefix_append_right_inj after).1 h
    rcases List.eq_nil_or_concat u with rfl | ⟨v, c, rfl⟩
    · simp
    · exact absurd (hus.subset (by simp)) (hlast c (by simp))

theorem isPrefixOf_margins {text : List Char} (ht : isTight text = true) {p s : List Char}
    (h : Margins p s) (after : List Char) :
    text.isPrefixOf (after ++ s) = text.isPrefixOf after := by
  refine isPrefixOf_append_of_last (fun c hc hmem => ?_) after
  have hno := ((Bool.and_eq_true _ _).mp ht).2
  rw [hc, Option.any_some, h.trailing c hmem] at hno
  exact Bool.false_ne_true hno

theorem any_head?_append_blank {p : List Char} (hp : ∀ c ∈ p, isBlank c = true)
    (before : List Char) : (before ++ p).head?.any isWord = before.head?.any isWord := by
  cases before with
  | cons c before => rfl
  | nil =>
    cases p with
    | nil => rfl
    | cons c p => exact not_isWord_of_isBlank (hp c List.mem_cons_self)

theorem Needle.marginBlind {n : Needle} (ht : isTight n.text = true) :
    MarginBlind false n.startsAt where
  atBlank before c after hc := by
    have hhead := ((Bool.and_eq_true _ _).mp ht).1
    rw [Needle.startsAt]
    cases htext : n.text with
    | nil => rw [htext] at hhead; exact absurd hhead Bool.false_ne_true
    | cons d rest =>
      rw [htext, List.head?_cons, Option.any_some] at hhead
      have hne : d ≠ c := fun he => by rw [he, hc] at hhead; exact Bool.false_ne_true hhead
      rw [List.isPrefixOf_cons_cons, beq_false_of_ne hne, Bool.false_and, Bool.false_and]
  atEnd before := by
    have hhead := ((Bool.and_eq_true _ _).mp ht).1
    rw [Needle.startsAt]
    cases htext : n.text with
    | nil => rw [htext] at hhead; exact absurd hhead Bool.false_ne_true
    | cons d rest => rfl
  margins h before after := by
    rw [Needle.startsAt, Needle.startsAt, isPrefixOf_margins ht h,
      any_head?_append_blank h.leading]

theorem contains_margins {text : String} (ht : isTight text.toList = true) {p s : List Char}
    (h : Margins p s) (line : List Char) : contains text (p ++ line ++ s) = contains text line :=
  anyCut_margins (Needle.marginBlind ht) h line

theorem marginBlind_startsWith (text : String) (ht : isTight text.toList = true) :
    MarginBlind false fun k => startsWith text k.after := by
  have h := Needle.marginBlind (n := .plain text) ht
  rwa [funext (startsAt_plain text)] at h

end SuiteLint.Text
