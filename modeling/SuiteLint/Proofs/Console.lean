import SuiteLint.Console

/-!
# Coloured text, read back

A printed text is read as the sequences and the other characters that it is made of. A list of spans
is recovered from it if no text of a span starts a sequence of its own: without the sequences, the
coloured text is the plain one, and the sequences come in pairs of a colour and a reset. Where a text
does hold the start of a sequence, nothing is said.
-/

namespace SuiteLint

/-- The character that every sequence starts with. -/
def escape : Char := '\x1b'

/-- A sequence of a colour, or a character that belongs to none. -/
inductive Mark where
  | sequence (color : Color)
  | char (c : Char)
deriving DecidableEq

def Mark.color? : Mark → Option Color
  | .sequence color => some color
  | .char _ => none

def Mark.char? : Mark → Option Char
  | .sequence _ => none
  | .char c => some c

/-- The colour whose sequence a text starts with. -/
def sequenceAt? (s : List Char) : Option Color :=
  Color.all.find? (·.sequence.toList.isPrefixOf s)

/-- A printed text, taken apart from left to right. Its first characters may still belong to the
sequence before it: as many of them are skipped. -/
def marksFrom : Nat → List Char → List Mark
  | _, [] => []
  | skip + 1, _ :: rest => marksFrom skip rest
  | 0, c :: rest =>
    match sequenceAt? (c :: rest) with
    | some color => .sequence color :: marksFrom (color.sequence.toList.length - 1) rest
    | none => .char c :: marksFrom 0 rest

/-- What a printed text is made of. -/
def marks (s : List Char) : List Mark :=
  marksFrom 0 s

/-- A printed text without its sequences. -/
def strip (s : List Char) : List Char :=
  (marks s).filterMap Mark.char?

/-- The sequences of a printed text. -/
def sequences (s : List Char) : List Color :=
  (marks s).filterMap Mark.color?

/-- Each colour is followed by a reset, and each reset follows a colour. -/
inductive Alternates : List Color → Prop
  | none : Alternates []
  | pair {color : Color} {rest : List Color} (hcolor : color ≠ .reset) (hrest : Alternates rest) :
    Alternates (color :: .reset :: rest)

theorem sequenceAt?_cons_of_ne {c : Char} (h : c ≠ escape) (rest : List Char) :
    sequenceAt? (c :: rest) = none := by
  have hstart : ∀ color ∈ Color.all, color.sequence.toList.head? = some escape := by decide
  rw [sequenceAt?, List.find?_eq_none]
  intro color hcolor hprefix
  obtain ⟨more, hmore⟩ := List.isPrefixOf_iff_prefix.1 hprefix
  obtain ⟨tail, htail⟩ := List.head?_eq_some_iff.1 (hstart color hcolor)
  rw [htail] at hmore
  exact h (List.cons.inj hmore).1.symm

theorem sequenceAt?_append (color : Color) (s : List Char) :
    sequenceAt? (color.sequence.toList ++ s) = some color := by
  cases color <;> rfl

theorem marksFrom_eq_marks_drop (skip : Nat) (s : List Char) :
    marksFrom skip s = marks (s.drop skip) := by
  induction s generalizing skip with
  | nil => cases skip <;> rfl
  | cons c rest ih =>
    cases skip with
    | zero => rfl
    | succ skip => exact ih skip

theorem marks_cons_of_none {c : Char} {rest : List Char} (h : sequenceAt? (c :: rest) = none) :
    marks (c :: rest) = .char c :: marks rest := by
  rw [marks, marksFrom, h]
  rfl

theorem marks_cons_of_some {c : Char} {rest : List Char} {color : Color}
    (h : sequenceAt? (c :: rest) = some color) :
    marks (c :: rest) =
      .sequence color :: marks (rest.drop (color.sequence.toList.length - 1)) := by
  rw [marks, marksFrom, h, ← marksFrom_eq_marks_drop]

theorem marks_append {t : List Char} (h : escape ∉ t) (s : List Char) :
    marks (t ++ s) = t.map .char ++ marks s := by
  induction t with
  | nil => rfl
  | cons c t ih =>
    obtain ⟨hc, ht⟩ := not_or.1 (fun hmem => h (List.mem_cons.2 hmem))
    rw [List.cons_append, marks_cons_of_none (sequenceAt?_cons_of_ne (Ne.symm hc) _), ih ht]
    rfl

theorem marks_sequence_append (color : Color) (s : List Char) :
    marks (color.sequence.toList ++ s) = .sequence color :: marks s := by
  obtain ⟨c, rest, hrest⟩ : ∃ c rest, color.sequence.toList = c :: rest := by
    cases color <;> exact ⟨_, _, rfl⟩
  have hat := sequenceAt?_append color s
  rw [hrest, List.cons_append] at hat ⊢
  rw [marks_cons_of_some hat, hrest, List.length_cons, Nat.add_sub_cancel, List.drop_left]

/-! ## Spans -/

/-- A text that starts no sequence. -/
def Unescaped (text : String) : Prop :=
  escape ∉ text.toList

instance : DecidablePred Unescaped := fun _ => inferInstanceAs (Decidable (_ ∉ _))

theorem unescaped_append {a b : String} : Unescaped (a ++ b) ↔ Unescaped a ∧ Unescaped b := by
  rw [Unescaped, String.toList_append, List.mem_append, not_or]
  rfl

/-- A span that brings no sequence but those of its own colour, which is a colour indeed. -/
inductive Span.Tame : Span → Prop
  | plain {text : String} (h : Unescaped text) : Tame (.plain text)
  | painted {color : Color} {text : String} (hcolor : color ≠ .reset) (h : Unescaped text) :
    Tame (.painted color text)

def Span.marks : Span → List Mark
  | .plain text => text.toList.map .char
  | .painted color text => .sequence color :: text.toList.map .char ++ [.sequence .reset]

def Span.sequences : Span → List Color
  | .plain _ => []
  | .painted color _ => [color, .reset]

theorem Span.filterMap_char?_marks (span : Span) :
    span.marks.filterMap Mark.char? = span.text.toList := by
  have hchars (s : List Char) : (s.map Mark.char).filterMap Mark.char? = s := by
    rw [List.filterMap_map]
    exact List.filterMap_some
  cases span with
  | plain text => exact hchars text.toList
  | painted color text =>
    rw [Span.marks, List.cons_append, List.filterMap_cons_none rfl, List.filterMap_append, hchars]
    exact List.append_nil _

theorem Span.filterMap_color?_marks (span : Span) :
    span.marks.filterMap Mark.color? = span.sequences := by
  have hchars (s : List Char) : (s.map Mark.char).filterMap Mark.color? = [] := by
    rw [List.filterMap_map, List.filterMap_eq_nil_iff]
    exact fun _ _ => rfl
  cases span with
  | plain text => exact hchars text.toList
  | painted color text =>
    have hcolor : Mark.color? (.sequence color) = some color := rfl
    rw [Span.marks, List.cons_append, List.filterMap_cons_some hcolor, List.filterMap_append, hchars]
    rfl

namespace Console

variable {console : Console} {spans : List Span}

theorem toList_render (console : Console) (spans : List Span) :
    (console.render spans).toList = spans.flatMap fun span => (console.renderSpan span).toList := by
  rw [Console.render, String.toList_join, List.flatMap_map]

theorem toList_render_plain (h : console.colored = false) :
    (console.render spans).toList = spans.flatMap fun span => span.text.toList := by
  have hspan : ∀ span, console.renderSpan span = span.text := by
    intro span
    cases span with
    | plain text => rfl
    | painted color text => rw [renderSpan, paint, h, if_neg Bool.false_ne_true, Span.text]
  rw [toList_render]
  simp only [hspan]

theorem escape_not_mem_render_plain (hplain : console.colored = false)
    (h : ∀ span ∈ spans, span.Tame) : escape ∉ (console.render spans).toList := by
  rw [toList_render_plain hplain]
  intro hmem
  obtain ⟨span, hspan, hmem⟩ := List.mem_flatMap.1 hmem
  cases h span hspan with
  | plain htext => exact htext hmem
  | painted _ htext => exact htext hmem

theorem toList_renderSpan_painted (h : console.colored = true) (color : Color) (text : String) :
    (console.renderSpan (.painted color text)).toList =
      color.sequence.toList ++ (text.toList ++ Color.reset.sequence.toList) := by
  rw [renderSpan, paint, if_pos h, String.toList_append, String.toList_append, List.append_assoc]
  rfl

/-- A span is read back, whatever is printed behind it. -/
theorem marks_renderSpan_append (hcolored : console.colored = true) {span : Span} (h : span.Tame)
    (s : List Char) :
    marks ((console.renderSpan span).toList ++ s) = span.marks ++ marks s := by
  cases h with
  | plain htext => exact marks_append htext s
  | @painted color text _ htext =>
    rw [toList_renderSpan_painted hcolored, List.append_assoc, List.append_assoc,
      marks_sequence_append, marks_append htext, marks_sequence_append, Span.marks,
      List.append_assoc]
    rfl

theorem marks_render (hcolored : console.colored = true) (h : ∀ span ∈ spans, span.Tame) :
    marks (console.render spans).toList = spans.flatMap Span.marks := by
  rw [toList_render]
  induction spans with
  | nil => rfl
  | cons span spans ih =>
    obtain ⟨hspan, hspans⟩ := List.forall_mem_cons.1 h
    rw [List.flatMap_cons, marks_renderSpan_append hcolored hspan, ih hspans, List.flatMap_cons]

theorem strip_render (hcolored : console.colored = true) (h : ∀ span ∈ spans, span.Tame) :
    strip (console.render spans).toList = spans.flatMap fun span => span.text.toList := by
  rw [strip, marks_render hcolored h, List.filterMap_flatMap]
  simp only [Span.filterMap_char?_marks]

theorem sequences_render (hcolored : console.colored = true) (h : ∀ span ∈ spans, span.Tame) :
    sequences (console.render spans).toList = spans.flatMap Span.sequences := by
  rw [sequences, marks_render hcolored h, List.filterMap_flatMap]
  simp only [Span.filterMap_color?_marks]

end Console

theorem alternates_flatMap {spans : List Span} (h : ∀ span ∈ spans, span.Tame) :
    Alternates (spans.flatMap Span.sequences) := by
  induction spans with
  | nil => exact .none
  | cons span spans ih =>
    obtain ⟨hspan, hspans⟩ := List.forall_mem_cons.1 h
    rw [List.flatMap_cons]
    cases hspan with
    | plain => exact ih hspans
    | painted hcolor => exact .pair hcolor (ih hspans)

end SuiteLint
