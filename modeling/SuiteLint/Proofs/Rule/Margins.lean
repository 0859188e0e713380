import Mathlib.Data.List.Basic
import Mathlib.Data.List.Find
import SuiteLint.Proofs.Text.Margins
import SuiteLint.Rule.Layer
import SuiteLint.Rule.Line

/-!
# The rules and the margins of a line

No rule sees the margins of a line: neither its indentation nor blanks at its end other than the
plain space. The line rules look at the line as it is, so this is shown pattern by pattern. The
layer rules and the test for comments trim the line first.
-/

namespace SuiteLint.Rule

open Text

variable {p s : List Char}

/-! ## What comes next -/

theorem next_eq_false {kind : Char → Bool} (hs : ∀ c ∈ s, kind c = false) : next kind s = false := by
  cases s with
  | nil => rfl
  | cons c s => exact hs c List.mem_cons_self

/-- Characters of another kind at the end of a text do not change what comes next in it. -/
theorem next_dropWhile_append {kind : Char → Bool} (hs : ∀ c ∈ s, kind c = false)
    (drop : Char → Bool) (x : List Char) :
    next kind ((x ++ s).dropWhile drop) = next kind (x.dropWhile drop) := by
  rw [List.dropWhile_append]
  split
  · rename_i hempty
    rw [List.isEmpty_iff.1 hempty]
    exact next_eq_false fun c hc => hs c (List.dropWhile_subset drop hc)
  · rename_i hne
    cases hx : x.dropWhile drop with
    | nil => rw [hx] at hne; exact absurd rfl hne
    | cons c rest => rfl

theorem next_append {kind : Char → Bool} (hs : ∀ c ∈ s, kind c = false) (x : List Char) :
    next kind (x ++ s) = next kind x := by
  cases x with
  | nil => exact next_eq_false hs
  | cons c x => rfl

theorem not_isAlpha_of_isBlank {c : Char} (h : isBlank c = true) : c.isAlpha = false := by
  simpa using of_isBlank (fun c => !c.isAlpha) (by decide) h

theorem not_isDecimalDigit_of_isBlank {c : Char} (h : isBlank c = true) :
    isDecimalDigit c = false := by
  simpa using of_isBlank (fun c => !isDecimalDigit c) (by decide +kernel) h

theorem not_isCallNameChar_of_isBlank {c : Char} (h : isBlank c = true) :
    isCallNameChar c = false := by
  simpa using of_isBlank (fun c => !isCallNameChar c) (by decide) h

theorem not_isBracket_of_isBlank {c : Char} (h : isBlank c = true) : (c == '(') = false := by
  simpa using of_isBlank (fun c => !(c == '(')) (by decide) h

theorem not_isQuote_of_isBlank {c : Char} (h : isBlank c = true) : isQuote c = false := by
  simpa using of_isBlank (fun c => !isQuote c) (by decide) h

theorem not_isSlash_of_isBlank {c : Char} (h : isBlank c = true) : c ≠ '/' := by
  simpa using of_isBlank (fun c => c != '/') (by decide) h

/-! ## Comments -/

theorem isCommentLine_margins (h : Margins p s) (line : List Char) :
    isCommentLine (p ++ line ++ s) = isCommentLine line := by
  rw [isCommentLine, trim_margins h.leading h.blank_trailing, isCommentLine]

theorem afterSlashes?_margins (h : Margins p s) (before after : List Char) :
    afterSlashes? ⟨before ++ p, after ++ s⟩ = (afterSlashes? ⟨before, after⟩).map (· ++ s) := by
  have hslash : ∀ c ∈ s, c ≠ '/' := fun c hc => not_isSlash_of_isBlank (h.blank_trailing c hc)
  unfold afterSlashes?
  match after with
  | [] => cases s with
    | nil => rfl
    | cons c s => simp [hslash c List.mem_cons_self]
  | ['/'] => cases s with
    | nil => rfl
    | cons c s => simp [hslash c List.mem_cons_self]
  | [c] => by_cases hc : c = '/' <;> grind
  | c :: d :: rest => by_cases hc : c = '/' <;> by_cases hd : d = '/' <;> simp [hc, hd]

/-- A condition on two slashes is blind to margins if what it asks of the text before and after
them is. -/
theorem marginBlind_slashes {q : List Char → List Char → Bool}
    (hq : ∀ {p s : List Char}, Margins p s →
      ∀ before after, q (before ++ p) (after ++ s) = q before after) :
    MarginBlind false fun k => (afterSlashes? k).any (q k.before) where
  atBlank before c after hc := by
    have hne := not_isSlash_of_isBlank hc
    simp [afterSlashes?, hne]
  atEnd before := rfl
  margins h before after := by
    rw [afterSlashes?_margins h]
    cases afterSlashes? ⟨before, after⟩ with
    | none => rfl
    | some rest => exact hq h before rest

theorem anySlashes_margins {q : List Char → List Char → Bool}
    (hq : ∀ {p s : List Char}, Margins p s →
      ∀ before after, q (before ++ p) (after ++ s) = q before after)
    (h : Margins p s) (line : List Char) : anySlashes q (p ++ line ++ s) = anySlashes q line :=
  anyCut_margins (marginBlind_slashes hq) h line

theorem looksLikeComment_margins (h : Margins p s) (line : List Char) :
    looksLikeComment (p ++ line ++ s) = looksLikeComment line := by
  have hword {p s : List Char} (h : Margins p s) : ∀ c ∈ s, isWord c = false :=
    fun c hc => not_isWord_of_isBlank (h.blank_trailing c hc)
  have hword' {p s : List Char} (h : Margins p s) : ∀ c ∈ p, isWord c = false :=
    fun c hc => not_isWord_of_isBlank (h.leading c hc)
  have hshapes : ∀ shape ∈ commentShapes, shape.holds (p ++ line ++ s) = shape.holds line := by
    simp only [commentShapes, List.forall_mem_cons, List.not_mem_nil, false_implies, implies_true,
      and_true]
    refine ⟨?_, ?_, ?_, ?_, ?_, ?_, ?_⟩
    · rw [trim_margins h.leading h.blank_trailing]
    · exact contains_margins (by decide) h line
    · refine anySlashes_margins (fun h before after => ?_) h line
      rw [next_append (hword' h), next_append (hword h)]
    · refine anySlashes_margins (fun h before after => ?_) h line
      rw [next_dropWhile_append (hword' h), next_dropWhile_append (hword h)]
    · refine anySlashes_margins (fun h before after => ?_) h line
      exact next_dropWhile_append (fun c hc => not_isAlpha_of_isBlank (h.blank_trailing c hc)) _ _
    · refine anySlashes_margins (fun h before after => ?_) h line
      exact next_append (fun c hc => not_isDecimalDigit_of_isBlank (h.blank_trailing c hc)) _
    · refine anySlashes_margins (fun h before after => ?_) h line
      rw [next_append fun c hc => not_isCallNameChar_of_isBlank (h.blank_trailing c hc),
        next_dropWhile_append fun c hc => not_isBracket_of_isBlank (h.blank_trailing c hc)]
  unfold looksLikeComment
  rw [Bool.eq_iff_iff, List.any_eq_true, List.any_eq_true]
  exact exists_congr fun shape => and_congr_right fun hshape => by rw [hshapes shape hshape]

/-! ## Style selectors -/

theorem quotedText?_append (hs : ∀ c ∈ s, isBlank c = true) (x : List Char) :
    quotedText? (x ++ s) = quotedText? x := by
  have hquote : ∀ c ∈ s, isQuote c = false := fun c hc => not_isQuote_of_isBlank (hs c hc)
  cases hx : x.dropWhile isBlank with
  | nil =>
    have hxs : (x ++ s).dropWhile isBlank = [] := by
      rw [List.dropWhile_append, hx]
      exact List.dropWhile_eq_nil_iff.2 hs
    rw [quotedText?, quotedText?, hxs, hx]
  | cons c rest =>
    have hxs : (x ++ s).dropWhile isBlank = c :: (rest ++ s) := by
      rw [List.dropWhile_append, hx]
      rfl
    rw [quotedText?, quotedText?, hxs, hx]
    dsimp only
    rw [next_dropWhile_append hquote]
    cases hclosed : next isQuote (rest.dropWhile (!isQuote ·)) with
    | false => simp only [Bool.and_false, Bool.false_eq_true, ↓reduceIte]
    | true =>
      -- The closing quote stands in `rest`, so the body ends there.
      have hshort : (rest.takeWhile (!isQuote ·)).length ≠ rest.length := by
        intro hlength
        have htake := (List.takeWhile_prefix (p := (!isQuote ·)) (l := rest)).eq_of_length hlength
        have hparts := List.takeWhile_append_dropWhile (p := (!isQuote ·)) (l := rest)
        rw [htake, List.append_right_eq_self] at hparts
        rw [hparts] at hclosed
        exact Bool.false_ne_true hclosed
      rw [List.takeWhile_append, if_neg hshort]

theorem marginBlind_locatorArgument? : MarginBlind none locatorArgument? := by
  have htight : ∀ call ∈ locatorCalls, isTight call.toList = true := by decide
  have hcall (call : String) (hc : call ∈ locatorCalls) :=
    marginBlind_startsWith call (htight call hc)
  refine ⟨fun before c after hblank => ?_, fun before => ?_, fun {p s} h before after => ?_⟩
  · refine List.findSome?_eq_none_iff.2 fun call hc => ?_
    rw [if_neg]
    exact Bool.eq_false_iff.1 ((hcall call hc).atBlank before c after hblank)
  · refine List.findSome?_eq_none_iff.2 fun call hc => ?_
    rw [if_neg]
    exact Bool.eq_false_iff.1 ((hcall call hc).atEnd before)
  · rw [locatorArgument?, locatorArgument?, ← List.head?_filterMap, ← List.head?_filterMap]
    refine congrArg List.head? (List.filterMap_congr fun call hc => ?_)
    have hstart : startsWith call (after ++ s) = startsWith call after :=
      (hcall call hc).margins h before after
    dsimp only
    rw [hstart]
    split
    · rename_i hstart
      have hlength : call.toList.length ≤ after.length :=
        (List.isPrefixOf_iff_prefix.1 hstart).length_le
      rw [List.drop_append_of_le_length hlength, quotedText?_append h.blank_trailing]
    · rfl

theorem badLocator?_margins (h : Margins p s) (line : List Char) :
    badLocator? (p ++ line ++ s) = badLocator? line := by
  have hcalls : (locatorCalls.any fun call => contains call (p ++ line ++ s)) =
      locatorCalls.any fun call => contains call line := by
    rw [locatorCalls, List.any_cons, List.any_cons, contains_margins (by decide) h,
      contains_margins (by decide) h]
    rfl
  rw [badLocator?, badLocator?, hcalls, firstCut?_margins marginBlind_locatorArgument? h]

/-! ## Waiting -/

theorem hasWeakVisibility_margins (h : Margins p s) (line : List Char) :
    hasWeakVisibility (p ++ line ++ s) = hasWeakVisibility line := by
  rw [hasWeakVisibility, hasWeakVisibility, contains_margins (by decide) h,
    contains_margins (by decide) h]

theorem isTight_methodCall : ∀ action ∈ awaitedActions,
    isTight (methodCall action).toList = true := by decide

theorem missingAwait?_margins (h : Margins p s) (line : List Char) :
    missingAwait? (p ++ line ++ s) = missingAwait? line := by
  rw [missingAwait?, missingAwait?, contains_margins (by decide) h]
  split
  · rfl
  · refine List.find?_congr fun action haction => ?_
    exact contains_margins (isTight_methodCall action haction) h line

/-! ## The type `any` -/

theorem startsWithAny_append (h : Margins p s) (x : List Char) :
    startsWithAny (x ++ s) = startsWithAny x := by
  have hstart : startsWith "any" (x ++ s) = startsWith "any" x :=
    isPrefixOf_margins (by decide) h x
  rw [startsWithAny, startsWithAny, hstart]
  cases hstart : startsWith "any" x with
  | false => rfl
  | true =>
    have hlength : 3 ≤ x.length := (List.isPrefixOf_iff_prefix.1 hstart).length_le
    rw [List.drop_append_of_le_length hlength,
      next_append fun c hc => not_isWord_of_isBlank (h.blank_trailing c hc)]

theorem startsWithAny_dropWhile_append (h : Margins p s) (x : List Char) :
    startsWithAny ((x ++ s).dropWhile isBlank) = startsWithAny (x.dropWhile isBlank) := by
  rw [List.dropWhile_append]
  split
  · rename_i hempty
    rw [List.isEmpty_iff.1 hempty, List.dropWhile_eq_nil_iff.2 h.blank_trailing]
  · exact startsWithAny_append h _

theorem marginBlind_typeOf : MarginBlind false fun k =>
    startsWith ":" k.after && startsWithAny ((k.after.drop 1).dropWhile isBlank) := by
  have hcolon := marginBlind_startsWith ":" (by decide)
  refine ⟨fun before c after hc => ?_, fun before => rfl, fun {p s} h before after => ?_⟩
  · rw [hcolon.atBlank before c after hc, Bool.false_and]
  · dsimp only
    rw [show startsWith ":" (after ++ s) = startsWith ":" after from hcolon.margins h before after]
    cases hstart : startsWith ":" after with
    | false => rfl
    | true =>
      have hlength : 1 ≤ after.length := (List.isPrefixOf_iff_prefix.1 hstart).length_le
      rw [List.drop_append_of_le_length hlength, startsWithAny_dropWhile_append h]

theorem marginBlind_cast : MarginBlind false fun k =>
    (Needle.word "as").startsAt k && next isBlank (k.after.drop 2) &&
      startsWithAny ((k.after.drop 2).dropWhile isBlank) := by
  have has : MarginBlind false (Needle.word "as").startsAt := Needle.marginBlind (by decide)
  refine ⟨fun before c after hc => ?_, fun before => rfl, fun {p s} h before after => ?_⟩
  · rw [has.atBlank before c after hc, Bool.false_and, Bool.false_and]
  · dsimp only
    rw [has.margins h before after]
    cases hstarts : (Needle.word "as").startsAt ⟨before, after⟩ with
    | false => rfl
    | true =>
      have hstart : "as".toList.isPrefixOf after = true := ((Bool.and_eq_true _ _).mp hstarts).1
      have hlength : 2 ≤ after.length := (List.isPrefixOf_iff_prefix.1 hstart).length_le
      rw [List.drop_append_of_le_length hlength, startsWithAny_dropWhile_append h]
      cases hrest : after.drop 2 with
      | nil =>
        -- A blank of the margin may follow, but `any` does not.
        rw [List.dropWhile_nil, show startsWithAny [] = false from rfl, Bool.and_false,
          Bool.and_false]
      | cons c rest => rfl

theorem hasAnyType_margins (h : Margins p s) (line : List Char) :
    hasAnyType (p ++ line ++ s) = hasAnyType line :=
  anyCut_margins ((marginBlind_typeOf.or (marginBlind_startsWith _ (by decide))).or
    marginBlind_cast) h line

/-! ## XPath -/

theorem hasXPath_margins (h : Margins p s) (line : List Char) :
    hasXPath (p ++ line ++ s) = hasXPath line := by
  unfold hasXPath hasXPathCall hasXPathExpression isUrlLine
  rw [contains_margins (by decide) h, contains_margins (by decide) h, contains_margins (by decide) h,
    contains_margins (by decide) h, looksLikeComment_margins h]

/-! ## The findings of a line -/

theorem find?_margins (h : Margins p s) (line : List Char) :
    ∀ rule ∈ lineRules, rule.find? (p ++ line ++ s) = rule.find? line := by
  simp only [lineRules, List.forall_mem_cons, List.not_mem_nil, false_implies, implies_true,
    and_true]
  exact ⟨badLocator?_margins h line, congrArg mark (contains_margins (by decide) h line),
    congrArg mark (hasWeakVisibility_margins h line), missingAwait?_margins h line,
    congrArg mark (hasAnyType_margins h line), congrArg mark (hasXPath_margins h line)⟩

theorem lineIssues_margins (h : Margins p s) (line : List Char) (number : Int) :
    lineIssues (p ++ line ++ s) number = lineIssues line number := by
  rw [lineIssues, lineIssues, isCommentLine_margins h]
  split
  · rfl
  · refine List.filterMap_congr fun rule hrule => ?_
    rw [LineRule.issue?, LineRule.issue?, find?_margins h line rule hrule]

theorem linePositives_margins (h : Margins p s) (line : List Char) (number : Int) :
    linePositives (p ++ line ++ s) number = linePositives line number := by
  have htight : ∀ practice ∈ practices, isTight practice.text.toList = true := by decide
  rw [linePositives, linePositives, isCommentLine_margins h]
  split
  · rfl
  · refine congrArg _ (List.filter_congr fun practice hpractice => ?_)
    exact contains_margins (htight practice hpractice) h line

theorem specLineIssues_margins (h : Margins p s) (line : List Char) (number : Int) :
    specLineIssues (p ++ line ++ s) number = specLineIssues line number := by
  rw [specLineIssues, specLineIssues, trim_margins h.leading h.blank_trailing]

end SuiteLint.Rule
