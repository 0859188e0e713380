import SuiteLint.Proofs.Review.Findings
import SuiteLint.Proofs.Rule.Margins

/-!
# Locator calls with quoted arguments

The rule for style selectors judges one locator call of a line: the first from the left that has a
quoted text for its first argument. It cites that text as it is. The calls further to the right are
not judged, so a raw selector that comes after a harmless one is missed.
-/

namespace SuiteLint.Rule

open Text

/-! ## Quoted arguments -/

/-- A text that starts, blanks aside, with a non-empty text between two quotes. -/
structure Quotation (s : List Char) where
  blanks : List Char
  opening : Char
  body : List Char
  closing : Char
  after : List Char
  parts : blanks ++ opening :: body ++ closing :: after = s
  isBlank_blanks : ∀ c ∈ blanks, isBlank c = true
  isQuote_opening : isQuote opening = true
  isQuote_closing : isQuote closing = true
  body_ne_nil : body ≠ []
  unquoted : ∀ c ∈ body, isQuote c = false

theorem Quotation.quotedText?_eq {s : List Char} (q : Quotation s) :
    quotedText? s = some q.body := by
  obtain ⟨blanks, opening, body, closing, after, rfl, hblanks, hopening, hclosing, hne, hbody⟩ := q
  have hblank : isBlank opening = false := by
    rw [Bool.eq_false_iff]
    intro hblank
    rw [not_isQuote_of_isBlank hblank] at hopening
    exact absurd hopening nofun
  have hplain : ∀ c ∈ body, (!isQuote c) = true := fun c hc => by rw [hbody c hc]; rfl
  have hdrop : (blanks ++ opening :: body ++ closing :: after).dropWhile isBlank =
      opening :: (body ++ closing :: after) := by
    rw [List.append_assoc, List.dropWhile_append_of_pos hblanks, List.cons_append,
      List.dropWhile_cons_of_neg (by simp [hblank])]
  have htake : (body ++ closing :: after).takeWhile (!isQuote ·) = body := by
    rw [List.takeWhile_append_of_pos hplain, List.takeWhile_cons_of_neg (by simp [hclosing]),
      List.append_nil]
  have hrest : (body ++ closing :: after).dropWhile (!isQuote ·) = closing :: after := by
    rw [List.dropWhile_append_of_pos hplain, List.dropWhile_cons_of_neg (by simp [hclosing])]
  rw [quotedText?, hdrop]
  dsimp only
  rw [htake, hrest]
  simp [hopening, next, hclosing, hne]

theorem exists_quotation {s body : List Char} (h : quotedText? s = some body) :
    ∃ q : Quotation s, q.body = body := by
  unfold quotedText? at h
  split at h
  · exact absurd h nofun
  rename_i opening rest hdrop
  dsimp only at h
  split at h
  · rename_i hquoted
    obtain rfl := Option.some.inj h
    simp only [Bool.and_eq_true, Bool.not_eq_true', List.isEmpty_eq_false_iff] at hquoted
    obtain ⟨⟨hopening, hne⟩, hnext⟩ := hquoted
    cases hclosing : rest.dropWhile (!isQuote ·) with
    | nil =>
      rw [hclosing] at hnext
      exact absurd hnext nofun
    | cons closing after =>
      rw [hclosing] at hnext
      refine ⟨⟨s.takeWhile isBlank, opening, _, closing, after, ?_,
        fun c hc => List.mem_takeWhile_imp hc, hopening, hnext, hne,
        fun c hc => by simpa using List.mem_takeWhile_imp hc⟩, rfl⟩
      rw [← hclosing, List.append_assoc, List.cons_append, List.takeWhile_append_dropWhile,
        ← hdrop, List.takeWhile_append_dropWhile]
  · exact absurd h nofun

/-- A quoted argument is read at a cut where one of the calls stands before it. -/
theorem locatorArgument?_eq_some_iff {k : Cut} {selector : List Char} :
    locatorArgument? k = some selector ↔ ∃ call ∈ locatorCalls, ∃ rest,
      call.toList ++ rest = k.after ∧ quotedText? rest = some selector := by
  constructor
  · intro h
    obtain ⟨call, hcall, hfound⟩ := List.exists_of_findSome?_eq_some h
    split at hfound
    · rename_i hstarts
      obtain ⟨rest, hrest⟩ := List.isPrefixOf_iff_prefix.1 hstarts
      refine ⟨call, hcall, rest, hrest, ?_⟩
      rwa [← hrest, List.drop_left] at hfound
    · exact absurd hfound nofun
  · rintro ⟨call, hcall, rest, hafter, hquoted⟩
    have hstarts : startsWith call k.after = true :=
      List.isPrefixOf_iff_prefix.2 ⟨rest, hafter⟩
    have hdrop : k.after.drop call.toList.length = rest := by rw [← hafter, List.drop_left]
    unfold locatorArgument? locatorCalls
    rcases List.mem_pair.1 hcall with rfl | rfl
    · rw [List.findSome?_cons, if_pos hstarts, hdrop, hquoted]
    -- The calls differ in their first characters, so the other one does not stand here.
    · have hother : startsWith "page.locator(" k.after = false := by rw [← hafter]; rfl
      rw [List.findSome?_cons, hother, if_neg Bool.false_ne_true, List.findSome?_cons,
        if_pos hstarts, hdrop, hquoted]

/-! ## Calls on a line -/

/-- A locator call on a line with a quoted text for its first argument. -/
structure LocatorCall (line : List Char) where
  before : List Char
  call : String
  rest : List Char
  parts : before ++ (call.toList ++ rest) = line
  isCall : call ∈ locatorCalls
  argument : Quotation rest

variable {line : List Char}

namespace LocatorCall

/-- The text that a call has for its first argument. -/
def selector (c : LocatorCall line) : List Char :=
  c.argument.body

/-- The place where a call starts. -/
def cut (c : LocatorCall line) : Cut :=
  ⟨c.before.reverse, c.call.toList ++ c.rest⟩

theorem cut_mem (c : LocatorCall line) : c.cut ∈ cuts line := by
  rw [mem_cuts, cut, List.reverse_reverse]
  exact c.parts

theorem length_before_cut (c : LocatorCall line) : c.cut.before.length = c.before.length :=
  List.length_reverse

theorem locatorArgument?_cut (c : LocatorCall line) :
    locatorArgument? c.cut = some c.selector := by
  rw [locatorArgument?_eq_some_iff]
  exact ⟨c.call, c.isCall, c.rest, rfl, c.argument.quotedText?_eq⟩

/-- Where a quoted argument is read, a call starts. -/
theorem exists_of_locatorArgument? {k : Cut} (hk : k ∈ cuts line) {selector : List Char}
    (h : locatorArgument? k = some selector) :
    ∃ c : LocatorCall line, c.cut = k ∧ c.selector = selector := by
  obtain ⟨call, hcall, rest, hafter, hquoted⟩ := locatorArgument?_eq_some_iff.1 h
  obtain ⟨q, hbody⟩ := exists_quotation hquoted
  have hparts : k.before.reverse ++ (call.toList ++ rest) = line := by
    rw [hafter]
    exact mem_cuts.1 hk
  refine ⟨⟨k.before.reverse, call, rest, hparts, hcall, q⟩, ?_, hbody⟩
  rw [cut, List.reverse_reverse, hafter]

/-- No call on the line starts further to the left. -/
def IsFirst (c : LocatorCall line) : Prop :=
  ∀ c' : LocatorCall line, c.before.length ≤ c'.before.length

end LocatorCall

/-- The scan of a line ends at its first call. -/
theorem firstCut?_locatorArgument? {selector : List Char} :
    firstCut? locatorArgument? line = some selector ↔
      ∃ c : LocatorCall line, c.IsFirst ∧ c.selector = selector := by
  rw [firstCut?_eq_some_iff]
  constructor
  · rintro ⟨k, hk, hanswer, hleft⟩
    obtain ⟨c, rfl, rfl⟩ := LocatorCall.exists_of_locatorArgument? hk hanswer
    refine ⟨c, fun c' => Nat.le_of_not_lt fun hlt => ?_, rfl⟩
    rw [← c'.length_before_cut, ← c.length_before_cut] at hlt
    exact absurd (c'.locatorArgument?_cut.symm.trans (hleft c'.cut c'.cut_mem hlt)) nofun
  · rintro ⟨c, hfirst, rfl⟩
    refine ⟨c.cut, c.cut_mem, c.locatorArgument?_cut, fun k hk hlt => ?_⟩
    cases hanswer : locatorArgument? k with
    | none => rfl
    | some selector =>
      obtain ⟨c', rfl, -⟩ := LocatorCall.exists_of_locatorArgument? hk hanswer
      have hle := hfirst c'
      rw [c'.length_before_cut, c.length_before_cut] at hlt
      omega

/-- On a line with calls, one is the first. -/
theorem LocatorCall.exists_isFirst (c : LocatorCall line) :
    ∃ first : LocatorCall line, first.IsFirst := by
  cases hscan : firstCut? locatorArgument? line with
  | none =>
    rw [firstCut?_eq_findSome?, List.findSome?_eq_none_iff] at hscan
    exact absurd (c.locatorArgument?_cut.symm.trans (hscan c.cut c.cut_mem)) nofun
  | some selector =>
    obtain ⟨first, hfirst, -⟩ := firstCut?_locatorArgument?.1 hscan
    exact ⟨first, hfirst⟩

theorem LocatorCall.IsFirst.selector_eq {c c' : LocatorCall line} (h : c.IsFirst)
    (h' : c'.IsFirst) : c.selector = c'.selector :=
  Option.some.inj ((firstCut?_locatorArgument?.2 ⟨c, h, rfl⟩).symm.trans
    (firstCut?_locatorArgument?.2 ⟨c', h', rfl⟩))

/-! ## Raw selectors -/

/-- A selector that picks elements by class, by id or by their nesting. -/
def IsRaw (selector : List Char) : Prop :=
  selector.head? = some '.' ∨ selector.head? = some '#' ∨ " > ".toList <:+: selector

theorem isRawSelector_iff {selector : List Char} :
    isRawSelector selector = true ↔ IsRaw selector := by
  have hhead (c : Char) : [c].isPrefixOf selector = true ↔ selector.head? = some c := by
    cases selector with
    | nil => simp [List.isPrefixOf]
    | cons d rest => simpa [List.isPrefixOf] using eq_comm
  have hdot : startsWith "." selector = true ↔ selector.head? = some '.' := hhead '.'
  have hhash : startsWith "#" selector = true ↔ selector.head? = some '#' := hhead '#'
  rw [isRawSelector, Bool.or_eq_true, Bool.or_eq_true, hdot, hhash, contains_iff, or_assoc, IsRaw]

/-- The text of a selector, if it is raw. -/
def rawText? (selector : List Char) : Option String :=
  if isRawSelector selector then some (String.ofList selector) else none

/-- Looking for the names of the calls first makes no difference. -/
theorem badLocator?_eq_bind (line : List Char) :
    badLocator? line = (firstCut? locatorArgument? line).bind rawText? := by
  unfold badLocator?
  split
  · cases firstCut? locatorArgument? line <;> rfl
  · rename_i hnone
    cases hfirst : firstCut? locatorArgument? line with
    | none => rfl
    | some selector =>
      obtain ⟨c, -, -⟩ := firstCut?_locatorArgument?.1 hfirst
      refine absurd (List.any_eq_true.2 ⟨c.call, c.isCall, contains_iff.2 ?_⟩) hnone
      refine ⟨c.before, c.rest, ?_⟩
      rw [List.append_assoc]
      exact c.parts

theorem badLocator?_eq_some_iff {s : String} :
    badLocator? line = some s ↔
      ∃ c : LocatorCall line, c.IsFirst ∧ IsRaw c.selector ∧ String.ofList c.selector = s := by
  rw [badLocator?_eq_bind, Option.bind_eq_some_iff]
  simp only [firstCut?_locatorArgument?, rawText?, ← isRawSelector_iff]
  constructor
  · rintro ⟨selector, ⟨c, hfirst, rfl⟩, hraw⟩
    split at hraw
    · rename_i h
      exact ⟨c, hfirst, h, Option.some.inj hraw⟩
    · exact absurd hraw nofun
  · rintro ⟨c, hfirst, hraw, rfl⟩
    exact ⟨c.selector, ⟨c, hfirst, rfl⟩, if_pos hraw⟩

/-! ## Descriptions -/

/-- A template with the value of each name in braces put in its place. A name that has been begun is
kept with its last character first. What is put in is not read again. -/
def expand (value : String → String) : Option (List Char) → List Char → List Char
  | none, [] => []
  | some _, [] => []
  | none, c :: rest =>
    if c = '\x7b' then expand value (some []) rest else c :: expand value none rest
  | some name, c :: rest =>
    if c = '\x7d' then (value (String.ofList name.reverse)).toList ++ expand value none rest
    else expand value (some (c :: name)) rest

theorem expand_text {text : List Char} (h : '\x7b' ∉ text) (value : String → String)
    (rest : List Char) : expand value none (text ++ rest) = text ++ expand value none rest := by
  induction text with
  | nil => rfl
  | cons c text ih =>
    rw [List.mem_cons, not_or] at h
    rw [List.cons_append, expand, if_neg (Ne.symm h.1), ih h.2, List.cons_append]

theorem expand_name {name : List Char} (h : '\x7d' ∉ name) (value : String → String)
    (begun rest : List Char) :
    expand value (some begun) (name ++ '\x7d' :: rest) =
      (value (String.ofList (begun.reverse ++ name))).toList ++ expand value none rest := by
  induction name generalizing begun with
  | nil => rw [List.nil_append, expand, if_pos rfl, List.append_nil]
  | cons c name ih =>
    rw [List.mem_cons, not_or] at h
    rw [List.cons_append, expand, if_neg (Ne.symm h.1), ih h.2, List.reverse_cons,
      List.append_assoc, List.singleton_append]

/-- The name of the text that a wording cites. -/
def Wording.field : Wording → String
  | .fixed _ => ""
  | .citing _ field _ => field

/-- Whether a template has no braces but those around the name. -/
def Wording.isPlain : Wording → Bool
  | .fixed text => '\x7b' ∉ text.toList
  | .citing before field after =>
    '\x7b' ∉ before.toList ∧ '\x7d' ∉ field.toList ∧ '\x7b' ∉ after.toList

/-- A wording is filled as its template says. -/
theorem Wording.toList_fill {w : Wording} (h : w.isPlain = true) (value : String → String) :
    (w.fill (value w.field)).toList = expand value none w.template.toList := by
  have hend {text : List Char} (htext : '\x7b' ∉ text) : expand value none text = text := by
    simpa only [List.append_nil, expand] using expand_text htext value []
  cases w with
  | fixed text => exact (hend (of_decide_eq_true h)).symm
  | citing before field after =>
    obtain ⟨hbefore, hfield, hafter⟩ := of_decide_eq_true h
    have hbraces : (Wording.citing before field after).template.toList =
        before.toList ++ '\x7b' :: (field.toList ++ '\x7d' :: after.toList) := by
      simp [Wording.template]
    rw [hbraces, expand_text hbefore, expand, if_pos rfl, expand_name hfield, hend hafter]
    simp [Wording.fill, Wording.field]

theorem isPlain_wording : ∀ rule ∈ lineRules, rule.wording.isPlain = true := by decide

/-- The issue about a raw selector. -/
def selectorIssue (selector : String) (number : Int) : Issue :=
  ⟨"bad_locator", "HIGH", "Bad CSS selector: \"" ++ selector ++ "\"", number,
    "Use page.getByRole() or page.getByTestId() instead"⟩

/-- The description holds the selector as it is: its braces are not read. -/
theorem description_selectorIssue (value : String → String) (number : Int) :
    (selectorIssue (value "selector") number).description.toList =
      expand value none "Bad CSS selector: \"\x7bselector\x7d\"".toList :=
  Wording.toList_fill (isPlain_wording _ List.mem_cons_self) value

/-- What the rule reports on a line. -/
theorem mem_lineIssues_selector {number : Int} {issue : Issue} :
    issue ∈ lineIssues line number ∧ issue.rule = "bad_locator" ↔
      isCommentLine line = false ∧
        ∃ s, badLocator? line = some s ∧ issue = selectorIssue s number := by
  have hothers : ∀ rule ∈ lineRules.tail, rule.name ≠ "bad_locator" := by decide
  rw [Review.mem_lineIssues]
  constructor
  · rintro ⟨⟨hcomment, rule, hrule, hissue⟩, hname⟩
    obtain ⟨cited, hcited, rfl⟩ := Option.map_eq_some_iff.1 hissue
    rcases List.mem_cons.1 hrule with rfl | hrule
    · exact ⟨hcomment, cited, hcited, rfl⟩
    · exact absurd hname (hothers rule hrule)
  · rintro ⟨hcomment, s, hs, rfl⟩
    exact ⟨⟨hcomment, _, List.mem_cons_self, Option.map_eq_some_iff.2 ⟨s, hs, rfl⟩⟩, rfl⟩

/-! ## The first call decides -/

/-- The rule cites the quoted argument of the first call that has one, if it is a raw selector, and
nothing otherwise. Looking for the names of the calls first makes no difference. What is reported
holds the selector as it is, put into the template of the description. -/
theorem badLocator?_cites_first (line : List Char) :
    (∀ s, badLocator? line = some s ↔
      ∃ c : LocatorCall line, c.IsFirst ∧ IsRaw c.selector ∧ String.ofList c.selector = s) ∧
    badLocator? line = (firstCut? locatorArgument? line).bind rawText? ∧
    (∀ number issue, issue ∈ lineIssues line number ∧ issue.rule = "bad_locator" ↔
      isCommentLine line = false ∧
        ∃ s, badLocator? line = some s ∧ issue = selectorIssue s number) ∧
    ∀ value number, (selectorIssue (value "selector") number).description.toList =
      expand value none "Bad CSS selector: \"\x7bselector\x7d\"".toList :=
  ⟨fun _ => badLocator?_eq_some_iff, badLocator?_eq_bind line, fun _ _ => mem_lineIssues_selector,
    description_selectorIssue⟩

/-- A brace in a selector is cited like any other character. -/
example : badLocator? "page.locator(`.\x7bid\x7d`)".toList = some ".\x7bid\x7d" := by decide

theorem exists_selectorIssue_iff {number : Int} :
    (∃ issue ∈ lineIssues line number, issue.rule = "bad_locator") ↔
      isCommentLine line = false ∧ ∃ c : LocatorCall line, c.IsFirst ∧ IsRaw c.selector := by
  constructor
  · rintro ⟨issue, hissue, hrule⟩
    obtain ⟨hcomment, s, hs, -⟩ := mem_lineIssues_selector.1 ⟨hissue, hrule⟩
    obtain ⟨c, hfirst, hraw, -⟩ := badLocator?_eq_some_iff.1 hs
    exact ⟨hcomment, c, hfirst, hraw⟩
  · rintro ⟨hcomment, c, hfirst, hraw⟩
    have hs := badLocator?_eq_some_iff.2 ⟨c, hfirst, hraw, rfl⟩
    exact ⟨_, mem_lineIssues_selector.2 ⟨hcomment, _, hs, rfl⟩⟩

/-- On a line with a raw selector an issue is reported exactly when the first call has a raw one. So
it is reported if no call to the left of the raw selector has a harmless one. -/
theorem selector_reported (hcomment : isCommentLine line = false) (c : LocatorCall line)
    (hraw : IsRaw c.selector) (number : Int) :
    ((∃ issue ∈ lineIssues line number, issue.rule = "bad_locator") ↔
      ∀ first : LocatorCall line, first.IsFirst → IsRaw first.selector) ∧
    ((∀ c' : LocatorCall line, c'.before.length < c.before.length → IsRaw c'.selector) →
      ∃ issue ∈ lineIssues line number, issue.rule = "bad_locator") := by
  obtain ⟨first, hfirst⟩ := c.exists_isFirst
  rw [exists_selectorIssue_iff]
  refine ⟨⟨?_, fun hall => ⟨hcomment, first, hfirst, hall first hfirst⟩⟩, fun hleft => ?_⟩
  · rintro ⟨-, c', hc', hraw'⟩ first hfirst
    rwa [hfirst.selector_eq hc']
  · refine ⟨hcomment, first, hfirst, ?_⟩
    by_cases hlt : first.before.length < c.before.length
    · exact hleft first hlt
    -- Otherwise the raw selector is that of the first call itself.
    · have hc : c.IsFirst := by
        intro c'
        have hle := hfirst c'
        omega
      rwa [hfirst.selector_eq hc]

/-- A line with a raw selector, and a harmless one after it. -/
def rawFirst : List Char :=
  "$( \"#menu\").or(page.locator('text=Hi'))".toList

def rawFirstCall : LocatorCall rawFirst where
  before := []
  call := "$("
  rest := " \"#menu\").or(page.locator('text=Hi'))".toList
  parts := rfl
  isCall := by decide
  argument := ⟨[' '], '"', "#menu".toList, '"', ").or(page.locator('text=Hi'))".toList, rfl,
    List.forall_mem_singleton.2 rfl, rfl, rfl, nofun, by simp [isQuote]⟩

theorem selector_reported_rawFirst :
    isCommentLine rawFirst = false ∧ IsRaw rawFirstCall.selector ∧
      ∃ issue ∈ lineIssues rawFirst 1, issue.rule = "bad_locator" := by
  have hcomment : isCommentLine rawFirst = false := by decide
  have hraw : IsRaw rawFirstCall.selector := .inr (.inl rfl)
  refine ⟨hcomment, hraw, (selector_reported hcomment rawFirstCall hraw 1).2 fun c' hlt => ?_⟩
  exact absurd hlt (Nat.not_lt_zero _)

/-- Every raw selector on a line is reported, whatever stands before it. -/
def ReportsEverySelector (line : List Char) : Prop :=
  isCommentLine line = false → ∀ c : LocatorCall line, IsRaw c.selector →
    ∀ number, ∃ issue ∈ lineIssues line number, issue.rule = "bad_locator"

/-- A line with a harmless selector, and a raw one after it. -/
def harmlessFirst : List Char :=
  "page.locator('text=Hi').or(page.locator('.btn'))".toList

def rawSecondCall : LocatorCall harmlessFirst where
  before := "page.locator('text=Hi').or(".toList
  call := "page.locator("
  rest := "'.btn'))".toList
  parts := rfl
  isCall := by decide
  argument := ⟨[], '\'', ".btn".toList, '\'', "))".toList, rfl, nofun, rfl, rfl, nofun,
    by simp [isQuote]⟩

/-- After a call with a harmless selector, a raw one is missed. -/
theorem not_reportsEverySelector_harmlessFirst : ¬ ReportsEverySelector harmlessFirst := by
  intro hreports
  obtain ⟨issue, hissue, -⟩ := hreports (by decide) rawSecondCall (.inl rfl) 1
  have hclean : lineIssues harmlessFirst 1 = [] := by decide +kernel
  rw [hclean] at hissue
  exact absurd hissue List.not_mem_nil

end SuiteLint.Rule
