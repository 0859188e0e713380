import SuiteLint.Proofs.Rule.Slashes
import SuiteLint.Proofs.Text.Boundary
import SuiteLint.Proofs.Text.Letters

/-!
# Rules that look at whole words

Three checks ask for a word and not for a part of a longer one: the rule for the type `any`, the
rule for locators in specs, and the sign of independent tests. Each is a search for patterns with
word boundaries, and each search is a condition on what stands around some place of the text. The
conditions ask for a boundary only on the side where the pattern has a word character.
-/

namespace SuiteLint.Rule

open Text Text.Pattern

variable {line : List Char}

/-! ## The type `any` -/

/-- The word `any` behind an opening text and blanks. It does not go on as a longer word. -/
structure AnyBehind (opening : String) (left blanks right line : List Char) : Prop where
  parts : left ++ (opening.toList ++ (blanks ++ ("any".toList ++ right))) = line
  blank : ∀ c ∈ blanks, isBlank c = true
  ends : right.head?.any isWord = false

/-- The type `any` is used: in angle brackets, as the type after a colon, or in a cast. The word
`as` of a cast is not the end of a longer one, and there is a blank behind it. -/
def UsesAny (line : List Char) : Prop :=
  "<any>".toList <:+: line ∨
    (∃ left blanks right, AnyBehind ":" left blanks right line) ∨
    ∃ left blanks right, AnyBehind "as" left blanks right line ∧ blanks ≠ [] ∧
      left.getLast?.any isWord = false

/-- The pattern of `any` behind an opening text, up to the end of the word. -/
def anyPattern (left : Bool) (opening : String) (blanks : Pattern) : Bounded :=
  ⟨left, seq (text opening) (seq blanks (text "any")), true⟩

def anyTypePatterns : List Bounded := [
  anyPattern false ":" (many (one isBlank)),
  .plain "<any>",
  anyPattern true "as" (plus (one isBlank))]

theorem matches_any_iff {opening : String} {blanks : Pattern} {stretch : List Char} :
    (seq (text opening) (seq blanks (text "any"))).Matches stretch ↔
      ∃ b, blanks.Matches b ∧ opening.toList ++ (b ++ "any".toList) = stretch := by
  constructor
  · intro h
    obtain ⟨o, rest, ho, hrest, rfl⟩ := matches_seq.1 h
    obtain ⟨b, a, hb, ha, rfl⟩ := matches_seq.1 hrest
    rw [matches_text.1 ho, matches_text.1 ha]
    exact ⟨b, hb, rfl⟩
  · intro h
    obtain ⟨b, hb, rfl⟩ := h
    exact .seq (.text opening) (.seq hb (.text "any"))

theorem foundIn_anyPattern {left : Bool} {opening : String} {blanks : Pattern}
    (hopening : left = true → opening.toList.head?.any isWord = true) :
    (anyPattern left opening blanks).FoundIn line ↔ ∃ before b after,
      before ++ (opening.toList ++ (b ++ ("any".toList ++ after))) = line ∧ blanks.Matches b ∧
      (left = true → before.getLast?.any isWord = false) ∧ after.head?.any isWord = false := by
  have hends (before b : List Char) :
      (before ++ (opening.toList ++ (b ++ "any".toList))).getLast?.any isWord = true := by
    simp [List.getLast?_append, show isWord 'y' = true by decide]
  have hstarts (b after : List Char) (hleft : left = true) :
      (opening.toList ++ (b ++ "any".toList) ++ after).head?.any isWord = true :=
    head?_append_any (head?_append_any (hopening hleft) _) _
  constructor
  · intro h
    obtain ⟨before, stretch, after, rfl, hmatch⟩ := h
    obtain ⟨b, hb, rfl⟩ := matches_any_iff.1 hmatch.body
    refine ⟨before, b, after, by simp, hb, fun hleft => ?_, ?_⟩
    · exact (boundary_of_word_after (hstarts b after hleft)).1 (hmatch.left hleft)
    · exact (boundary_of_word_before (hends before b)).1 (hmatch.right rfl)
  · intro h
    obtain ⟨before, b, after, rfl, hb, hbefore, hafter⟩ := h
    refine ⟨before, _, after, ?_, matches_any_iff.2 ⟨b, hb, rfl⟩, fun hleft => ?_, fun _ => ?_⟩
    · simp
    · exact (boundary_of_word_after (hstarts b after hleft)).2 (hbefore hleft)
    · exact (boundary_of_word_before (hends before b)).2 hafter

theorem foundIn_annotation :
    (anyPattern false ":" (many (one isBlank))).FoundIn line ↔
      ∃ left blanks right, AnyBehind ":" left blanks right line := by
  rw [foundIn_anyPattern (absurd · Bool.false_ne_true)]
  refine exists_congr fun left => exists_congr fun blanks => exists_congr fun right => ?_
  rw [matches_many_one]
  constructor
  · intro h
    obtain ⟨hparts, hblank, -, hends⟩ := h
    exact ⟨hparts, hblank, hends⟩
  · intro h
    exact ⟨h.parts, h.blank, nofun, h.ends⟩

theorem foundIn_cast :
    (anyPattern true "as" (plus (one isBlank))).FoundIn line ↔
      ∃ left blanks right, AnyBehind "as" left blanks right line ∧ blanks ≠ [] ∧
        left.getLast?.any isWord = false := by
  rw [foundIn_anyPattern fun _ => by decide]
  refine exists_congr fun left => exists_congr fun blanks => exists_congr fun right => ?_
  rw [matches_plus_one]
  constructor
  · intro h
    obtain ⟨hparts, ⟨hne, hblank⟩, hleft, hends⟩ := h
    exact ⟨⟨hparts, hblank, hends⟩, hne, hleft rfl⟩
  · intro h
    obtain ⟨hany, hne, hleft⟩ := h
    exact ⟨hany.parts, ⟨hne, hany.blank⟩, fun _ => hleft, hany.ends⟩

theorem startsWithAny_iff {s : List Char} :
    startsWithAny s = true ↔ ∃ right, "any".toList ++ right = s ∧ right.head?.any isWord = false := by
  rw [startsWithAny, Bool.and_eq_true, Bool.not_eq_true']
  constructor
  · intro h
    obtain ⟨hany, hends⟩ := h
    obtain ⟨right, rfl⟩ := List.isPrefixOf_iff_prefix.1 hany
    exact ⟨right, rfl, hends⟩
  · intro h
    obtain ⟨right, rfl, hends⟩ := h
    exact ⟨List.isPrefixOf_iff_prefix.2 (List.prefix_append _ _), hends⟩

/-- The blanks before `any` are skipped whole, since `any` starts with none. -/
theorem startsWithAny_blanks_iff {s : List Char} :
    startsWithAny (s.dropWhile isBlank) = true ↔ ∃ blanks right,
      blanks ++ ("any".toList ++ right) = s ∧ (∀ c ∈ blanks, isBlank c = true) ∧
      right.head?.any isWord = false := by
  rw [startsWithAny_iff]
  constructor
  · intro h
    obtain ⟨right, hany, hends⟩ := h
    refine ⟨s.takeWhile isBlank, right, ?_, fun c hc => List.mem_takeWhile_imp hc, hends⟩
    rw [hany, List.takeWhile_append_dropWhile]
  · intro h
    obtain ⟨blanks, right, rfl, hblank, hends⟩ := h
    refine ⟨right, ?_, hends⟩
    rw [List.dropWhile_append_of_pos hblank]
    exact (List.dropWhile_cons_of_neg (show ¬ isBlank 'a' = true by decide)).symm

theorem exists_annotation_iff :
    (∃ k ∈ cuts line, (startsWith ":" k.after &&
      startsWithAny ((k.after.drop 1).dropWhile isBlank)) = true) ↔
      ∃ left blanks right, AnyBehind ":" left blanks right line := by
  rw [exists_cut_iff]
  constructor
  · intro h
    obtain ⟨left, rest, hline, hat⟩ := h
    obtain ⟨hcolon, hany⟩ := (Bool.and_eq_true _ _).mp hat
    obtain ⟨after, rfl⟩ := List.isPrefixOf_iff_prefix.1 hcolon
    obtain ⟨blanks, right, rfl, hblank, hends⟩ := startsWithAny_blanks_iff.1 hany
    exact ⟨left, blanks, right, hline, hblank, hends⟩
  · intro h
    obtain ⟨left, blanks, right, hline, hblank, hends⟩ := h
    refine ⟨left, _, hline, (Bool.and_eq_true _ _).mpr ⟨rfl, ?_⟩⟩
    exact startsWithAny_blanks_iff.2 ⟨blanks, right, rfl, hblank, hends⟩

theorem exists_cast_iff :
    (∃ k ∈ cuts line, ((Needle.word "as").startsAt k && next isBlank (k.after.drop 2) &&
      startsWithAny ((k.after.drop 2).dropWhile isBlank)) = true) ↔
      ∃ left blanks right, AnyBehind "as" left blanks right line ∧ blanks ≠ [] ∧
        left.getLast?.any isWord = false := by
  rw [exists_cut_iff]
  simp only [Bool.and_eq_true, Needle.startsAt_word_iff, List.head?_reverse]
  constructor
  · intro h
    obtain ⟨left, rest, hline, ⟨⟨⟨after, rfl⟩, hleft⟩, hspace⟩, hany⟩ := h
    obtain ⟨blanks, right, rfl, hblank, hends⟩ := startsWithAny_blanks_iff.1 hany
    refine ⟨left, blanks, right, ⟨hline, hblank, hends⟩, ?_, hleft⟩
    rintro rfl
    exact absurd hspace (show ¬ isBlank 'a' = true by decide)
  · intro h
    obtain ⟨left, blanks, right, ⟨hline, hblank, hends⟩, hne, hleft⟩ := h
    refine ⟨left, _, hline, ⟨⟨List.prefix_append _ _, hleft⟩, ?_⟩, ?_⟩
    · obtain ⟨c, more, rfl⟩ := List.exists_cons_of_ne_nil hne
      exact hblank c List.mem_cons_self
    · exact startsWithAny_blanks_iff.2 ⟨blanks, right, rfl, hblank, hends⟩

theorem hasAnyType_iff : hasAnyType line = true ↔ UsesAny line := by
  have hbrackets : (∃ k ∈ cuts line, startsWith "<any>" k.after = true) ↔
      "<any>".toList <:+: line := by
    rw [← contains_iff, contains, Needle.occursIn, anyCut_eq_any, List.any_eq_true]
    simp only [startsAt_plain]
  rw [UsesAny, hasAnyType, anyCut_eq_any, List.any_eq_true, ← exists_annotation_iff,
    ← exists_cast_iff, ← hbrackets, or_left_comm]
  simp only [anyTypeAt, Bool.or_eq_true, and_or_left, exists_or, or_assoc]

theorem fires_any_type_iff : Review.Fires "any_type" line ↔ hasAnyType line = true := by
  have hrule : Review.Fires "any_type" line ↔ (mark (hasAnyType line)).isSome :=
    Review.fires_iff (show lineRules[4] ∈ lineRules from List.getElem_mem _)
  rw [hrule, isSome_mark]

theorem exists_foundIn_anyTypePatterns :
    (∃ p ∈ anyTypePatterns, p.FoundIn line) ↔ UsesAny line := by
  rw [UsesAny, ← foundIn_annotation, ← foundIn_cast, ← Bounded.foundIn_plain, or_left_comm]
  simp only [anyTypePatterns, List.exists_mem_cons_iff, List.not_mem_nil, false_and, exists_false,
    or_false]

/-! ## Locators -/

/-- What elements are told by in calls that locate them. -/
def accessors : List String :=
  ["Role", "Text", "Label", "Placeholder", "TestId", "AltText", "Title"]

def accessorCall (name : String) : String :=
  ".getBy" ++ name ++ "("

/-- A line locates elements: by a call behind a dollar sign, by XPath, by one of the accessors, or
by `locator(` where that is not the end of a longer word. -/
def Locates (line : List Char) : Prop :=
  "$(".toList <:+: line ∨ "xpath(".toList <:+: line ∨
    (∃ name ∈ accessors, (accessorCall name).toList <:+: line) ∨ ∃ i, WordAt "locator(" line i

/-- A dollar sign or two before a bracket. -/
def dollars : Bounded :=
  ⟨false, seq (text "$") (seq (maybe (text "$")) (text "(")), false⟩

def locatorPatterns : List Bounded :=
  .plain ".locator(" :: .word "locator(" :: dollars :: .plain "xpath(" ::
    accessors.map fun name => .plain (accessorCall name)

theorem locatorNeedles_eq :
    locatorNeedles = .plain ".locator(" :: .word "locator(" :: .plain "$(" :: .plain "xpath(" ::
      accessors.map fun name => .plain (accessorCall name) := by
  decide

/-- A second dollar sign makes no difference. -/
theorem foundIn_dollars : dollars.FoundIn line ↔ "$(".toList <:+: line := by
  rw [Bounded.foundIn_of_free rfl rfl]
  constructor
  · intro h
    obtain ⟨left, stretch, right, rfl, hmatch⟩ := h
    obtain ⟨d, rest, hd, hrest, rfl⟩ := matches_seq.1 hmatch
    obtain ⟨m, b, hm, hb, rfl⟩ := matches_seq.1 hrest
    rw [matches_text.1 hd, matches_text.1 hb]
    rcases matches_either.1 hm with hm | hm
    · rw [matches_text.1 hm]
      exact ⟨left ++ ['$'], right, by simp⟩
    · rw [matches_text.1 hm]
      exact ⟨left, right, by simp⟩
  · intro h
    obtain ⟨left, right, rfl⟩ := h
    exact ⟨left, _, right, rfl, .seq (.text "$") (.seq (.right (.text "")) (.text "("))⟩

/-- A dot is no word character, so a call on an object is a call not inside a word. -/
theorem wordAt_of_call (h : ".locator(".toList <:+: line) : ∃ i, WordAt "locator(" line i := by
  obtain ⟨left, right, rfl⟩ := h
  rw [exists_wordAt_iff]
  refine ⟨left ++ ['.'], right, by simp, ?_⟩
  rw [List.getLast?_concat]
  decide

theorem foundIn_locator :
    (Bounded.word "locator(").FoundIn line ↔ ∃ i, WordAt "locator(" line i :=
  Bounded.foundIn_word (by decide)

theorem exists_foundIn_accessors :
    (∃ p ∈ accessors.map fun name => Bounded.plain (accessorCall name), p.FoundIn line) ↔
      ∃ name ∈ accessors, (accessorCall name).toList <:+: line := by
  simp only [List.mem_map, exists_exists_and_eq_and, Bounded.foundIn_plain]

theorem applies_locator_iff :
    Review.Applies "locator_in_test" line ↔ ∃ p ∈ locatorPatterns, p.FoundIn line := by
  have hrule : Review.Applies "locator_in_test" line ↔ locatorNeedles.any (·.occursIn line) :=
    Review.applies_iff (show layerRules[0] ∈ layerRules from List.getElem_mem _)
  have hplain (t : String) : (Needle.plain t).occursIn line = true ↔ t.toList <:+: line :=
    contains_iff
  rw [hrule, locatorNeedles_eq, locatorPatterns]
  simp only [List.any_cons, List.any_map, List.any_eq_true, Function.comp_apply, Bool.or_eq_true,
    List.exists_mem_cons_iff, hplain, Needle.occursIn_word_iff, Bounded.foundIn_plain,
    foundIn_locator, foundIn_dollars, exists_foundIn_accessors]

theorem exists_foundIn_tail_locatorPatterns :
    (∃ p ∈ locatorPatterns.tail, p.FoundIn line) ↔ Locates line := by
  rw [locatorPatterns, List.tail_cons, List.exists_mem_cons_iff, List.exists_mem_cons_iff,
    List.exists_mem_cons_iff, exists_foundIn_accessors, foundIn_locator, foundIn_dollars,
    Bounded.foundIn_plain, Locates, or_comm, or_assoc, or_assoc]

/-- The pattern for calls on an object finds nothing that the next one does not find. -/
theorem exists_foundIn_locatorPatterns :
    (∃ p ∈ locatorPatterns, p.FoundIn line) ↔ ∃ p ∈ locatorPatterns.tail, p.FoundIn line := by
  constructor
  · intro h
    obtain ⟨p, hp, hfound⟩ := h
    rcases List.mem_cons.1 hp with rfl | hp
    · have hword := wordAt_of_call (Bounded.foundIn_plain.1 hfound)
      exact ⟨_, List.mem_cons_self, foundIn_locator.2 hword⟩
    · exact ⟨p, hp, hfound⟩
  · intro h
    obtain ⟨p, hp, hfound⟩ := h
    exact ⟨p, List.mem_of_mem_tail hp, hfound⟩

/-! ## Independent tests -/

theorem independenceSign_mem_iff {content : List Char} :
    independenceSign ∈ filePositives content ↔ 1 < testDeclaration.countIn content ∧
      sharedSetUp.countIn content = 0 ∧ ¬ sharedSettings.toList <:+: content := by
  rw [← contains_iff]
  unfold filePositives testsAreIndependent
  simp [and_assoc]

theorem scans_testDeclaration {content : List Char} {n : Nat} :
    (Bounded.word "test(").Scans [] content n ↔ testDeclaration.countIn content = n :=
  Bounded.scans_word_iff (by decide) (by decide)

theorem scans_sharedSetUp {content : List Char} {n : Nat} :
    (Bounded.word "beforeEach(").Scans [] content n ↔ sharedSetUp.countIn content = n :=
  Bounded.scans_word_iff (by decide) (by decide)

theorem independenceSign_mem_iff_scans {content : List Char} :
    independenceSign ∈ filePositives content ↔ ∃ tests setUps,
      (Bounded.word "test(").Scans [] content tests ∧
      (Bounded.word "beforeEach(").Scans [] content setUps ∧
      1 < tests ∧ setUps = 0 ∧ ¬ sharedSettings.toList <:+: content := by
  rw [independenceSign_mem_iff]
  constructor
  · intro h
    exact ⟨_, _, scans_testDeclaration.2 rfl, scans_sharedSetUp.2 rfl, h⟩
  · intro h
    obtain ⟨tests, setUps, htests, hsetUps, h⟩ := h
    rw [scans_testDeclaration.1 htests, scans_sharedSetUp.1 hsetUps]
    exact h

theorem independenceSign_mem_iff_wordAt {content : List Char} :
    independenceSign ∈ filePositives content ↔
      (∃ i j, i ≠ j ∧ WordAt "test(" content i ∧ WordAt "test(" content j) ∧
      (∀ i, ¬ WordAt "beforeEach(" content i) ∧ ¬ sharedSettings.toList <:+: content := by
  rw [independenceSign_mem_iff, testDeclaration, sharedSetUp, Needle.one_lt_countIn_word_iff,
    Needle.countIn_word_eq_zero_iff]

/-! ## The rules together -/

/-- What the rules that look at whole words find, for every text. The type `any` and locators are
searches for patterns with word boundaries, and tests are counted by a pass from the left for such a
pattern; each of them is a condition on the places of the text. Of the patterns for locators, the
first is of no use. A word character is a letter, a character with a numeric value or the
underscore. -/
theorem word_rules_closed_form (s : List Char) :
    (Review.Fires "any_type" s ↔ ∃ p ∈ anyTypePatterns, p.FoundIn s) ∧
    (Review.Fires "any_type" s ↔ UsesAny s) ∧
    (Review.Applies "locator_in_test" s ↔ ∃ p ∈ locatorPatterns, p.FoundIn s) ∧
    (Review.Applies "locator_in_test" s ↔ ∃ p ∈ locatorPatterns.tail, p.FoundIn s) ∧
    (Review.Applies "locator_in_test" s ↔ Locates s) ∧
    (independenceSign ∈ filePositives s ↔ ∃ tests setUps,
      (Bounded.word "test(").Scans [] s tests ∧ (Bounded.word "beforeEach(").Scans [] s setUps ∧
      1 < tests ∧ setUps = 0 ∧ ¬ "test.use".toList <:+: s) ∧
    (independenceSign ∈ filePositives s ↔
      (∃ i j, i ≠ j ∧ WordAt "test(" s i ∧ WordAt "test(" s j) ∧
      (∀ i, ¬ WordAt "beforeEach(" s i) ∧ ¬ "test.use".toList <:+: s) ∧
    ∀ c, isWord c = true ↔ c = '_' ∨ isLetter c = true ∨ hasNumericValue c = true := by
  have hany : Review.Fires "any_type" s ↔ UsesAny s := fires_any_type_iff.trans hasAnyType_iff
  have htail : Review.Applies "locator_in_test" s ↔ ∃ p ∈ locatorPatterns.tail, p.FoundIn s :=
    applies_locator_iff.trans exists_foundIn_locatorPatterns
  exact ⟨hany.trans exists_foundIn_anyTypePatterns.symm, hany, applies_locator_iff, htail,
    htail.trans exists_foundIn_tail_locatorPatterns, independenceSign_mem_iff_scans,
    independenceSign_mem_iff_wordAt, fun c => isWord_iff⟩

/-- Candidates may overlap, and letters and digits of any script go on as a word. -/
example : hasAnyType "x as as any".toList = true ∧ hasAnyType ": : any]".toList = true ∧
    hasAnyType "éas any".toList = false ∧ hasAnyType ": any٣".toList = false := by
  decide +kernel

end SuiteLint.Rule
