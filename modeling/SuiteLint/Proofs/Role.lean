import SuiteLint.Role
import SuiteLint.Proofs.Path.Characters
import SuiteLint.Proofs.Path.Components

/-!
# The layer of a file, from the components of its path

The role of a path without `..` depends on its components and those of the current directory, on its
ending, and on whether `page` occurs in it in lower case. Spelling the path in its normal form
changes none of these, so both spellings give the file one role.
-/

namespace SuiteLint.Role

open SuiteLint.Path

/-! ## Lower case -/

/-- A text and its lower case. A character of ASCII becomes one character. Any other may become
several, of which `i` and `k` alone can be of ASCII: the capital `I` with a dot above gives the one
and the sign of the kelvin the other. -/
inductive LowerCased : List Char → List Char → Prop where
  | nil : LowerCased [] []
  | ascii {c : Char} {s t : List Char} (hc : c.toNat < 128) (ht : LowerCased s t) :
      LowerCased (c :: s) (c.toLower :: t)
  | other {c : Char} {s t block : List Char} (hc : 128 ≤ c.toNat) (hblock : block ≠ [])
      (hsmall : ∀ d ∈ block, d.toNat < 128 → d = 'i' ∨ d = 'k') (ht : LowerCased s t) :
      LowerCased (c :: s) (block ++ t)

/-- Whether a character comes from ASCII alone when a text is put in lower case. -/
def isSettled (c : Char) : Bool :=
  c.toNat < 128 && c != 'i' && c != 'k'

theorem toLower_of_not_ascii {c : Char} (hc : 128 ≤ c.toNat) : c.toLower = c := by
  have hlarge : ¬ (c.val ≥ 'A'.val ∧ c.val ≤ 'Z'.val) := by
    intro h
    have hle : c.toNat ≤ 'Z'.toNat := UInt32.le_iff_toNat_le.1 h.2
    have hZ : 'Z'.toNat = 90 := rfl
    omega
  exact dif_neg hlarge

theorem lowerCased_map_toLower (s : List Char) : LowerCased s (s.map Char.toLower) := by
  induction s with
  | nil => exact .nil
  | cons c s ih =>
    by_cases hc : c.toNat < 128
    · exact .ascii hc ih
    · have hlarge : 128 ≤ c.toNat := Nat.le_of_not_lt hc
      rw [List.map_cons, toLower_of_not_ascii hlarge]
      refine .other hlarge (List.cons_ne_nil c []) ?_ ih
      intro d hd hsmall
      rw [List.mem_singleton.1 hd] at hsmall
      exact absurd hsmall hc

section

variable {word s t : List Char} (hword : word.all isSettled = true)

include hword

theorem settled_of_mem {c : Char} (hmem : c ∈ word) : c.toNat < 128 ∧ c ≠ 'i' ∧ c ≠ 'k' := by
  simpa [isSettled, and_assoc] using List.all_eq_true.1 hword c hmem

theorem not_mem_of_not_ascii {c : Char} (hc : 128 ≤ c.toNat) : c ∉ word := by
  intro hmem
  have hsmall := (settled_of_mem hword hmem).1
  omega

theorem not_mem_of_block {block : List Char}
    (hsmall : ∀ d ∈ block, d.toNat < 128 → d = 'i' ∨ d = 'k') : ∀ d ∈ block, d ∉ word := by
  intro d hd hmem
  obtain ⟨hascii, hi, hk⟩ := settled_of_mem hword hmem
  rcases hsmall d hd hascii with rfl | rfl
  · exact hi rfl
  · exact hk rfl

theorem prefix_iff_of_lowerCased (h : LowerCased s t) :
    word <+: t ↔ word <+: s.map Char.toLower := by
  induction h generalizing word with
  | nil => rfl
  | @ascii c s t hc ht ih =>
    cases word with
    | nil => simp
    | cons d word =>
      have htail : word.all isSettled = true := by
        rw [List.all_cons, Bool.and_eq_true] at hword
        exact hword.2
      rw [List.map_cons, List.cons_prefix_cons, List.cons_prefix_cons, ih htail]
  | @other c s t block hc hblock hsmall ht ih =>
    cases word with
    | nil => simp
    | cons d word =>
      -- Neither text starts with a character of the word.
      obtain ⟨first, rest, rfl⟩ := List.exists_cons_of_ne_nil hblock
      have hfirst : d ≠ first := by
        rintro rfl
        exact not_mem_of_block hword hsmall d List.mem_cons_self List.mem_cons_self
      have hupper : d ≠ c := by
        rintro rfl
        exact not_mem_of_not_ascii hword hc List.mem_cons_self
      rw [List.map_cons, List.cons_append, List.cons_prefix_cons, List.cons_prefix_cons,
        toLower_of_not_ascii hc]
      simp [hfirst, hupper]

/-- Characters outside ASCII neither add to a word nor stand inside it. -/
theorem infix_iff_of_lowerCased (h : LowerCased s t) :
    word <:+: t ↔ word <:+: s.map Char.toLower := by
  induction h with
  | nil => rfl
  | @ascii c s t hc ht ih =>
    have hprefix := prefix_iff_of_lowerCased hword (.ascii hc ht)
    rw [List.map_cons] at hprefix ⊢
    rw [List.infix_cons_iff, List.infix_cons_iff, hprefix, ih]
  | @other c s t block hc hblock hsmall ht ih =>
    have hupper : ∀ d ∈ [c], d ∉ word := by
      intro d hd
      rw [List.mem_singleton.1 hd]
      exact not_mem_of_not_ascii hword hc
    rw [Text.infix_append_left (not_mem_of_block hword hsmall), ih, List.map_cons,
      toLower_of_not_ascii hc, ← List.singleton_append, Text.infix_append_left hupper]

end

theorem page_infix_iff_of_lowerCased {s t : List Char} (h : LowerCased s t) :
    "page".toList <:+: t ↔ "page".toList <:+: s.map Char.toLower :=
  infix_iff_of_lowerCased (by decide) h

/-! ## Page objects -/

/-- A path mentions a page exactly when one of its names does. -/
theorem page_infix_iff_steps (p : String) :
    "page".toList <:+: p.toList.map Char.toLower ↔
      ∃ name ∈ steps p, "page".toList <:+: name.toList.map Char.toLower := by
  constructor
  · intro h
    obtain ⟨word, hinfix, hword⟩ := List.infix_map_iff.1 h
    have hslash : '/' ∉ word := by
      intro hmem
      have hlower : '/' ∈ "page".toList := hword ▸ List.mem_map.2 ⟨'/', hmem, rfl⟩
      exact absurd hlower (by decide)
    obtain ⟨part, hpart, hinside⟩ := (Text.infix_iff_splitOn hslash p.toList).1 hinfix
    have hchars : (String.ofList part).toList = part := String.toList_ofList
    have hpage : "page".toList <:+: (String.ofList part).toList.map Char.toLower := by
      rw [hchars]
      exact List.infix_map_iff.2 ⟨word, hinside, hword⟩
    refine ⟨String.ofList part, List.mem_filter.2 ⟨List.mem_map.2 ⟨part, hpart, rfl⟩, ?_⟩, hpage⟩
    apply decide_eq_true
    constructor
    · intro hempty
      rw [hempty] at hpage
      exact absurd hpage (by decide)
    · intro hhere
      rw [hhere] at hpage
      exact absurd hpage (by decide)
  · intro h
    obtain ⟨name, hname, hpage⟩ := h
    obtain ⟨part, hpart, rfl⟩ := List.mem_map.1 (List.mem_filter.1 hname).1
    have hchars : (String.ofList part).toList = part := String.toList_ofList
    rw [hchars] at hpage
    obtain ⟨word, hinside, hword⟩ := List.infix_map_iff.1 hpage
    have hslash : '/' ∉ word := fun hmem =>
      Text.not_mem_of_mem_splitOn hpart (hinside.subset hmem)
    exact List.infix_map_iff.2
      ⟨word, (Text.infix_iff_splitOn hslash p.toList).2 ⟨part, hpart, hinside⟩, hword⟩

theorem isPageObject_iff {path : String} :
    isPageObject path = true ↔ "validators" ∉ (components path).dropLast ∧
      "page".toList <:+: path.toList.map Char.toLower := by
  rw [isPageObject, Bool.and_eq_true, Bool.not_eq_true', ← Bool.not_eq_true, isValidator,
    passesThrough_iff, Text.contains_iff]

/-! ## Specs -/

section

variable {cwd path : String} (habsolute : isAbsolute cwd = true) (hnormal : normalForm cwd = cwd)
  (habove : ".." ∉ components path)

include habsolute hnormal habove

theorem isTestSpec_iff :
    isTestSpec cwd path = true ↔ ".spec.ts".toList <:+ path.toList ∧
      ("tests" ∈ (components path).dropLast ∨
        path.toList.head? ≠ some '/' ∧ "tests" ∈ components cwd) := by
  rw [isTestSpec, Bool.and_eq_true, Bool.or_eq_true, passesThrough_iff, passesThrough_iff,
    components_absolute habsolute hnormal habove, hasEnding, List.isSuffixOf_iff_suffix]
  refine and_congr_right fun hending => ?_
  -- The ending puts a name after all directories.
  have hname : components path ≠ [] :=
    components_ne_nil (hending.subset (show 's' ∈ ".spec.ts".toList by decide)) rfl (by decide)
  rw [List.dropLast_append_of_ne_nil hname, List.mem_append, Ne, ← isAbsolute_iff]
  cases isAbsolute path with
  | true => simp
  | false =>
    rw [if_neg Bool.false_ne_true, and_iff_right Bool.false_ne_true]
    exact ⟨fun h => h.elim .inl .symm, fun h => h.imp_right .inl⟩

end

/-! ## Other spellings -/

theorem hasEnding_spec_tidy {path : String} (hslash : hasEnding "/" path = false)
    (hhere : hasEnding "/." path = false) :
    hasEnding ".spec.ts" (tidy path) = hasEnding ".spec.ts" path := by
  have hspec : '/' ∉ ".spec.ts".toList := by decide
  rcases getLast?_split_of_hasEnding hslash hhere with rfl | rfl | ⟨name, hlast, hempty, hdot⟩
  · decide
  · decide
  · rw [hasEnding_of_getLast? hspec hlast,
      hasEnding_of_getLast? hspec (getLast?_split_tidy hlast hempty hdot)]

theorem isPageObject_tidy {path : String} (hback : '\\' ∉ path.toList)
    (htidy : '\\' ∉ (tidy path).toList) : isPageObject (tidy path) = isPageObject path := by
  have hsteps : steps (tidy path) = steps path := by
    rw [← components_eq_steps htidy, components_tidy, components_eq_steps hback]
  rw [Bool.eq_iff_iff, isPageObject_iff, isPageObject_iff, components_tidy,
    page_infix_iff_steps (tidy path), hsteps, ← page_infix_iff_steps]

section

variable {cwd path : String} (habsolute : isAbsolute cwd = true) (hnormal : normalForm cwd = cwd)
  (habove : ".." ∉ components path)

include habsolute hnormal habove

theorem isTestSpec_tidy (hslash : hasEnding "/" path = false)
    (hhere : hasEnding "/." path = false) :
    isTestSpec cwd (tidy path) = isTestSpec cwd path := by
  have htidy : ".." ∉ components (tidy path) := by rwa [components_tidy]
  have hending := hasEnding_spec_tidy hslash hhere
  rw [hasEnding, hasEnding, Bool.eq_iff_iff, List.isSuffixOf_iff_suffix,
    List.isSuffixOf_iff_suffix] at hending
  rw [Bool.eq_iff_iff, isTestSpec_iff habsolute hnormal htidy,
    isTestSpec_iff habsolute hnormal habove, components_tidy, hending, Ne, Ne, ← isAbsolute_iff,
    ← isAbsolute_iff, isAbsolute_tidy]

theorem detect_normalize (hback : '\\' ∉ path.toList) (hslash : hasEnding "/" path = false)
    (hhere : hasEnding "/." path = false) :
    detect cwd (Path.normalize path) = detect cwd path := by
  have htidy : normalForm path = tidy path := normalForm_eq_tidy (above_not_mem_split habove)
  have hplain : '\\' ∉ (tidy path).toList := by
    rw [← htidy]
    intro hmem
    rcases mem_toList_normalForm hmem with h | h | h
    · exact hback h
    · exact absurd h (by decide)
    · exact absurd h (by decide)
  rw [Path.normalize, htidy, toSlashes_eq_self hplain, detect, detect,
    isTestSpec_tidy habsolute hnormal habove hslash hhere, isPageObject_tidy hback hplain]

end

/-- The role of a path without `..`, seen from a directory in normal form. A spec has its ending and
a directory `tests` among its own components or, if the path is relative, among those of the current
directory; a page object has no directory `validators` and mentions a page in lower case; a spec
goes before a page object, and nothing else has a role of its own. Where the path has no backslash
and ends in a name, its normal form has the same role. -/
theorem detect_closed_form {cwd path : String} (habsolute : isAbsolute cwd = true)
    (hnormal : normalForm cwd = cwd) (habove : ".." ∉ components path) {lowered : List Char}
    (hlower : LowerCased path.toList lowered) :
    let spec := ".spec.ts".toList <:+ path.toList ∧
      ("tests" ∈ (components path).dropLast ∨
        path.toList.head? ≠ some '/' ∧ "tests" ∈ components cwd)
    let page := "validators" ∉ (components path).dropLast ∧ "page".toList <:+: lowered
    (isTestSpec cwd path = true ↔ spec) ∧
    (isPageObject path = true ↔ page) ∧
    (spec → detect cwd path = .testSpec) ∧
    (¬ spec → page → detect cwd path = .pageObject) ∧
    (¬ spec → ¬ page → detect cwd path = .other) ∧
    detect cwd path ≠ .validator ∧
    ('\\' ∉ path.toList → ¬ "/".toList <:+ path.toList → ¬ "/.".toList <:+ path.toList →
      detect cwd path = detect cwd (Path.normalize path)) := by
  intro spec page
  have hspec : isTestSpec cwd path = true ↔ spec := isTestSpec_iff habsolute hnormal habove
  have hpage : isPageObject path = true ↔ page := by
    rw [isPageObject_iff, ← page_infix_iff_of_lowerCased hlower]
  refine ⟨hspec, hpage, ?_, ?_, ?_, ?_, ?_⟩
  · intro h
    exact if_pos (hspec.2 h)
  · intro hno h
    rw [detect, if_neg (mt hspec.1 hno), if_pos (hpage.2 h)]
  · intro hno hneither
    rw [detect, if_neg (mt hspec.1 hno), if_neg (mt hpage.1 hneither)]
  · rw [detect]
    split
    · decide
    · split <;> decide
  · intro hback hslash hhere
    rw [← List.isSuffixOf_iff_suffix, Bool.not_eq_true] at hslash hhere
    exact (detect_normalize habsolute hnormal habove hback hslash hhere).symm

/-- A spelling with an empty name, a `.`, capitals and a letter outside ASCII, a small one: it is its
own lower case. -/
def scatteredSpec : String :=
  "src//./é/LoginPAGE.spec.ts"

/-- The directory `tests` is a part of a single name here, between backslashes. -/
def backslashedCwd : String :=
  "/ci\\tests\\run"

theorem detect_closed_form_scattered :
    isAbsolute backslashedCwd = true ∧ normalForm backslashedCwd = backslashedCwd ∧
    ".." ∉ components scatteredSpec ∧
    isPageObject scatteredSpec = true ∧
    detect backslashedCwd scatteredSpec = .testSpec ∧
    detect backslashedCwd (Path.normalize scatteredSpec) = .testSpec := by
  have habsolute : isAbsolute backslashedCwd = true := by decide
  have hnormal : normalForm backslashedCwd = backslashedCwd := by decide +kernel
  have habove : ".." ∉ components scatteredSpec := by decide +kernel
  obtain ⟨-, hpage, hspec, -, -, -, hsame⟩ := detect_closed_form habsolute hnormal habove
    (lowerCased_map_toLower scatteredSpec.toList)
  have hdetect := hspec (by decide +kernel)
  have hnormalize := hsame (by decide +kernel) (by decide +kernel) (by decide +kernel)
  exact ⟨habsolute, hnormal, habove, hpage.2 (by decide +kernel), hdetect, hnormalize ▸ hdetect⟩

end SuiteLint.Role
