import Mathlib.Data.Finset.Card
import SuiteLint.Proofs.Text.Answers
import SuiteLint.Proofs.Text.Pattern

/-!
# Patterns at the edges of words

A word boundary lies between two characters of which exactly one is a word character, the ends of
the text counting as none. A pattern may ask for a boundary at either of its ends. Where the pattern
itself starts or ends with a word character, that only forbids one on the other side.

Matches are counted by a pass from the left that goes on behind each match. For a literal text that
cannot overlap itself the pass counts the positions at which the text stands, so the order of the
search does not show.
-/

namespace SuiteLint.Text

/-- Exactly one of the characters next to each other is a word character. -/
def Boundary (before after : List Char) : Prop :=
  before.getLast?.any isWord ≠ after.head?.any isWord

theorem boundary_of_word_after {before after : List Char} (h : after.head?.any isWord = true) :
    Boundary before after ↔ before.getLast?.any isWord = false := by
  rw [Boundary, h, ne_eq, Bool.not_eq_true]

theorem boundary_of_word_before {before after : List Char} (h : before.getLast?.any isWord = true) :
    Boundary before after ↔ after.head?.any isWord = false := by
  rw [Boundary, h, ne_comm, ne_eq, Bool.not_eq_true]

theorem head?_append_any {kind : Char → Bool} {s : List Char} (h : s.head?.any kind = true)
    (t : List Char) : (s ++ t).head?.any kind = true := by
  cases s with
  | nil => exact absurd h nofun
  | cons c s => exact h

/-- A pattern that may ask for a word boundary on its left and on its right. -/
structure Bounded where
  left : Bool
  body : Pattern
  right : Bool

namespace Bounded

/-- A stretch of text between two others is matched. -/
structure MatchesAt (p : Bounded) (before stretch after : List Char) : Prop where
  body : p.body.Matches stretch
  left : p.left = true → Boundary before (stretch ++ after)
  right : p.right = true → Boundary (before ++ stretch) after

/-- Some stretch of the text is matched. -/
def FoundIn (p : Bounded) (s : List Char) : Prop :=
  ∃ before stretch after, before ++ stretch ++ after = s ∧ p.MatchesAt before stretch after

/-- Any occurrence of a text. -/
def plain (literal : String) : Bounded :=
  ⟨false, .text literal, false⟩

/-- A text with a word boundary before it. -/
def word (literal : String) : Bounded :=
  ⟨true, .text literal, false⟩

/-- A pass over a text from the left that makes a number of matches, none of them empty. It starts
behind `before`, takes a match where one starts and goes on behind it, and moves on by one character
where none does. -/
inductive Scans (p : Bounded) : List Char → List Char → Nat → Prop
  | done {before : List Char} : Scans p before [] 0
  | hit {before stretch after : List Char} {n : Nat} (hne : stretch ≠ [])
    (h : p.MatchesAt before stretch after) (rest : Scans p (before ++ stretch) after n) :
    Scans p before (stretch ++ after) (n + 1)
  | miss {before after : List Char} {c : Char} {n : Nat}
    (h : ∀ stretch rest, stretch ++ rest = c :: after → stretch ≠ [] →
      ¬ p.MatchesAt before stretch rest)
    (rest : Scans p (before ++ [c]) after n) : Scans p before (c :: after) n

variable {p : Bounded} {literal : String} {s : List Char}

theorem foundIn_of_free (hleft : p.left = false) (hright : p.right = false) :
    p.FoundIn s ↔ p.body.FoundIn s := by
  constructor
  · intro h
    obtain ⟨before, stretch, after, hs, hmatch⟩ := h
    exact ⟨before, stretch, after, hs, hmatch.body⟩
  · intro h
    obtain ⟨before, stretch, after, hs, hmatch⟩ := h
    refine ⟨before, stretch, after, hs, hmatch, ?_, ?_⟩
    · rw [hleft]
      exact nofun
    · rw [hright]
      exact nofun

theorem foundIn_plain : (plain literal).FoundIn s ↔ literal.toList <:+: s :=
  (foundIn_of_free rfl rfl).trans Pattern.foundIn_text

theorem matchesAt_word (hword : literal.toList.head?.any isWord = true)
    {before stretch after : List Char} :
    (word literal).MatchesAt before stretch after ↔
      stretch = literal.toList ∧ before.getLast?.any isWord = false := by
  have hhead := head?_append_any hword after
  constructor
  · intro h
    obtain rfl := Pattern.matches_text.1 h.body
    exact ⟨rfl, (boundary_of_word_after hhead).1 (h.left rfl)⟩
  · intro h
    obtain ⟨rfl, hbefore⟩ := h
    exact ⟨.text literal, fun _ => (boundary_of_word_after hhead).2 hbefore, nofun⟩

/-- Every text can be passed over. -/
theorem exists_scans (p : Bounded) (before s : List Char) : ∃ n, p.Scans before s n := by
  -- On the length of what is left: a match is not empty, so it makes the rest shorter.
  induction hlength : s.length using Nat.strong_induction_on generalizing before s with
  | _ length ih =>
    subst hlength
    cases s with
    | nil => exact ⟨0, .done⟩
    | cons c after =>
      by_cases h : ∃ stretch rest, stretch ++ rest = c :: after ∧ stretch ≠ [] ∧
          p.MatchesAt before stretch rest
      · obtain ⟨stretch, rest, hs, hne, hmatch⟩ := h
        rw [← hs] at ih ⊢
        have hshorter : rest.length < (stretch ++ rest).length := by
          rw [List.length_append]
          have hpos := List.length_pos_iff.2 hne
          omega
        obtain ⟨n, hn⟩ := ih _ hshorter (before ++ stretch) rest rfl
        exact ⟨n + 1, .hit hne hmatch hn⟩
      · obtain ⟨n, hn⟩ := ih _ (Nat.lt_succ_self _) (before ++ [c]) after rfl
        exact ⟨n, .miss (fun stretch rest hs hne hmatch => h ⟨stretch, rest, hs, hne, hmatch⟩) hn⟩

end Bounded

/-! ## Words at positions -/

/-- The cuts of a text are its divisions in two. -/
theorem exists_cut_iff {p : Cut → Prop} {s : List Char} :
    (∃ k ∈ cuts s, p k) ↔ ∃ left right, left ++ right = s ∧ p ⟨left.reverse, right⟩ := by
  constructor
  · intro h
    obtain ⟨⟨before, after⟩, hk, hp⟩ := h
    refine ⟨before.reverse, after, mem_cuts.1 hk, ?_⟩
    rwa [List.reverse_reverse]
  · intro h
    obtain ⟨left, right, hs, hp⟩ := h
    refine ⟨⟨left.reverse, right⟩, mem_cuts.2 ?_, hp⟩
    rwa [List.reverse_reverse]

/-- A text stands behind the first `i` characters of another, and no word character stands right
before it. -/
def WordAt (word : String) (s : List Char) (i : Nat) : Prop :=
  ∃ left right, left ++ word.toList ++ right = s ∧ left.length = i ∧
    left.getLast?.any isWord = false

variable {literal : String} {s : List Char}

theorem exists_wordAt_iff :
    (∃ i, WordAt literal s i) ↔
      ∃ left right, left ++ literal.toList ++ right = s ∧ left.getLast?.any isWord = false := by
  constructor
  · intro h
    obtain ⟨i, left, right, hs, -, hleft⟩ := h
    exact ⟨left, right, hs, hleft⟩
  · intro h
    obtain ⟨left, right, hs, hleft⟩ := h
    exact ⟨left.length, left, right, hs, rfl, hleft⟩

theorem Needle.occursIn_word_iff :
    (Needle.word literal).occursIn s = true ↔ ∃ i, WordAt literal s i := by
  rw [exists_wordAt_iff, Needle.occursIn_iff]
  simp [Needle.word]

theorem Bounded.foundIn_word (hword : literal.toList.head?.any isWord = true) :
    (Bounded.word literal).FoundIn s ↔ ∃ i, WordAt literal s i := by
  rw [exists_wordAt_iff]
  constructor
  · intro h
    obtain ⟨before, stretch, after, hs, hmatch⟩ := h
    obtain ⟨rfl, hbefore⟩ := (matchesAt_word hword).1 hmatch
    exact ⟨before, after, hs, hbefore⟩
  · intro h
    obtain ⟨before, after, hs, hbefore⟩ := h
    exact ⟨before, _, after, hs, (matchesAt_word hword).2 ⟨rfl, hbefore⟩⟩

theorem Needle.startsAt_word_iff {before after : List Char} :
    (Needle.word literal).startsAt ⟨before, after⟩ = true ↔
      literal.toList <+: after ∧ before.head?.any isWord = false := by
  simp [Needle.startsAt, Needle.word]

/-- The positions of a word are the places of the cuts at which it starts. -/
theorem wordAt_iff_cut {i : Nat} :
    WordAt literal s i ↔
      ∃ k ∈ cuts s, k.before.length = i ∧ (Needle.word literal).startsAt k = true := by
  rw [exists_cut_iff]
  constructor
  · intro h
    obtain ⟨left, right, hs, hi, hleft⟩ := h
    refine ⟨left, literal.toList ++ right, by rwa [← List.append_assoc], ?_, ?_⟩
    · rwa [List.length_reverse]
    · rw [Needle.startsAt_word_iff, List.head?_reverse]
      exact ⟨List.prefix_append _ _, hleft⟩
  · intro h
    obtain ⟨left, rest, hs, hi, hstarts⟩ := h
    obtain ⟨⟨right, rfl⟩, hleft⟩ := Needle.startsAt_word_iff.1 hstarts
    rw [List.length_reverse] at hi
    rw [List.head?_reverse] at hleft
    exact ⟨left, right, by rwa [List.append_assoc], hi, hleft⟩

/-! ## Counting -/

theorem nodup_cuts (s : List Char) : (cuts s).Nodup :=
  (pairwise_cutsFrom [] s).imp fun hlt heq => by rw [heq] at hlt; exact lt_irrefl _ hlt

/-- A text is cut at each position once. -/
theorem cut_eq_of_length {k k' : Cut} (hk : k ∈ cuts s) (hk' : k' ∈ cuts s)
    (h : k.before.length = k'.before.length) : k = k' := by
  have hparts := (mem_cuts.1 hk).trans (mem_cuts.1 hk').symm
  obtain ⟨hbefore, hafter⟩ := List.append_inj hparts (by simpa using h)
  obtain ⟨b, a⟩ := k
  obtain ⟨b', a'⟩ := k'
  rw [Cut.mk.injEq]
  exact ⟨List.reverse_injective hbefore, hafter⟩

theorem countCuts_eq_zero_iff {p : Cut → Bool} :
    countCuts p s = 0 ↔ ∀ k ∈ cuts s, ¬ p k = true := by
  rw [countCuts_eq_countP, List.countP_eq_zero]

theorem one_lt_countCuts_iff {p : Cut → Bool} :
    1 < countCuts p s ↔
      ∃ k, (k ∈ cuts s ∧ p k = true) ∧ ∃ k', (k' ∈ cuts s ∧ p k' = true) ∧ k ≠ k' := by
  have hcard := List.toFinset_card_of_nodup ((nodup_cuts s).filter p)
  rw [countCuts_eq_countP, List.countP_eq_length_filter, ← hcard, Finset.one_lt_card]
  simp only [List.mem_toFinset, List.mem_filter]

theorem Needle.countIn_word_eq_zero_iff :
    (Needle.word literal).countIn s = 0 ↔ ∀ i, ¬ WordAt literal s i := by
  rw [Needle.countIn, countCuts_eq_zero_iff]
  constructor
  · intro h i hi
    obtain ⟨k, hk, -, hstarts⟩ := wordAt_iff_cut.1 hi
    exact h k hk hstarts
  · intro h k hk hstarts
    exact h _ (wordAt_iff_cut.2 ⟨k, hk, rfl, hstarts⟩)

theorem Needle.one_lt_countIn_word_iff :
    1 < (Needle.word literal).countIn s ↔
      ∃ i j, i ≠ j ∧ WordAt literal s i ∧ WordAt literal s j := by
  rw [Needle.countIn, one_lt_countCuts_iff]
  constructor
  · intro h
    obtain ⟨k, ⟨hk, hstarts⟩, k', ⟨hk', hstarts'⟩, hne⟩ := h
    refine ⟨_, _, fun heq => hne (cut_eq_of_length hk hk' heq), ?_, ?_⟩
    · exact wordAt_iff_cut.2 ⟨k, hk, rfl, hstarts⟩
    · exact wordAt_iff_cut.2 ⟨k', hk', rfl, hstarts'⟩
  · intro h
    obtain ⟨i, j, hne, hi, hj⟩ := h
    obtain ⟨k, hk, rfl, hstarts⟩ := wordAt_iff_cut.1 hi
    obtain ⟨k', hk', rfl, hstarts'⟩ := wordAt_iff_cut.1 hj
    exact ⟨k, ⟨hk, hstarts⟩, k', ⟨hk', hstarts'⟩, fun heq => hne (by rw [heq])⟩

/-! ## The pass from the left -/

/-- No end of the text is also a start of it, but the whole. -/
def Unbordered (text : List Char) : Prop :=
  ∀ tail ∈ text.tails, tail ≠ [] → tail <+: text → tail = text

instance (text : List Char) : Decidable (Unbordered text) :=
  inferInstanceAs (Decidable (∀ tail ∈ text.tails, tail ≠ [] → tail <+: text → tail = text))

theorem countP_cutsFrom_append {p : Cut → Bool} {before passed after : List Char}
    (h : ∀ u v, u ++ v = passed → v ≠ [] → p ⟨u.reverse ++ before, v ++ after⟩ = false) :
    (cutsFrom before (passed ++ after)).countP p =
      (cutsFrom (passed.reverse ++ before) after).countP p := by
  induction passed generalizing before with
  | nil => rfl
  | cons c passed ih =>
    have hhere : p ⟨before, c :: (passed ++ after)⟩ = false := h [] (c :: passed) rfl nofun
    have hrest : ∀ u v, u ++ v = passed → v ≠ [] →
        p ⟨u.reverse ++ c :: before, v ++ after⟩ = false := by
      intro u v huv hv
      simpa using h (c :: u) v (by rw [List.cons_append, huv]) hv
    rw [List.cons_append, cutsFrom, List.countP_cons_of_neg (by simp [hhere]), ih hrest,
      List.reverse_cons, List.append_assoc, List.singleton_append]

/-- Behind a text that cannot overlap itself it starts again no earlier than at the end. -/
theorem countP_cutsFrom_word (hunbordered : Unbordered literal.toList)
    (hne : literal.toList ≠ []) {before after : List Char}
    (hbefore : before.head?.any isWord = false) :
    (cutsFrom before (literal.toList ++ after)).countP (Needle.word literal).startsAt =
      (cutsFrom (literal.toList.reverse ++ before) after).countP (Needle.word literal).startsAt
        + 1 := by
  obtain ⟨c, inner, hliteral⟩ := List.exists_cons_of_ne_nil hne
  have hhere : (Needle.word literal).startsAt ⟨before, literal.toList ++ after⟩ = true :=
    Needle.startsAt_word_iff.2 ⟨List.prefix_append _ _, hbefore⟩
  have hinner : ∀ u v, u ++ v = inner → v ≠ [] →
      (Needle.word literal).startsAt ⟨u.reverse ++ c :: before, v ++ after⟩ = false := by
    intro u v huv hv
    rw [Bool.eq_false_iff]
    -- From a start inside the text, the end `v` of it would be a start of it too.
    intro hstarts
    have hlonger : v.length < literal.toList.length := by
      rw [hliteral, ← huv, List.length_cons, List.length_append]
      omega
    have hprefix : v <+: literal.toList :=
      List.prefix_of_prefix_length_le (List.prefix_append v after)
        (Needle.startsAt_word_iff.1 hstarts).1 hlonger.le
    have hsuffix : v ∈ literal.toList.tails := by
      rw [List.mem_tails, hliteral, ← huv]
      exact ⟨c :: u, rfl⟩
    rw [hunbordered v hsuffix hv hprefix] at hlonger
    exact lt_irrefl _ hlonger
  have hpass := countP_cutsFrom_append hinner
  rw [hliteral, List.cons_append] at hhere ⊢
  rw [cutsFrom, List.countP_cons_of_pos hhere, hpass, List.reverse_cons, List.append_assoc,
    List.singleton_append]

theorem Bounded.Scans.countP_eq (hunbordered : Unbordered literal.toList)
    (hword : literal.toList.head?.any isWord = true) {before : List Char} {n : Nat}
    (h : (Bounded.word literal).Scans before s n) :
    (cutsFrom before.reverse s).countP (Needle.word literal).startsAt = n := by
  have hne : literal.toList ≠ [] := by
    intro hnil
    rw [hnil] at hword
    exact absurd hword nofun
  induction h with
  | @done before =>
    refine List.countP_eq_zero.2 fun k hk hstarts => ?_
    obtain rfl := List.mem_singleton.1 hk
    exact hne (List.prefix_nil.1 (Needle.startsAt_word_iff.1 hstarts).1)
  | @hit before stretch after n _ hmatch _ ih =>
    obtain ⟨rfl, hbefore⟩ := (matchesAt_word hword).1 hmatch
    rw [List.reverse_append] at ih
    rw [countP_cutsFrom_word hunbordered hne (by rwa [List.head?_reverse]), ih]
  | @miss before after c n hmiss _ ih =>
    have hhere : ¬ (Needle.word literal).startsAt ⟨before.reverse, c :: after⟩ = true := by
      intro hstarts
      obtain ⟨⟨rest, hrest⟩, hbefore⟩ := Needle.startsAt_word_iff.1 hstarts
      rw [List.head?_reverse] at hbefore
      exact hmiss _ rest hrest hne ((matchesAt_word hword).2 ⟨rfl, hbefore⟩)
    rw [List.reverse_append, List.reverse_singleton, List.singleton_append] at ih
    rw [cutsFrom, List.countP_cons_of_neg hhere, ih]

/-- The matches of a pass from the left are as many as the positions at which the word stands. -/
theorem Bounded.scans_word_iff (hunbordered : Unbordered literal.toList)
    (hword : literal.toList.head?.any isWord = true) {n : Nat} :
    (Bounded.word literal).Scans [] s n ↔ (Needle.word literal).countIn s = n := by
  have hcount : ∀ n, (Bounded.word literal).Scans [] s n →
      (Needle.word literal).countIn s = n := by
    intro n h
    rw [Needle.countIn, countCuts_eq_countP]
    exact h.countP_eq hunbordered hword
  constructor
  · exact hcount n
  · intro h
    obtain ⟨m, hm⟩ := exists_scans (Bounded.word literal) [] s
    rwa [← h, hcount m hm]

end SuiteLint.Text
