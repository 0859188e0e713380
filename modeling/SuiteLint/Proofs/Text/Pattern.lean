import Mathlib.Data.List.TakeWhile
import SuiteLint.Text.Search

/-!
# Patterns

A pattern is built from literal texts and kinds of characters by sequence, choice and repetition. It
matches stretches of text, and it is found in a text that has such a stretch anywhere. Nothing is
said about which stretch a search would settle for: whether there is one does not depend on how
eagerly a repetition goes on. The lemmas turn a search into conditions on the text before and after
a place.
-/

namespace SuiteLint.Text

inductive Pattern where
  | text (literal : String)
  | one (kind : Char → Bool)
  | seq (p q : Pattern)
  | either (p q : Pattern)
  | many (p : Pattern)

namespace Pattern

/-- At least once. -/
def plus (p : Pattern) : Pattern :=
  .seq p (.many p)

/-- At most once. -/
def maybe (p : Pattern) : Pattern :=
  .either p (.text "")

/-- The stretches of text that a pattern stands for. -/
inductive Matches : Pattern → List Char → Prop
  | text (literal : String) : Matches (.text literal) literal.toList
  | one {kind : Char → Bool} {c : Char} (h : kind c = true) : Matches (.one kind) [c]
  | seq {p q : Pattern} {s t : List Char} (hp : Matches p s) (hq : Matches q t) :
    Matches (.seq p q) (s ++ t)
  | left {p q : Pattern} {s : List Char} (h : Matches p s) : Matches (.either p q) s
  | right {p q : Pattern} {s : List Char} (h : Matches q s) : Matches (.either p q) s
  | none {p : Pattern} : Matches (.many p) []
  | more {p : Pattern} {s t : List Char} (hs : Matches p s) (ht : Matches (.many p) t) :
    Matches (.many p) (s ++ t)

/-- Some stretch of the text is matched. -/
def FoundIn (p : Pattern) (s : List Char) : Prop :=
  ∃ left stretch right, left ++ stretch ++ right = s ∧ p.Matches stretch

/-- The text starts with a stretch that is matched. -/
def OpensIn (p : Pattern) (s : List Char) : Prop :=
  ∃ stretch right, stretch ++ right = s ∧ p.Matches stretch

/-- The text ends with a stretch that is matched. -/
def ClosesIn (p : Pattern) (s : List Char) : Prop :=
  ∃ left stretch, left ++ stretch = s ∧ p.Matches stretch

variable {p q : Pattern} {kind skip : Char → Bool} {s : List Char}

/-! ## What is matched -/

theorem matches_text {literal : String} : (text literal).Matches s ↔ s = literal.toList := by
  constructor
  · intro h
    cases h
    rfl
  · intro h
    rw [h]
    exact .text literal

theorem matches_one : (one kind).Matches s ↔ ∃ c, kind c = true ∧ s = [c] := by
  constructor
  · intro h
    cases h with
    | one hc => exact ⟨_, hc, rfl⟩
  · intro h
    obtain ⟨c, hc, rfl⟩ := h
    exact .one hc

theorem matches_seq :
    (seq p q).Matches s ↔ ∃ a b, p.Matches a ∧ q.Matches b ∧ a ++ b = s := by
  constructor
  · intro h
    cases h with
    | seq hp hq => exact ⟨_, _, hp, hq, rfl⟩
  · intro h
    obtain ⟨a, b, hp, hq, rfl⟩ := h
    exact .seq hp hq

theorem matches_either : (either p q).Matches s ↔ p.Matches s ∨ q.Matches s := by
  constructor
  · intro h
    cases h with
    | left h => exact .inl h
    | right h => exact .inr h
  · intro h
    rcases h with h | h
    · exact .left h
    · exact .right h

/-- Any number of characters of one kind. -/
theorem matches_many_one : (many (one kind)).Matches s ↔ ∀ c ∈ s, kind c = true := by
  constructor
  · intro h
    generalize hp : many (one kind) = p at h
    induction h with
    | none => exact fun c hc => absurd hc List.not_mem_nil
    | more hs _ _ ih =>
      obtain rfl := Pattern.many.inj hp
      obtain ⟨c, hc, rfl⟩ := matches_one.1 hs
      exact List.forall_mem_cons.2 ⟨hc, ih rfl⟩
    | _ => exact absurd hp nofun
  · intro h
    induction s with
    | nil => exact .none
    | cons c s ih =>
      obtain ⟨hc, hs⟩ := List.forall_mem_cons.1 h
      exact .more (.one hc) (ih hs)

theorem matches_plus_one :
    (plus (one kind)).Matches s ↔ s ≠ [] ∧ ∀ c ∈ s, kind c = true := by
  unfold plus
  rw [matches_seq]
  constructor
  · intro h
    obtain ⟨a, b, ha, hb, rfl⟩ := h
    obtain ⟨c, hc, rfl⟩ := matches_one.1 ha
    exact ⟨List.cons_ne_nil c b, List.forall_mem_cons.2 ⟨hc, matches_many_one.1 hb⟩⟩
  · intro h
    obtain ⟨hne, hs⟩ := h
    obtain ⟨c, rest, rfl⟩ := List.exists_cons_of_ne_nil hne
    obtain ⟨hc, hrest⟩ := List.forall_mem_cons.1 hs
    exact ⟨[c], rest, .one hc, matches_many_one.2 hrest, rfl⟩

/-! ## Where it is found -/

theorem foundIn_text {literal : String} : (text literal).FoundIn s ↔ literal.toList <:+: s := by
  constructor
  · intro h
    obtain ⟨left, stretch, right, hs, hmatch⟩ := h
    rw [matches_text.1 hmatch] at hs
    exact ⟨left, right, hs⟩
  · intro h
    obtain ⟨left, right, hs⟩ := h
    exact ⟨left, _, right, hs, .text literal⟩

/-- A sequence is found where a text can be cut so that the first part closes it and the second
opens the rest. -/
theorem foundIn_seq :
    (seq p q).FoundIn s ↔
      ∃ before after, before ++ after = s ∧ p.ClosesIn before ∧ q.OpensIn after := by
  constructor
  · intro h
    obtain ⟨left, stretch, right, rfl, hmatch⟩ := h
    obtain ⟨a, b, ha, hb, rfl⟩ := matches_seq.1 hmatch
    exact ⟨left ++ a, b ++ right, by simp, ⟨left, a, rfl, ha⟩, ⟨b, right, rfl, hb⟩⟩
  · intro h
    obtain ⟨before, after, rfl, ⟨left, a, rfl, ha⟩, ⟨b, right, rfl, hb⟩⟩ := h
    exact ⟨left, a ++ b, right, by simp, .seq ha hb⟩

theorem foundIn_iff_opensIn :
    p.FoundIn s ↔ ∃ before after, before ++ after = s ∧ p.OpensIn after := by
  constructor
  · intro h
    obtain ⟨left, stretch, right, rfl, hmatch⟩ := h
    exact ⟨left, stretch ++ right, by simp, stretch, right, rfl, hmatch⟩
  · intro h
    obtain ⟨before, after, rfl, stretch, right, rfl, hmatch⟩ := h
    exact ⟨before, stretch, right, by simp, hmatch⟩

theorem opensIn_text {literal : String} : (text literal).OpensIn s ↔ literal.toList <+: s := by
  constructor
  · intro h
    obtain ⟨stretch, right, hs, hmatch⟩ := h
    rw [matches_text.1 hmatch] at hs
    exact ⟨right, hs⟩
  · intro h
    obtain ⟨right, hs⟩ := h
    exact ⟨_, right, hs, .text literal⟩

theorem opensIn_seq :
    (seq p q).OpensIn s ↔ ∃ a b, a ++ b = s ∧ p.Matches a ∧ q.OpensIn b := by
  constructor
  · intro h
    obtain ⟨stretch, right, rfl, hmatch⟩ := h
    obtain ⟨a, b, ha, hb, rfl⟩ := matches_seq.1 hmatch
    exact ⟨a, b ++ right, by simp, ha, b, right, rfl, hb⟩
  · intro h
    obtain ⟨a, b, rfl, ha, stretch, right, rfl, hb⟩ := h
    exact ⟨a ++ stretch, right, by simp, .seq ha hb⟩

theorem opensIn_text_seq {literal : String} :
    (seq (text literal) q).OpensIn s ↔ ∃ rest, literal.toList ++ rest = s ∧ q.OpensIn rest := by
  rw [opensIn_seq]
  constructor
  · intro h
    obtain ⟨a, b, hs, ha, hb⟩ := h
    rw [matches_text.1 ha] at hs
    exact ⟨b, hs, hb⟩
  · intro h
    obtain ⟨rest, hs, hrest⟩ := h
    exact ⟨_, rest, hs, .text literal, hrest⟩

theorem closesIn_seq :
    (seq p q).ClosesIn s ↔ ∃ a b, a ++ b = s ∧ p.ClosesIn a ∧ q.Matches b := by
  constructor
  · intro h
    obtain ⟨left, stretch, rfl, hmatch⟩ := h
    obtain ⟨a, b, ha, hb, rfl⟩ := matches_seq.1 hmatch
    exact ⟨left ++ a, b, by simp, ⟨left, a, rfl, ha⟩, hb⟩
  · intro h
    obtain ⟨a, b, rfl, ⟨left, stretch, rfl, ha⟩, hb⟩ := h
    exact ⟨left, stretch ++ b, by simp, .seq ha hb⟩

/-! ## Runs of one kind -/

theorem opensIn_one : (one kind).OpensIn s ↔ s.head?.any kind = true := by
  constructor
  · intro h
    obtain ⟨stretch, right, rfl, hmatch⟩ := h
    obtain ⟨c, hc, rfl⟩ := matches_one.1 hmatch
    exact hc
  · intro h
    cases s with
    | nil => exact absurd h nofun
    | cons c rest => exact ⟨[c], rest, rfl, .one h⟩

/-- Of a run that a text opens with, only the first character is asked for. -/
theorem opensIn_plus_one : (plus (one kind)).OpensIn s ↔ s.head?.any kind = true := by
  rw [← opensIn_one]
  constructor
  · intro h
    obtain ⟨a, b, hs, ha, -⟩ := opensIn_seq.1 h
    exact ⟨a, b, hs, ha⟩
  · intro h
    obtain ⟨a, b, hs, ha⟩ := h
    exact opensIn_seq.2 ⟨a, b, hs, ha, [], b, rfl, .none⟩

/-- Of a run that a text closes with, only the last character is asked for. -/
theorem closesIn_plus_one : (plus (one kind)).ClosesIn s ↔ s.getLast?.any kind = true := by
  constructor
  · intro h
    obtain ⟨left, stretch, rfl, hmatch⟩ := h
    obtain ⟨hne, hall⟩ := matches_plus_one.1 hmatch
    rw [List.getLast?_append, List.getLast?_eq_some_getLast hne, Option.some_or]
    exact hall _ (List.getLast_mem hne)
  · intro h
    rcases List.eq_nil_or_concat s with rfl | ⟨left, c, rfl⟩
    · exact absurd h nofun
    · rw [List.concat_eq_append, List.getLast?_concat] at h
      refine ⟨left, [c], List.concat_eq_append.symm, matches_plus_one.2 ⟨nofun, ?_⟩⟩
      exact List.forall_mem_singleton.2 h

/-- A run that may be skipped is skipped whole, if what follows cannot start with one of its
characters. -/
theorem opensIn_many_seq (hq : ∀ c rest, skip c = true → ¬ q.OpensIn (c :: rest)) :
    (seq (many (one skip)) q).OpensIn s ↔ q.OpensIn (s.dropWhile skip) := by
  rw [opensIn_seq]
  constructor
  · intro h
    obtain ⟨a, b, rfl, ha, hb⟩ := h
    have hstop : b.dropWhile skip = b := by
      cases b with
      | nil => rfl
      | cons c rest => exact List.dropWhile_cons_of_neg fun hc => hq c rest hc hb
    rwa [List.dropWhile_append_of_pos (matches_many_one.1 ha), hstop]
  · intro h
    refine ⟨s.takeWhile skip, s.dropWhile skip, List.takeWhile_append_dropWhile, ?_, h⟩
    exact matches_many_one.2 fun c hc => List.mem_takeWhile_imp hc

theorem closesIn_seq_many (hp : ∀ c front, skip c = true → ¬ p.ClosesIn (front ++ [c])) :
    (seq p (many (one skip))).ClosesIn s ↔ p.ClosesIn (s.reverse.dropWhile skip).reverse := by
  rw [closesIn_seq]
  constructor
  · intro h
    obtain ⟨a, b, rfl, ha, hb⟩ := h
    have hskip : ∀ c ∈ b.reverse, skip c = true := fun c hc =>
      matches_many_one.1 hb c (List.mem_reverse.1 hc)
    have hstop : a.reverse.dropWhile skip = a.reverse := by
      rcases List.eq_nil_or_concat a with rfl | ⟨front, c, rfl⟩
      · rfl
      · rw [List.concat_eq_append, List.reverse_append, List.reverse_singleton,
          List.singleton_append]
        refine List.dropWhile_cons_of_neg fun hc => hp c front hc ?_
        rwa [List.concat_eq_append] at ha
    rwa [List.reverse_append, List.dropWhile_append_of_pos hskip, hstop, List.reverse_reverse]
  · intro h
    refine ⟨_, (s.reverse.takeWhile skip).reverse, ?_, h, matches_many_one.2 fun c hc => ?_⟩
    · rw [← List.reverse_append, List.takeWhile_append_dropWhile, List.reverse_reverse]
    · exact List.mem_takeWhile_imp (List.mem_reverse.1 hc)

end Pattern

end SuiteLint.Text
