import Mathlib.Data.List.Infix
import Mathlib.Data.List.TakeWhile
import SuiteLint.Json.Reader
import SuiteLint.Proofs.Json.Scalar

/-!
# The outline of a document

What counts against the limits of a reader stands outside strings. The outline of a text leaves out
what is inside them, so that how deep containers lie in each other, and where an integer has too
many digits, are told without reading any value.
-/

namespace SuiteLint.Json

/-- Where a character stands: outside strings, inside one, or after a backslash in one. -/
inductive Mode where
  | outside
  | inside
  | escaped

/-- A text without what stands between the quotes of its strings. -/
def outline : Mode → List Char → List Char
  | _, [] => []
  | .outside, c :: s => c :: outline (if c = '"' then .inside else .outside) s
  | .inside, c :: s =>
    if c = '"' then c :: outline .outside s
    else outline (if c = '\\' then .escaped else .inside) s
  | .escaped, _ :: s => outline .inside s

def opens (c : Char) : Bool :=
  c == '[' || c == '\x7b'

def closes (c : Char) : Bool :=
  c == ']' || c == '\x7d'

/-- The most containers that are open at once, with `level` of them open at the start. -/
def depth : Nat → List Char → Nat
  | level, [] => level
  | level, c :: s =>
    if opens c then depth (level + 1) s
    else if closes c then max level (depth (level - 1) s)
    else depth level s

/-! ## Text that is passed over -/

/-- Whether a character is neither a quote nor a bracket. -/
def isPlain (c : Char) : Bool :=
  c != '"' && !opens c && !closes c

/-- Only plain characters lie between two places of a text. -/
def Skips (s t : List Char) : Prop :=
  ∃ between, (∀ c ∈ between, isPlain c = true) ∧ s = between ++ t

/-- A reader passes from one place of a text to another and leaves the given number of containers
on its way. -/
structure Leaves (left : Nat) (s t : List Char) : Prop where
  suffix : outline .outside t <:+ outline .outside s
  depth : ∀ level, depth level (outline .outside t) ≤ depth (level + left) (outline .outside s)

section

variable {s t u : List Char} {c : Char} {left left' : Nat}

theorem outline_cons_of_ne (h : c ≠ '"') :
    outline .outside (c :: s) = c :: outline .outside s := by
  rw [outline, if_neg h]

theorem isPlain.ne_quote (h : isPlain c = true) : c ≠ '"' := by
  rintro rfl
  exact absurd h (by decide)

theorem depth_cons_of_isPlain (h : isPlain c = true) (level : Nat) (s : List Char) :
    depth level (c :: s) = depth level s := by
  simp only [isPlain, Bool.and_eq_true, Bool.not_eq_true', bne_iff_ne] at h
  rw [depth, if_neg (by simp [h.1.2]), if_neg (by simp [h.2])]

theorem depth_cons_of_opens (h : opens c = true) (level : Nat) (s : List Char) :
    depth level (c :: s) = depth (level + 1) s := by
  rw [depth, if_pos h]

theorem le_depth (level : Nat) (s : List Char) : level ≤ depth level s := by
  induction s generalizing level with
  | nil => exact Nat.le_refl level
  | cons c s ih =>
    rw [depth]
    split
    · exact (Nat.le_succ level).trans (ih (level + 1))
    · split
      · exact Nat.le_max_left _ _
      · exact ih level

theorem Skips.refl (s : List Char) : Skips s s :=
  ⟨[], by simp, rfl⟩

theorem Skips.trans (h : Skips s t) (h' : Skips t u) : Skips s u := by
  obtain ⟨p, hp, rfl⟩ := h
  obtain ⟨q, hq, rfl⟩ := h'
  refine ⟨p ++ q, fun c hc => ?_, (List.append_assoc p q u).symm⟩
  exact (List.mem_append.1 hc).elim (hp c) (hq c)

theorem skips_cons (h : isPlain c = true) (s : List Char) : Skips (c :: s) s :=
  ⟨[c], by simpa using h, rfl⟩

theorem skips_dropWhile {f : Char → Bool} (h : ∀ c, f c = true → isPlain c = true)
    (s : List Char) : Skips s (s.dropWhile f) :=
  ⟨s.takeWhile f, fun c hc => h c (List.mem_takeWhile_imp hc),
    List.takeWhile_append_dropWhile.symm⟩

theorem isPlain_of_isLayout (h : isLayout c = true) : isPlain c = true := by
  simp only [isLayout, Bool.or_eq_true, beq_iff_eq] at h
  rcases h with ((rfl | rfl) | rfl) | rfl <;> decide

theorem isPlain_of_isDigit (h : c.isDigit = true) : isPlain c = true := by
  have hne : ∀ d : Char, d.isDigit = false → c ≠ d := fun d hd => ne_of_isDigit h hd
  simp [isPlain, opens, closes, hne]

theorem outline_append_of_isPlain {p : List Char} (h : ∀ c ∈ p, isPlain c = true)
    (s : List Char) : outline .outside (p ++ s) = p ++ outline .outside s := by
  induction p with
  | nil => rfl
  | cons c p ih =>
    rw [List.cons_append, outline_cons_of_ne (isPlain.ne_quote (h c List.mem_cons_self)),
      ih fun d hd => h d (List.mem_cons_of_mem c hd)]
    rfl

theorem skips_skipLayout (s : List Char) : Skips s (skipLayout s) :=
  skips_dropWhile (fun _ => isPlain_of_isLayout) s

theorem skips_digits (s : List Char) : Skips s (s.dropWhile Char.isDigit) :=
  skips_dropWhile (fun _ => isPlain_of_isDigit) s

theorem leaves_cons (h : isPlain c = true) (s : List Char) : Leaves 0 (c :: s) s := by
  have houtline : outline .outside (c :: s) = c :: outline .outside s :=
    outline_cons_of_ne (isPlain.ne_quote h)
  refine ⟨houtline ▸ List.suffix_cons c _, fun level => ?_⟩
  rw [houtline, depth_cons_of_isPlain h, Nat.add_zero]

theorem Leaves.trans (h : Leaves left s t) (h' : Leaves left' t u) :
    Leaves (left + left') s u := by
  refine ⟨h'.suffix.trans h.suffix, fun level => ?_⟩
  have hst := h.depth (level + left')
  rw [Nat.add_right_comm, Nat.add_assoc] at hst
  exact (h'.depth level).trans hst

theorem leaves_refl (s : List Char) : Leaves 0 s s :=
  ⟨List.suffix_rfl, fun _ => Nat.le_refl _⟩

theorem Skips.leaves (h : Skips s t) : Leaves 0 s t := by
  obtain ⟨between, hplain, rfl⟩ := h
  induction between with
  | nil => exact leaves_refl t
  | cons c between ih =>
    exact (leaves_cons (hplain c List.mem_cons_self) _).trans
      (ih fun d hd => hplain d (List.mem_cons_of_mem c hd))

theorem leaves_close (h : closes c = true) (s : List Char) : Leaves 1 (c :: s) s := by
  have hc : c ≠ '"' ∧ opens c = false := by
    simp only [closes, Bool.or_eq_true, beq_iff_eq] at h
    rcases h with rfl | rfl <;> decide
  have houtline : outline .outside (c :: s) = c :: outline .outside s := outline_cons_of_ne hc.1
  refine ⟨houtline ▸ List.suffix_cons c _, fun level => ?_⟩
  rw [houtline, depth, if_neg (by simp [hc.2]), if_pos h, Nat.add_sub_cancel]
  exact Nat.le_max_right _ _

theorem leaves_open (h : opens c = true) (hs : Leaves 1 s t) : Leaves 0 (c :: s) t := by
  have hc : c ≠ '"' := by
    rintro rfl
    exact absurd h (by decide)
  have houtline : outline .outside (c :: s) = c :: outline .outside s := outline_cons_of_ne hc
  refine ⟨houtline ▸ hs.suffix.trans (List.suffix_cons c _), fun level => ?_⟩
  rw [houtline, depth_cons_of_opens h]
  exact hs.depth level

theorem leaves_of_skipLayout (h : skipLayout s = c :: t) (hc : isPlain c = true) :
    Leaves 0 s t :=
  (h ▸ (skips_skipLayout s).leaves).trans (leaves_cons hc t)

theorem leaves_of_closed (h : skipLayout s = c :: t) (hc : closes c = true) : Leaves 1 s t :=
  (h ▸ (skips_skipLayout s).leaves).trans (leaves_close hc t)

end

/-! ## Places of values -/

/-- Whether a value may stand right after a character. -/
def isStarter (c : Char) : Bool :=
  opens c || c == ',' || c == ':' || isLayout c

/-- A value may stand after a text. -/
def StartsValue (before : List Char) : Prop :=
  ∀ c, before.getLast? = some c → isStarter c = true

/-- A reader comes from one place of a text to another where a value may stand, inside the same
containers. -/
structure Reaches (s t : List Char) : Prop where
  leaves : Leaves 0 s t
  starts : ∃ before, outline .outside s = before ++ outline .outside t ∧ StartsValue before

section

variable {s t u before : List Char} {c : Char}

theorem StartsValue.append {p q : List Char} (hp : StartsValue p) (hq : StartsValue q) :
    StartsValue (p ++ q) := by
  intro c hc
  cases hlast : q.getLast? with
  | none =>
    rw [List.getLast?_eq_none_iff.1 hlast, List.append_nil] at hc
    exact hp c hc
  | some d =>
    rw [List.getLast?_append, hlast, Option.some_or] at hc
    exact Option.some.inj hc ▸ hq d hlast

theorem startsValue_layout {s : List Char} (h : ∀ c ∈ s, isLayout c = true) : StartsValue s := by
  intro c hc
  simp [isStarter, h c (List.mem_of_getLast? hc)]

theorem startsValue_concat (hc : isStarter c = true) (p : List Char) : StartsValue (p ++ [c]) := by
  intro d hd
  rw [List.getLast?_append, List.getLast?_singleton, Option.some_or] at hd
  exact Option.some.inj hd ▸ hc

theorem reaches_skipLayout (s : List Char) : Reaches s (skipLayout s) := by
  have hlayout : ∀ c ∈ s.takeWhile isLayout, isLayout c = true :=
    fun c hc => List.mem_takeWhile_imp hc
  refine ⟨(skips_skipLayout s).leaves, s.takeWhile isLayout, ?_, startsValue_layout hlayout⟩
  rw [skipLayout, ← outline_append_of_isPlain fun c hc => isPlain_of_isLayout (hlayout c hc),
    List.takeWhile_append_dropWhile]

/-- Behind a comma or a colon a value may stand. -/
theorem Leaves.reaches (h : Leaves 0 s t) (ht : skipLayout t = c :: u) (hplain : isPlain c = true)
    (hstarter : isStarter c = true) : Reaches s (skipLayout u) := by
  obtain ⟨p, hp⟩ := h.suffix
  obtain ⟨hleaves, q, hq, -⟩ := reaches_skipLayout t
  obtain ⟨hleaves', l, hl, hlayout⟩ := reaches_skipLayout u
  refine ⟨(h.trans (leaves_of_skipLayout ht hplain)).trans hleaves', p ++ q ++ [c] ++ l, ?_,
    (startsValue_concat hstarter (p ++ q)).append hlayout⟩
  rw [← hp, hq, ht, outline_cons_of_ne (isPlain.ne_quote hplain), hl]
  simp only [List.append_assoc, List.cons_append, List.nil_append]

end

/-! ## Integers -/

/-- Text that does not go on with the digits, the fraction or the exponent of a number. -/
structure EndsInteger (s : List Char) : Prop where
  digits : s.takeWhile Char.isDigit = []
  fraction : (fractionDigits s).1 = []
  exponent : exponentPart? s = none

/-- A text starts with the digits of an integer that has too many of them. -/
def LongDigits (s : List Char) : Prop :=
  ∃ run rest, s = run ++ rest ∧ (∀ c ∈ run, c.isDigit = true) ∧ run.head? ≠ some '0' ∧
    Text.maxDigits < run.length ∧ EndsInteger rest

/-- A text starts with an integer that has too many digits. -/
def LongInteger (s : List Char) : Prop :=
  LongDigits s ∨ ∃ rest, s = '-' :: rest ∧ LongDigits rest

theorem takeWhile_outline (s : List Char) :
    (outline .outside s).takeWhile Char.isDigit = s.takeWhile Char.isDigit := by
  induction s with
  | nil => rfl
  | cons c s ih =>
    by_cases hc : c.isDigit = true
    · rw [outline_cons_of_ne (isPlain.ne_quote (isPlain_of_isDigit hc)),
        List.takeWhile_cons_of_pos hc, List.takeWhile_cons_of_pos hc, ih]
    · rw [outline, List.takeWhile_cons_of_neg hc, List.takeWhile_cons_of_neg hc]

theorem fractionDigits_point (s : List Char) :
    (fractionDigits ('.' :: s)).1 = s.takeWhile Char.isDigit := by
  rw [fractionDigits]
  split
  · exact (List.isEmpty_iff.1 ‹_›).symm
  · rfl

theorem fractionDigits_of_ne {c : Char} (h : c ≠ '.') (s : List Char) :
    fractionDigits (c :: s) = ([], c :: s) := by
  unfold fractionDigits
  split
  · exact absurd (List.cons.inj ‹_›).1 h
  · rfl

theorem fractionDigits_outline (s : List Char) :
    (fractionDigits (outline .outside s)).1 = (fractionDigits s).1 := by
  cases s with
  | nil => rfl
  | cons c s =>
    by_cases hc : c = '.'
    · rw [hc, outline_cons_of_ne (by decide), fractionDigits_point, fractionDigits_point,
        takeWhile_outline]
    · rw [outline, fractionDigits_of_ne hc, fractionDigits_of_ne hc]

theorem exponentSign_outline (s : List Char) :
    (exponentSign (outline .outside s)).2 = outline .outside (exponentSign s).2 := by
  cases s with
  | nil => rfl
  | cons c s =>
    by_cases hminus : c = '-'
    · subst hminus
      rfl
    · by_cases hplus : c = '+'
      · subst hplus
        rfl
      · have hother : ∀ t : List Char, exponentSign (c :: t) = (false, c :: t) := by
          intro t
          unfold exponentSign
          split
          · exact absurd (List.cons.inj ‹_›).1 hminus
          · exact absurd (List.cons.inj ‹_›).1 hplus
          · rfl
        rw [hother, outline, hother]

theorem exponentPart?_cons_eq_none_iff {e : Char} {s : List Char} :
    exponentPart? (e :: s) = none ↔
      (e = 'e' ∨ e = 'E' → (exponentSign s).2.takeWhile Char.isDigit = []) := by
  rw [exponentPart?]
  by_cases he : e = 'e' ∨ e = 'E'
  · simp [he]
  · simp [he]

theorem exponentPart?_outline {s : List Char} (h : exponentPart? s = none) :
    exponentPart? (outline .outside s) = none := by
  cases s with
  | nil => rfl
  | cons e s =>
    rw [outline, exponentPart?_cons_eq_none_iff]
    intro he
    have hquote : e ≠ '"' := by rcases he with rfl | rfl <;> decide
    rw [if_neg hquote, exponentSign_outline, takeWhile_outline]
    exact exponentPart?_cons_eq_none_iff.1 h he

theorem EndsInteger.outline {s : List Char} (h : EndsInteger s) :
    EndsInteger (outline .outside s) :=
  ⟨(takeWhile_outline s).trans h.digits, (fractionDigits_outline s).trans h.fraction,
    exponentPart?_outline h.exponent⟩

theorem LongDigits.outline {s : List Char} (h : LongDigits s) :
    LongDigits (outline .outside s) := by
  obtain ⟨run, rest, rfl, hdigits, hzero, hlong, hends⟩ := h
  refine ⟨run, _, ?_, hdigits, hzero, hlong, hends.outline⟩
  exact outline_append_of_isPlain (fun c hc => isPlain_of_isDigit (hdigits c hc)) rest

theorem LongDigits.length_lt {s : List Char} (h : LongDigits s) : Text.maxDigits < s.length := by
  obtain ⟨run, rest, rfl, -, -, hlong, -⟩ := h
  rw [List.length_append]
  omega

theorem LongInteger.length_lt {s : List Char} (h : LongInteger s) : Text.maxDigits < s.length := by
  rcases h with hlong | ⟨rest, rfl, hlong⟩
  · exact hlong.length_lt
  · exact hlong.length_lt.trans (Nat.lt_succ_self _)

end SuiteLint.Json
