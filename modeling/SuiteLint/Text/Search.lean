import SuiteLint.Text.Word

/-!
# Looking for places in a text

Every pattern of the rule catalogue is a condition on one position of a text: on what stands
right before it and on what follows it. A `Cut` is a text seen from such a position, `cuts` lists
all of them, and the searches below ask whether some cut meets a condition, how many do, and what
the leftmost one that answers has to say. They stop as early as they can and agree with the same
question put to the list `cuts`.
-/

namespace SuiteLint.Text

/-- A text seen from one of its positions: the characters before it, nearest first, and the
characters after it. -/
structure Cut where
  before : List Char
  after : List Char
deriving DecidableEq

/-- The cuts of a text whose first part has been passed already, left to right. -/
def cutsFrom (before : List Char) : List Char → List Cut
  | [] => [⟨before, []⟩]
  | c :: rest => ⟨before, c :: rest⟩ :: cutsFrom (c :: before) rest

def cuts (s : List Char) : List Cut :=
  cutsFrom [] s

/-- Whether some cut from here on meets a condition. -/
def anyCutFrom (p : Cut → Bool) (before : List Char) : List Char → Bool
  | [] => p ⟨before, []⟩
  | c :: rest => p ⟨before, c :: rest⟩ || anyCutFrom p (c :: before) rest

def anyCut (p : Cut → Bool) (s : List Char) : Bool :=
  anyCutFrom p [] s

/-- The number of cuts from here on that meet a condition, added to a count so far. -/
def countCutsFrom (p : Cut → Bool) (before : List Char) (count : Nat) : List Char → Nat
  | [] => if p ⟨before, []⟩ then count + 1 else count
  | c :: rest =>
    countCutsFrom p (c :: before) (if p ⟨before, c :: rest⟩ then count + 1 else count) rest

/-- The number of cuts of a text that meet a condition. -/
def countCuts (p : Cut → Bool) (s : List Char) : Nat :=
  countCutsFrom p [] 0 s

/-- The answer of the leftmost cut from here on that gives one. -/
def firstCutFrom? {α : Type} (f : Cut → Option α) (before : List Char) : List Char → Option α
  | [] => f ⟨before, []⟩
  | c :: rest =>
    match f ⟨before, c :: rest⟩ with
    | some a => some a
    | none => firstCutFrom? f (c :: before) rest

/-- The answer of the leftmost cut of a text that gives one. -/
def firstCut? {α : Type} (f : Cut → Option α) (s : List Char) : Option α :=
  firstCutFrom? f [] s

theorem mem_cutsFrom {k : Cut} {before s : List Char} :
    k ∈ cutsFrom before s ↔
      ∃ passed, passed ++ k.after = s ∧ k.before = passed.reverse ++ before := by
  induction s generalizing before with
  | nil =>
    obtain ⟨b, a⟩ := k
    constructor
    · intro h
      obtain ⟨rfl, rfl⟩ : b = before ∧ a = [] := by simpa [cutsFrom] using h
      exact ⟨[], rfl, rfl⟩
    · rintro ⟨passed, hs, hb⟩
      obtain ⟨rfl, rfl⟩ : passed = [] ∧ a = [] := by simpa using hs
      simpa [cutsFrom] using hb
  | cons c rest ih =>
    obtain ⟨b, a⟩ := k
    simp only [cutsFrom, List.mem_cons, ih, Cut.mk.injEq]
    constructor
    · rintro (⟨rfl, rfl⟩ | ⟨passed, rfl, rfl⟩)
      · exact ⟨[], rfl, rfl⟩
      · exact ⟨c :: passed, rfl, by simp⟩
    · rintro ⟨passed, hs, hb⟩
      cases passed with
      | nil => exact .inl ⟨hb, hs⟩
      | cons d passed =>
        obtain ⟨rfl, hrest⟩ : d = c ∧ passed ++ a = rest := by simpa using hs
        exact .inr ⟨passed, hrest, by simpa using hb⟩

/-- The cuts of a text are the ways to write it as two parts. -/
theorem mem_cuts {k : Cut} {s : List Char} : k ∈ cuts s ↔ k.before.reverse ++ k.after = s := by
  simp only [cuts, mem_cutsFrom, List.append_nil]
  constructor
  · rintro ⟨passed, rfl, hb⟩
    simp [hb]
  · intro h
    exact ⟨k.before.reverse, h, by simp⟩

theorem anyCut_eq_any (p : Cut → Bool) (s : List Char) : anyCut p s = (cuts s).any p := by
  have general (before : List Char) : anyCutFrom p before s = (cutsFrom before s).any p := by
    induction s generalizing before with
    | nil => simp [anyCutFrom, cutsFrom]
    | cons c rest ih => simp [anyCutFrom, cutsFrom, ih]
  exact general []

theorem countCuts_eq_countP (p : Cut → Bool) (s : List Char) :
    countCuts p s = (cuts s).countP p := by
  have general (before : List Char) (count : Nat) :
      countCutsFrom p before count s = count + (cutsFrom before s).countP p := by
    induction s generalizing before count with
    | nil =>
      by_cases h : p ⟨before, []⟩ <;> simp [countCutsFrom, cutsFrom, h]
    | cons c rest ih =>
      by_cases h : p ⟨before, c :: rest⟩ <;> simp [countCutsFrom, cutsFrom, h, ih]
      omega
  simpa [countCuts, cuts] using general [] 0

theorem firstCut?_eq_findSome? {α : Type} (f : Cut → Option α) (s : List Char) :
    firstCut? f s = (cuts s).findSome? f := by
  have general (before : List Char) :
      firstCutFrom? f before s = (cutsFrom before s).findSome? f := by
    induction s generalizing before with
    | nil => cases h : f ⟨before, []⟩ <;> simp [firstCutFrom?, cutsFrom, h]
    | cons c rest ih => cases h : f ⟨before, c :: rest⟩ <;> simp [firstCutFrom?, cutsFrom, h, ih]
  exact general []

/-- A literal text to look for. `atWord` asks that no word character stand right before it. -/
structure Needle where
  text : List Char
  atWord : Bool
deriving DecidableEq

namespace Needle

/-- Any occurrence of the text. -/
def plain (text : String) : Needle :=
  ⟨text.toList, false⟩

/-- An occurrence of the text that does not continue a word. -/
def word (text : String) : Needle :=
  ⟨text.toList, true⟩

def startsAt (n : Needle) (k : Cut) : Bool :=
  n.text.isPrefixOf k.after && !(n.atWord && k.before.head?.any isWord)

def occursIn (n : Needle) (s : List Char) : Bool :=
  anyCut n.startsAt s

/-- The number of positions at which the needle occurs. -/
def countIn (n : Needle) (s : List Char) : Nat :=
  countCuts n.startsAt s

end Needle

/-- A needle occurs where its text stands, for words not right after a word character. -/
theorem Needle.occursIn_iff {n : Needle} {s : List Char} :
    n.occursIn s = true ↔ ∃ left right, left ++ n.text ++ right = s ∧
      (n.atWord = true → left.getLast?.any isWord = false) := by
  rw [Needle.occursIn, anyCut_eq_any, List.any_eq_true]
  constructor
  · rintro ⟨k, hk, hstart⟩
    rw [Needle.startsAt, Bool.and_eq_true, List.isPrefixOf_iff_prefix] at hstart
    obtain ⟨⟨right, hright⟩, hword⟩ := hstart
    refine ⟨k.before.reverse, right, ?_, ?_⟩
    · rw [List.append_assoc, hright, mem_cuts.1 hk]
    · intro hat
      simpa [hat] using hword
  · rintro ⟨left, right, rfl, hword⟩
    refine ⟨⟨left.reverse, n.text ++ right⟩, mem_cuts.2 (by simp), ?_⟩
    rw [Needle.startsAt, Bool.and_eq_true, List.isPrefixOf_iff_prefix]
    refine ⟨List.prefix_append _ _, ?_⟩
    cases hat : n.atWord with
    | false => simp
    | true => simpa using hword hat

def contains (text : String) (s : List Char) : Bool :=
  (Needle.plain text).occursIn s

theorem contains_iff {text : String} {s : List Char} :
    contains text s = true ↔ text.toList <:+: s := by
  rw [contains, Needle.occursIn_iff]
  constructor
  · rintro ⟨left, right, h, -⟩
    exact ⟨left, right, h⟩
  · rintro ⟨left, right, h⟩
    exact ⟨left, right, h, fun hat => absurd hat (by simp [Needle.plain])⟩

def startsWith (text : String) (s : List Char) : Bool :=
  text.toList.isPrefixOf s

end SuiteLint.Text
