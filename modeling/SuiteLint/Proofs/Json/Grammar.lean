import SuiteLint.Json.Writer
import SuiteLint.Proofs.Json.RoundTrip

/-!
# The grammar of documents

A document is one value with layout around it, by the standard grammar: names for the infinite
numbers and for what is no number do not belong to it, and neither numbers nor containers have
limits. What is written for values without binary numbers, whose objects name each key once, is a
document of the value.
-/

namespace SuiteLint.Json

/-- Text between the parts of a document. -/
def Layout (s : List Char) : Prop :=
  ∀ c ∈ s, isLayout c = true

/-- Digits without a zero in front of others. -/
def Whole (s : List Char) : Prop :=
  s ≠ [] ∧ (∀ c ∈ s, c.isDigit = true) ∧ (s.head? = some '0' → s = ['0'])

/-- The digits after a point, and their spelling. -/
inductive Fraction : List Char → List Char → Prop
  | none : Fraction [] []
  | digits {s : List Char} (hne : s ≠ []) (h : ∀ c ∈ s, c.isDigit = true) : Fraction s ('.' :: s)

/-- An exponent and its spelling. -/
inductive Exponent : Int → List Char → Prop
  | none : Exponent 0 []
  | digits {e : Char} {sign s : List Char} (he : e = 'e' ∨ e = 'E')
    (hsign : sign = [] ∨ sign = ['+'] ∨ sign = ['-']) (hne : s ≠ [])
    (h : ∀ c ∈ s, c.isDigit = true) :
    Exponent ((if sign = ['-'] then -1 else 1) * Text.ofDigits (digitValues s)) (e :: sign ++ s)

/-- A string and its spelling, from the opening quote to the closing one. -/
def Quotes (s : List Symbol) (t : List Char) : Prop :=
  ∃ body bound, t = '"' :: body ∧ string bound body = .ok (s, [])

def minus (negative : Bool) : List Char :=
  if negative then ['-'] else []

mutual

/-- A value and its spelling. -/
inductive Spells : Value → List Char → Prop
  | null : Spells .null "null".toList
  | bool (b : Bool) : Spells (.bool b) (if b then "true" else "false").toList
  | int (negative : Bool) {whole : List Char} (h : Whole whole) :
    Spells (.int ((if negative then -1 else 1) * Text.ofDigits (digitValues whole)))
      (minus negative ++ whole)
  | real (negative : Bool) {whole digits fraction exponent : List Char} {e : Int}
    (hwhole : Whole whole) (hfraction : Fraction digits fraction)
    (hexponent : Exponent e exponent) (hne : fraction ++ exponent ≠ []) :
    Spells (.real (.ofDecimal negative (digitValues (whole ++ digits)) (e - digits.length)))
      (minus negative ++ whole ++ fraction ++ exponent)
  | text {s : List Symbol} {t : List Char} (h : Quotes s t) : Spells (.text s) t
  | emptyArray {a : List Char} (h : Layout a) : Spells (.array []) ('[' :: a ++ [']'])
  | array {vs : List Value} {t : List Char} (h : SpellsItems vs t) :
    Spells (.array vs) ('[' :: t ++ [']'])
  | emptyObject {a : List Char} (h : Layout a) : Spells (.object []) ('\x7b' :: a ++ ['\x7d'])
  | object {ms : List (List Symbol × Value)} {t : List Char} (h : SpellsMembers ms t) :
    Spells (.object (distinct ms)) ('\x7b' :: t ++ ['\x7d'])

/-- Items between the brackets of an array. -/
inductive SpellsItems : List Value → List Char → Prop
  | last {v : Value} {a b t : List Char} (ha : Layout a) (h : Spells v t) (hb : Layout b) :
    SpellsItems [v] (a ++ t ++ b)
  | more {v : Value} {vs : List Value} {a b t u : List Char} (ha : Layout a) (h : Spells v t)
    (hb : Layout b) (hvs : SpellsItems vs u) : SpellsItems (v :: vs) (a ++ t ++ b ++ ',' :: u)

/-- Members between the braces of an object. -/
inductive SpellsMembers : List (List Symbol × Value) → List Char → Prop
  | last {key : List Symbol} {v : Value} {a b c d k t : List Char} (ha : Layout a)
    (hkey : Quotes key k) (hb : Layout b) (hc : Layout c) (h : Spells v t) (hd : Layout d) :
    SpellsMembers [(key, v)] (a ++ k ++ b ++ ':' :: c ++ t ++ d)
  | more {key : List Symbol} {v : Value} {ms : List (List Symbol × Value)}
    {a b c d k t u : List Char} (ha : Layout a) (hkey : Quotes key k) (hb : Layout b)
    (hc : Layout c) (h : Spells v t) (hd : Layout d) (hms : SpellsMembers ms u) :
    SpellsMembers ((key, v) :: ms) (a ++ k ++ b ++ ':' :: c ++ t ++ d ++ ',' :: u)

end

/-- A text is one document and nothing else. -/
def Document (v : Value) (s : List Char) : Prop :=
  ∃ a t b, Layout a ∧ Spells v t ∧ Layout b ∧ s = a ++ t ++ b

/-! ## Where documents start -/

def StartsAscii (s : List Char) : Prop :=
  ∃ c cs, s = c :: cs ∧ c.toNat < 0x80

theorem StartsAscii.append {s : List Char} (h : StartsAscii s) (t : List Char) :
    StartsAscii (s ++ t) := by
  obtain ⟨c, cs, rfl, hc⟩ := h
  exact ⟨c, cs ++ t, rfl, hc⟩

theorem toNat_lt_of_isDigit {c : Char} (h : c.isDigit = true) : c.toNat < 0x80 := by
  simp only [Char.isDigit, Bool.and_eq_true, decide_eq_true_eq] at h
  have hle : c.toNat ≤ 57 := h.2
  omega

theorem Whole.startsAscii {s : List Char} (h : Whole s) (negative : Bool) :
    StartsAscii (minus negative ++ s) := by
  obtain ⟨c, cs, rfl⟩ := List.exists_cons_of_ne_nil h.1
  cases negative with
  | true => exact ⟨'-', _, rfl, by decide⟩
  | false => exact ⟨c, cs, rfl, toNat_lt_of_isDigit (h.2.1 c List.mem_cons_self)⟩

theorem Spells.startsAscii {v : Value} {s : List Char} (h : Spells v s) : StartsAscii s := by
  cases h with
  | null => exact ⟨_, _, rfl, by decide⟩
  | bool b => cases b <;> exact ⟨_, _, rfl, by decide⟩
  | int negative hwhole => exact hwhole.startsAscii negative
  | real negative hwhole => exact ((hwhole.startsAscii negative).append _).append _
  | text hquotes =>
    obtain ⟨body, bound, rfl, -⟩ := hquotes
    exact ⟨'"', body, rfl, by decide⟩
  | emptyArray | array | emptyObject | object => exact ⟨_, _, rfl, by decide⟩

/-- A document starts with an ASCII character. -/
theorem Document.startsAscii {v : Value} {s : List Char} (h : Document v s) : StartsAscii s := by
  obtain ⟨a, t, b, ha, ht, -, rfl⟩ := h
  cases a with
  | nil => exact ht.startsAscii.append b
  | cons c a =>
    refine ⟨c, a ++ t ++ b, rfl, ?_⟩
    have hc := ha c List.mem_cons_self
    simp only [isLayout, Bool.or_eq_true, beq_iff_eq] at hc
    rcases hc with ((rfl | rfl) | rfl) | rfl <;> decide

/-! ## What is written -/

/-- A value is spelled where it is written. -/
def Writes (v : Value) : Prop :=
  ∀ level, Spells v (write level v)

theorem layout_nil : Layout [] :=
  nofun

theorem layout_newLine (level : Nat) : Layout (newLine level) := by
  intro c hc
  rcases List.mem_cons.1 hc with rfl | hc
  · rfl
  · rw [List.eq_of_mem_replicate hc]
    rfl

theorem quotes_writeString (s : String) : Quotes (symbols s) (writeString (symbols s)) := by
  refine ⟨_, s.toList.length + 1, rfl, ?_⟩
  exact string_write s [] (Nat.lt_succ_self _)

theorem whole_toDigits (n : Nat) : Whole (Nat.toDigits 10 n) := by
  refine ⟨Nat.toDigits_ne_nil, fun c hc => isDigit_of_mem_toDigits hc, fun hhead => ?_⟩
  by_cases hzero : n = 0
  · rw [hzero]
    rfl
  · exact absurd hhead (head?_toDigits_ne_zero hzero)

theorem writes_null : Writes .null :=
  fun _ => .null

theorem writes_bool (b : Bool) : Writes (.bool b) :=
  fun _ => .bool b

theorem writes_int (n : Int) : Writes (.int n) := by
  intro level
  have hspells := Spells.int (decide (n < 0)) (whole_toDigits n.natAbs)
  rw [ofDigits_toDigits] at hspells
  rw [write, toList_toString]
  by_cases hneg : n < 0
  · have hn : -1 * (n.natAbs : Int) = n := by omega
    simpa only [minus, hneg, decide_true, ↓reduceIte, hn] using hspells
  · have hn : 1 * (n.natAbs : Int) = n := by omega
    simpa only [minus, hneg, decide_false, Bool.false_eq_true, ↓reduceIte, hn] using hspells

theorem writes_string (s : String) : Writes (.string s) :=
  fun _ => .text (quotes_writeString s)

theorem spellsItems_write {v : Value} {vs : List Value} (h : ∀ w ∈ v :: vs, Writes w)
    (level : Nat) {a b : List Char} (ha : Layout a) (hb : Layout b) :
    SpellsItems (v :: vs) (a ++ write level v ++ writeItems level vs ++ b) := by
  induction vs generalizing v a with
  | nil =>
    rw [writeItems, List.append_nil]
    exact .last ha (h v List.mem_cons_self level) hb
  | cons w vs ih =>
    have hrest := ih (fun x hx => h x (List.mem_cons_of_mem v hx)) (layout_newLine level)
    have hmore := SpellsItems.more ha (h v List.mem_cons_self level) layout_nil hrest
    simpa only [writeItems, List.append_assoc, List.cons_append, List.nil_append] using hmore

theorem writes_array {vs : List Value} (h : ∀ v ∈ vs, Writes v) : Writes (.array vs) := by
  intro level
  cases vs with
  | nil => exact .emptyArray layout_nil
  | cons v vs =>
    have hitems := spellsItems_write h (level + 1) (layout_newLine (level + 1))
      (layout_newLine level)
    have harray := Spells.array hitems
    simpa only [write, List.append_assoc, List.cons_append] using harray

theorem spellsMembers_write {m : String × Value} {ms : List (String × Value)}
    (h : ∀ n ∈ m :: ms, Writes n.2) (level : Nat) {a b : List Char} (ha : Layout a)
    (hb : Layout b) :
    SpellsMembers ((m :: ms).map fun n => (symbols n.1, n.2))
      (a ++ writeString (symbols m.1) ++ ':' :: ' ' :: write level m.2 ++
        writeMembers level (ms.map fun n => (symbols n.1, n.2)) ++ b) := by
  have hblank : Layout [' '] := fun c hc => List.mem_singleton.1 hc ▸ rfl
  have hkey := quotes_writeString m.1
  have hvalue := h m List.mem_cons_self level
  induction ms generalizing m a with
  | nil =>
    have hlast := SpellsMembers.last ha hkey layout_nil hblank hvalue hb
    simpa only [writeMembers, List.map_cons, List.map_nil, List.append_assoc, List.cons_append,
      List.nil_append] using hlast
  | cons n ms ih =>
    have hrest := ih (fun x hx => h x (List.mem_cons_of_mem m hx)) (layout_newLine level)
      (quotes_writeString n.1) (h n (by simp) level)
    have hmore := SpellsMembers.more ha hkey layout_nil hblank hvalue layout_nil hrest
    simpa only [writeMembers, List.map_cons, List.append_assoc, List.cons_append,
      List.nil_append] using hmore

theorem writes_record {ms : List (String × Value)} (hkeys : (ms.map Prod.fst).Nodup)
    (h : ∀ m ∈ ms, Writes m.2) : Writes (.record ms) := by
  intro level
  cases ms with
  | nil => exact .emptyObject layout_nil
  | cons m ms =>
    have hmembers := spellsMembers_write h (level + 1) (layout_newLine (level + 1))
      (layout_newLine level)
    have hobject := Spells.object hmembers
    rw [distinct_record hkeys] at hobject
    simpa only [Value.record, List.map_cons, write, List.append_assoc, List.cons_append] using
      hobject

theorem Plain.writes {v : Value} (h : Plain v) : Writes v := by
  induction h with
  | null => exact writes_null
  | bool b => exact writes_bool b
  | int n => exact writes_int n
  | string s => exact writes_string s
  | array _ ih => exact writes_array ih
  | record keys _ ih => exact writes_record keys ih

/-- What is written for a value is a document of it, whatever layout stands behind it. -/
theorem Writes.document {v : Value} (h : Writes v) {after : List Char} (hafter : Layout after) :
    Document v (write 0 v ++ after) :=
  ⟨[], write 0 v, after, layout_nil, h 0, hafter, rfl⟩

end SuiteLint.Json
