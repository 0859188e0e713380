import Mathlib.Algebra.Group.Nat.Defs
import SuiteLint.Json.Writer
import SuiteLint.Json.Scalar

/-!
# Strings and integers read back

What the writer makes of a string or of an integer, the reader takes for that very string or
integer, whatever follows. Every form of escape is undone: one letter, four digits, and the pair
of four digits for a character beyond the first 65536.
-/

namespace SuiteLint.Text

theorem hexValue?_hexDigit : ∀ n < 16, hexValue? (hexDigit n) = some n := by
  decide

end SuiteLint.Text

namespace SuiteLint.Json

/-! ## Escapes -/

/-- Four digits are written for a code unit, and they are read as that unit. -/
theorem exists_unitEscape {n : Nat} (h : n < 0x10000) :
    ∃ a b c d, unitEscape n = ['\\', 'u', a, b, c, d] ∧ hexQuad? a b c d = some n := by
  have hdigit : ∀ m, Text.hexValue? (Text.hexDigit (m % 16)) = some (m % 16) :=
    fun m => Text.hexValue?_hexDigit _ (Nat.mod_lt m (by decide))
  refine ⟨_, _, _, _, rfl, ?_⟩
  simp only [hexQuad?, hdigit, Option.bind_eq_bind, Option.bind_some, Option.pure_def,
    Option.some.injEq]
  omega

theorem unitSymbol_toNat (c : Char) : unitSymbol c.toNat = .char c := by
  have hvalid : c.toNat < 0xD800 ∨ 0xDFFF < c.toNat ∧ c.toNat < 0x110000 := c.valid
  have hhigh : isHighSurrogate c.toNat = false := by
    simp only [isHighSurrogate, Bool.and_eq_false_iff, decide_eq_false_iff_not]
    omega
  have hlow : isLowSurrogate c.toNat = false := by
    simp only [isLowSurrogate, Bool.and_eq_false_iff, decide_eq_false_iff_not]
    omega
  simp [unitSymbol, hhigh, hlow]

/-- A character among the first 65536 is read from its four digits, as long as text follows. -/
theorem unicodeEscape_unit {c : Char} (h : c.toNat < 0x10000) {a b d e : Char}
    (hquad : hexQuad? a b d e = some c.toNat) {rest : List Char} (hrest : rest ≠ []) :
    unicodeEscape (a :: b :: d :: e :: rest) = .ok (.char c, rest) := by
  have hhigh : isHighSurrogate c.toNat = false := by
    have hvalid : c.toNat < 0xD800 ∨ 0xDFFF < c.toNat ∧ c.toNat < 0x110000 := c.valid
    simp only [isHighSurrogate, Bool.and_eq_false_iff, decide_eq_false_iff_not]
    omega
  obtain ⟨x, rest, rfl⟩ := List.exists_cons_of_ne_nil hrest
  simp [unicodeEscape, hquad, hhigh, unitSymbol_toNat]

/-- A character beyond the first 65536 is put together from the two halves of its pair. -/
theorem unicodeEscape_pair {c : Char} (h : 0x10000 ≤ c.toNat) {a b d e : Char}
    (hhigh : hexQuad? a b d e = some (0xD800 + (c.toNat - 0x10000) / 0x400)) {rest : List Char}
    (hrest : rest ≠ []) :
    unicodeEscape (a :: b :: d :: e ::
      (unitEscape (0xDC00 + (c.toNat - 0x10000) % 0x400) ++ rest)) = .ok (.char c, rest) := by
  have hvalid : c.toNat < 0xD800 ∨ 0xDFFF < c.toNat ∧ c.toNat < 0x110000 := c.valid
  have hfirst : isHighSurrogate (0xD800 + (c.toNat - 0x10000) / 0x400) = true := by
    simp only [isHighSurrogate, Bool.and_eq_true, decide_eq_true_eq]
    omega
  have hsecond : isLowSurrogate (0xDC00 + (c.toNat - 0x10000) % 0x400) = true := by
    simp only [isLowSurrogate, Bool.and_eq_true, decide_eq_true_eq]
    omega
  have hvalue : 0x10000 + (0xD800 + (c.toNat - 0x10000) / 0x400 - 0xD800) * 0x400 +
      (0xDC00 + (c.toNat - 0x10000) % 0x400 - 0xDC00) = c.toNat := by omega
  obtain ⟨a', b', d', e', hescape, hlow⟩ :=
    exists_unitEscape (n := 0xDC00 + (c.toNat - 0x10000) % 0x400) (by omega)
  obtain ⟨x, rest, rfl⟩ := List.exists_cons_of_ne_nil hrest
  have hhalf : lowHalf? ('\\' :: 'u' :: a' :: b' :: d' :: e' :: x :: rest) =
      some (0xDC00 + (c.toNat - 0x10000) % 0x400, x :: rest) := by
    simp [lowHalf?, hlow, hsecond]
  rw [hescape]
  simp only [List.cons_append, List.nil_append, unicodeEscape, hhigh, hfirst, hhalf, ↓reduceIte,
    hvalue, Char.ofNat_toNat]

/-- The reader undoes whatever escape the writer chose for a character. -/
theorem stringUnit_escapeChar (opening : List Char) (c : Char) {rest : List Char}
    (hrest : rest ≠ []) :
    stringUnit opening (escapeChar c ++ rest) = .ok (some (.char c), rest) := by
  unfold escapeChar
  by_cases hquote : c = '"'
  · subst hquote; rfl
  by_cases hslash : c = '\\'
  · subst hslash; rfl
  by_cases hnewline : c = '\n'
  · subst hnewline; rfl
  by_cases hreturn : c = '\r'
  · subst hreturn; rfl
  by_cases htab : c = '\t'
  · subst htab; rfl
  by_cases hback : c = '\x08'
  · subst hback; rfl
  by_cases hfeed : c = '\x0C'
  · subst hfeed; rfl
  rw [if_neg hquote, if_neg hslash, if_neg hnewline, if_neg hreturn, if_neg htab, if_neg hback,
    if_neg hfeed]
  by_cases hplain : 0x20 ≤ c.toNat ∧ c.toNat < 0x7F
  · have hcontrol : ¬ c.toNat < 0x20 := Nat.not_lt.2 hplain.1
    rw [if_pos hplain]
    simp [stringUnit, hquote, hslash, hcontrol]
  · rw [if_neg hplain]
    by_cases hunit : c.toNat < 0x10000
    · obtain ⟨a, b, d, e, hescape, hquad⟩ := exists_unitEscape hunit
      have hread := unicodeEscape_unit hunit hquad hrest
      rw [if_pos hunit, hescape]
      simp [stringUnit, hread, Except.map]
    · have hvalid : c.toNat < 0xD800 ∨ 0xDFFF < c.toNat ∧ c.toNat < 0x110000 := c.valid
      obtain ⟨a, b, d, e, hescape, hquad⟩ :=
        exists_unitEscape (n := 0xD800 + (c.toNat - 0x10000) / 0x400) (by omega)
      have hread := unicodeEscape_pair (Nat.not_lt.1 hunit) hquad hrest
      rw [if_neg hunit, hescape]
      simp [stringUnit, hread, Except.map]

/-! ## Strings -/

theorem stringBody_write (opening : List Char) (chars : List Char) (rest : List Char) {bound : Nat}
    (hbound : chars.length < bound) (read : List Symbol) :
    stringBody opening bound read ((chars.map Symbol.char).flatMap escapeSymbol ++ '"' :: rest) =
      .ok (read.reverse ++ chars.map .char, rest) := by
  induction chars generalizing bound read with
  | nil =>
    obtain ⟨bound, rfl⟩ := Nat.exists_eq_add_of_lt hbound
    simp [stringBody, stringUnit]
  | cons c chars ih =>
    obtain ⟨bound, rfl⟩ : ∃ b, bound = b + 1 := ⟨bound - 1, by simp at hbound; omega⟩
    have hrest : (chars.map Symbol.char).flatMap escapeSymbol ++ '"' :: rest ≠ [] := by simp
    have hlength : chars.length < bound := by simpa using hbound
    rw [List.map_cons, List.flatMap_cons, List.append_assoc, escapeSymbol, stringBody,
      stringUnit_escapeChar opening c hrest]
    simp only [ih hlength, List.reverse_cons, List.append_assoc, List.singleton_append]

/-- A string is read up to its closing quote. -/
theorem string_write (s : String) (rest : List Char) {bound : Nat}
    (hbound : s.toList.length < bound) :
    string bound ((symbols s).flatMap escapeSymbol ++ '"' :: rest) = .ok (symbols s, rest) :=
  stringBody_write _ _ rest hbound []

theorem writeString_append (s : List Symbol) (rest : List Char) :
    writeString s ++ rest = '"' :: (s.flatMap escapeSymbol ++ '"' :: rest) := by
  simp [writeString]

theorem length_escapeChar_pos (c : Char) : 0 < (escapeChar c).length := by
  unfold escapeChar
  repeat' split
  all_goals simp [unitEscape]

/-- Each character takes up room in what is written, so the length of the text bounds the reader. -/
theorem length_lt_length_writeString (s : String) :
    s.toList.length + 1 < (writeString (symbols s)).length := by
  have hle : ∀ chars : List Char,
      chars.length ≤ ((chars.map Symbol.char).flatMap escapeSymbol).length := by
    intro chars
    induction chars with
    | nil => simp
    | cons c chars ih =>
      have hpos := length_escapeChar_pos c
      rw [List.map_cons, List.flatMap_cons, List.length_append, List.length_cons, escapeSymbol]
      omega
  have := hle s.toList
  simp only [writeString, symbols, List.length_cons, List.length_append, List.cons_append,
    List.length_nil]
  omega

/-! ## Integers -/

/-- Text that does not go on with a number that stands before it. -/
def EndsNumber (rest : List Char) : Prop :=
  ∀ c ∈ rest.head?, c.isDigit = false ∧ c ≠ '.' ∧ c ≠ 'e' ∧ c ≠ 'E'

theorem EndsNumber.takeWhile {rest : List Char} (h : EndsNumber rest) :
    rest.takeWhile Char.isDigit = [] ∧ rest.dropWhile Char.isDigit = rest := by
  cases rest with
  | nil => exact ⟨rfl, rfl⟩
  | cons c rest =>
    obtain ⟨hdigit, -⟩ := h c rfl
    simp [hdigit]

theorem EndsNumber.fractionDigits {rest : List Char} (h : EndsNumber rest) :
    fractionDigits rest = ([], rest) := by
  cases rest with
  | nil => rfl
  | cons c rest =>
    obtain ⟨-, hpoint, -⟩ := h c rfl
    unfold Json.fractionDigits
    split
    · rename_i heq
      exact absurd (List.cons.inj heq).1 hpoint
    · rfl

theorem EndsNumber.exponentPart? {rest : List Char} (h : EndsNumber rest) :
    exponentPart? rest = none := by
  cases rest with
  | nil => rfl
  | cons c rest =>
    obtain ⟨-, -, he, hE⟩ := h c rfl
    rw [Json.exponentPart?, if_neg (not_or.2 ⟨he, hE⟩)]

theorem isDigit_of_mem_toDigits {n : Nat} {c : Char} (h : c ∈ Nat.toDigits 10 n) :
    c.isDigit = true :=
  Nat.isDigit_of_mem_toDigits (by decide) (by decide) h

theorem ne_of_isDigit {c d : Char} (hc : c.isDigit = true) (hd : d.isDigit = false) : c ≠ d := by
  rintro rfl
  rw [hc] at hd
  exact Bool.noConfusion hd

/-- No numeral starts with a zero, except that of zero itself. -/
theorem head?_toDigits_ne_zero {n : Nat} (h : n ≠ 0) :
    (Nat.toDigits 10 n).head? ≠ some '0' := by
  induction n using Nat.strongRecOn with
  | ind n ih =>
    by_cases hlt : n < 10
    · rw [Nat.toDigits_of_lt_base hlt]
      have hdigit : ∀ m < 10, m ≠ 0 → Nat.digitChar m ≠ '0' := by decide
      simpa using hdigit n hlt h
    · have hdiv : n / 10 ≠ 0 := by omega
      obtain ⟨c, digits, hdigits⟩ :=
        List.exists_cons_of_ne_nil (Nat.toDigits_ne_nil (n := n / 10) (b := 10))
      have hfront := ih (n / 10) (by omega) hdiv
      rw [hdigits, List.head?_cons] at hfront
      rwa [Nat.toDigits_of_base_le (by decide) (Nat.not_lt.1 hlt), hdigits, List.cons_append,
        List.head?_cons]

/-- The whole part that is read off a numeral is the numeral. -/
theorem wholeDigits?_toDigits (n : Nat) {rest : List Char} (hrest : EndsNumber rest) :
    wholeDigits? (Nat.toDigits 10 n ++ rest) = some (Nat.toDigits 10 n, rest) := by
  by_cases hzero : n = 0
  · subst hzero
    rfl
  · obtain ⟨c, digits, hdigits⟩ := List.exists_cons_of_ne_nil (Nat.toDigits_ne_nil (n := n) (b := 10))
    have hall : ∀ d ∈ c :: digits, d.isDigit = true :=
      fun d hd => isDigit_of_mem_toDigits (hdigits ▸ hd)
    have hc : c ≠ '0' := by
      have := head?_toDigits_ne_zero hzero
      rwa [hdigits, List.head?_cons, Ne, Option.some.injEq] at this
    obtain ⟨htake, hdrop⟩ := hrest.takeWhile
    rw [hdigits, List.cons_append, wholeDigits?, if_neg hc, if_pos (hall c List.mem_cons_self),
      ← List.cons_append, List.takeWhile_append_of_pos hall, List.dropWhile_append_of_pos hall,
      htake, hdrop, List.append_nil]

theorem ofDigits_toDigits (n : Nat) :
    Text.ofDigits (digitValues (Nat.toDigits 10 n)) = n := by
  have hvalue : Nat.ofDigitChars 10 (Nat.toDigits 10 n) 0 = n :=
    Nat.ofDigitChars_toDigits (by decide) (by decide)
  rw [Text.ofDigits, digitValues, List.foldl_map]
  exact hvalue

theorem length_toDigits_le {n : Nat} (h : n < 10 ^ Text.maxDigits) :
    (Nat.toDigits 10 n).length ≤ Text.maxDigits :=
  (Nat.length_toDigits_le_iff (by decide) (by decide)).2 h

theorem unsignedNumber_toDigits (start : List Char) (negative : Bool) {n : Nat}
    (h : n < 10 ^ Text.maxDigits) {rest : List Char} (hrest : EndsNumber rest) :
    unsignedNumber start negative (Nat.toDigits 10 n ++ rest) =
      .ok (.int (if negative then -(n : Int) else n), rest) := by
  have hlength := Nat.not_lt.2 (length_toDigits_le h)
  simp only [unsignedNumber, wholeDigits?_toDigits n hrest, hrest.fractionDigits,
    hrest.exponentPart?, List.isEmpty_nil, ↓reduceIte, if_neg hlength, ofDigits_toDigits]

/-- How an integer is written: its sign and the digits of its size. -/
theorem toList_toString (n : Int) :
    (toString n).toList =
      (if n < 0 then ['-'] else []) ++ Nat.toDigits 10 n.natAbs := by
  cases n with
  | ofNat m =>
    show (Nat.repr m).toList = _
    rw [Nat.repr_eq_ofList_toDigits, String.toList_ofList]
    rfl
  | negSucc m =>
    show ("-" ++ Nat.repr (m + 1)).toList = _
    rw [Nat.repr_eq_ofList_toDigits, if_pos (Int.negSucc_lt_zero m), String.toList_append]
    exact congrArg (['-'] ++ ·) String.toList_ofList

theorem number_toString {n : Int} (h : n.natAbs < 10 ^ Text.maxDigits) {rest : List Char}
    (hrest : EndsNumber rest) : number ((toString n).toList ++ rest) = .ok (.int n, rest) := by
  rw [toList_toString]
  by_cases hneg : n < 0
  · have hn : -(n.natAbs : Int) = n := by omega
    rw [if_pos hneg, List.append_assoc, List.singleton_append, number,
      unsignedNumber_toDigits _ true h hrest, if_pos rfl, hn]
  · have hn : (n.natAbs : Int) = n := by omega
    obtain ⟨c, digits, hdigits⟩ :=
      List.exists_cons_of_ne_nil (Nat.toDigits_ne_nil (n := n.natAbs) (b := 10))
    have hc : c ≠ '-' :=
      ne_of_isDigit (isDigit_of_mem_toDigits (hdigits ▸ List.mem_cons_self)) rfl
    rw [if_neg hneg, List.nil_append, number]
    · rw [unsignedNumber_toDigits _ false h hrest, if_neg Bool.false_ne_true, hn]
    · intro digits' heq
      rw [hdigits, List.cons_append] at heq
      exact hc (List.cons.inj heq).1

/-- An integer starts with a minus sign or with a digit. -/
theorem exists_toString (n : Int) :
    ∃ c cs, (toString n).toList = c :: cs ∧ (c = '-' ∨ c.isDigit = true) := by
  obtain ⟨d, digits, hdigits⟩ :=
    List.exists_cons_of_ne_nil (Nat.toDigits_ne_nil (n := n.natAbs) (b := 10))
  have hd : d.isDigit = true := isDigit_of_mem_toDigits (hdigits ▸ List.mem_cons_self)
  rw [toList_toString, hdigits]
  by_cases hneg : n < 0
  · exact ⟨'-', d :: digits, by rw [if_pos hneg]; rfl, Or.inl rfl⟩
  · exact ⟨d, digits, by rw [if_neg hneg]; rfl, Or.inr hd⟩

/-- An integer has a digit at its start, or right after its minus sign. -/
theorem exists_digit_toString_append (n : Int) (rest : List Char) :
    ∃ d ∈ ((toString n).toList ++ rest).take 2, d.isDigit = true := by
  obtain ⟨d, digits, hdigits⟩ :=
    List.exists_cons_of_ne_nil (Nat.toDigits_ne_nil (n := n.natAbs) (b := 10))
  have hd : d.isDigit = true := isDigit_of_mem_toDigits (hdigits ▸ List.mem_cons_self)
  refine ⟨d, ?_, hd⟩
  rw [toList_toString, hdigits]
  by_cases hneg : n < 0 <;> simp [hneg]

/-- No name holds a digit, so none is taken for the start of an integer. -/
theorem find?_names_of_digit {s : List Char} {d : Char} (hd : d.isDigit = true)
    (hmem : d ∈ s.take 2) : names.find? (fun n => n.1.toList.isPrefixOf s) = none := by
  have hnames : (names.all fun n =>
      decide (2 ≤ n.1.toList.length) && n.1.toList.all fun c => !c.isDigit) = true := by
    decide
  rw [List.find?_eq_none]
  intro n hn hstart
  have hname := List.all_eq_true.1 hnames n hn
  rw [Bool.and_eq_true, decide_eq_true_iff, List.all_eq_true] at hname
  obtain ⟨rest, rfl⟩ := List.isPrefixOf_iff_prefix.1 hstart
  rw [List.take_append_of_le_length hname.1] at hmem
  have hdigit := hname.2 d (List.mem_of_mem_take hmem)
  rw [hd] at hdigit
  exact Bool.noConfusion hdigit

theorem scalar_toString (bound : Nat) {n : Int} (h : n.natAbs < 10 ^ Text.maxDigits)
    {rest : List Char} (hrest : EndsNumber rest) :
    scalar bound ((toString n).toList ++ rest) = .ok (.int n, rest) := by
  obtain ⟨d, hmem, hd⟩ := exists_digit_toString_append n rest
  have hfind := find?_names_of_digit hd hmem
  have hnumber := number_toString h hrest
  generalize (toString n).toList ++ rest = s at hnumber hfind
  unfold scalar
  split
  · simp [number, unsignedNumber, wholeDigits?] at hnumber
  · rw [hfind]
    exact hnumber

theorem scalar_writeString (s : String) (rest : List Char) {bound : Nat}
    (hbound : s.toList.length < bound) :
    scalar bound (writeString (symbols s) ++ rest) = .ok (.string s, rest) := by
  rw [writeString_append, scalar, string_write s rest hbound]
  rfl

end SuiteLint.Json
