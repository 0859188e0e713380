import SuiteLint.Proofs.Json.Scalar
import SuiteLint.Proofs.Text.Blank

/-!
# Integers written and read back

An integer that is written with at most `maxDigits` digits is read back as it was, with its sign.
-/

namespace SuiteLint.Text

open Json (digitValues)

theorem digitValue?_of_isDigit {c : Char} (h : c.isDigit = true) :
    digitValue? c = some (c.toNat - '0'.toNat) := by
  have hcases : ∀ n < 10, digitValue? (Char.ofNat (48 + n)) = some n := by decide
  have hrange : 48 ≤ c.toNat ∧ c.toNat ≤ 57 := by
    rw [Char.isDigit, Bool.and_eq_true, decide_eq_true_iff, decide_eq_true_iff] at h
    exact ⟨UInt32.le_iff_toNat_le.1 h.1, UInt32.le_iff_toNat_le.1 h.2⟩
  have hc : Char.ofNat (48 + (c.toNat - 48)) = c := by
    rw [Nat.add_sub_cancel' hrange.1, Char.ofNat_toNat]
  have hvalue := hcases (c.toNat - 48) (by omega)
  rwa [hc] at hvalue

theorem laterDigits_of_isDigit {s : List Char} (h : ∀ c ∈ s, c.isDigit = true) :
    laterDigits s = some (digitValues s) := by
  induction s with
  | nil => rfl
  | cons c s ih =>
    obtain ⟨hc, hs⟩ := List.forall_mem_cons.1 h
    rw [laterDigits, digitValue?_of_isDigit hc, ih hs]
    · rfl
    · intro d rest heq _
      exact Json.ne_of_isDigit hc (d := '_') rfl heq

theorem parseNat?_toDigits {n : Nat} (h : (Nat.toDigits 10 n).length ≤ maxDigits) :
    parseNat? (Nat.toDigits 10 n) = some n := by
  obtain ⟨c, digits, hdigits⟩ :=
    List.exists_cons_of_ne_nil (Nat.toDigits_ne_nil (n := n) (b := 10))
  have hall : ∀ d ∈ c :: digits, d.isDigit = true :=
    fun d hd => Json.isDigit_of_mem_toDigits (hdigits ▸ hd)
  obtain ⟨hc, hrest⟩ := List.forall_mem_cons.1 hall
  have hnumeral : numeralDigits (c :: digits) = some (digitValues (c :: digits)) := by
    rw [numeralDigits, digitValue?_of_isDigit hc, laterDigits_of_isDigit hrest]
    rfl
  have hlength : (digitValues (c :: digits)).length ≤ maxDigits := by
    rwa [digitValues, List.length_map, ← hdigits]
  have hvalue := Json.ofDigits_toDigits n
  rw [hdigits] at hvalue
  rw [parseNat?, hdigits, hnumeral]
  simp only [Option.bind_eq_bind, Option.bind_some, if_pos hlength, hvalue]

/-- Nothing that an integer is written with is taken for a blank around it. -/
theorem not_isNumeralMargin {n : Int} {c : Char} (h : c ∈ (toString n).toList) :
    isNumeralMargin c = false := by
  have hink : c = '-' ∨ c.isDigit = true := by
    rw [Json.toList_toString] at h
    rcases List.mem_append.1 h with h | h
    · split at h
      · exact Or.inl (List.mem_singleton.1 h)
      · exact absurd h List.not_mem_nil
    · exact Or.inr (Json.isDigit_of_mem_toDigits h)
  have hblank : isBlank c = false := by
    by_contra hblank
    rw [Bool.not_eq_false] at hblank
    have hnot := of_isBlank (fun d => d != '-' && !d.isDigit) (by decide) hblank
    rcases hink with rfl | hdigit
    · exact absurd hnot (by decide)
    · simp [hdigit] at hnot
  rw [isNumeralMargin, hblank, Bool.false_and]

/-- An integer within the digit limit is read back from its text. -/
theorem parseInt?_toString {n : Int} (h : (Nat.toDigits 10 n.natAbs).length ≤ maxDigits) :
    parseInt? (toString n) = some n := by
  have hmargin : ∀ c ∈ (toString n).toList, isNumeralMargin c = false :=
    fun c hc => not_isNumeralMargin hc
  have hfront : (toString n).toList.dropWhile isNumeralMargin = (toString n).toList :=
    List.dropWhile_eq_self_iff.2 fun _ => by simp [hmargin]
  have hback : (toString n).toList.reverse.dropWhile isNumeralMargin =
      (toString n).toList.reverse :=
    List.dropWhile_eq_self_iff.2 fun _ => by simp [hmargin]
  have hsize := parseNat?_toDigits h
  rw [parseInt?, hfront, hback, List.reverse_reverse, Json.toList_toString]
  by_cases hneg : n < 0
  · have hn : -(n.natAbs : Int) = n := by omega
    rw [if_pos hneg, List.singleton_append]
    simp only [hsize, Option.bind_eq_bind, Option.bind_some, Option.pure_def, Option.map_some, hn]
  · obtain ⟨c, digits, hdigits⟩ :=
      List.exists_cons_of_ne_nil (Nat.toDigits_ne_nil (n := n.natAbs) (b := 10))
    have hc : c.isDigit = true := Json.isDigit_of_mem_toDigits (hdigits ▸ List.mem_cons_self)
    have hn : (n.natAbs : Int) = n := by omega
    rw [if_neg hneg, List.nil_append]
    split
    · rename_i heq
      rw [hdigits] at heq
      exact absurd (List.cons.inj heq).1 (Json.ne_of_isDigit hc rfl)
    · rename_i heq
      rw [hdigits] at heq
      exact absurd (List.cons.inj heq).1 (Json.ne_of_isDigit hc rfl)
    · rw [hsize, Option.map_some]
      exact congrArg some hn

end SuiteLint.Text
