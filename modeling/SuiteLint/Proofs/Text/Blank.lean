import Mathlib.Data.List.TakeWhile
import SuiteLint.Proofs.Text.Split
import SuiteLint.Text.Character

/-!
# Blank characters and what they are not

There are 29 blank characters, so what holds of all of them can be checked one by one. Trimming a
text takes away blanks only, and blanks around a text make no difference to it.
-/

namespace SuiteLint.Text

/-- The blank code points, one by one. -/
def blankCodes : List Nat :=
  blankRanges.flatMap fun r => List.range' r.1 (r.2 + 1 - r.1)

theorem mem_blankCodes {c : Char} (h : isBlank c = true) : c.toNat ∈ blankCodes := by
  obtain ⟨r, hr, hlo, hhi⟩ := inRanges_iff.1 h
  refine List.mem_flatMap.2 ⟨r, hr, ?_⟩
  rw [List.mem_range'_1]
  omega

/-- A property of all blank characters, by a look at each of them. -/
theorem of_isBlank (p : Char → Bool) (hp : blankCodes.all (fun n => p (Char.ofNat n)) = true)
    {c : Char} (h : isBlank c = true) : p c = true := by
  have hc := List.all_eq_true.1 hp c.toNat (mem_blankCodes h)
  rwa [Char.ofNat_toNat] at hc

section Trim

variable {p s : List Char}

theorem trimStart_append_left (hp : ∀ c ∈ p, isBlank c = true) (text : List Char) :
    trimStart (p ++ text) = trimStart text :=
  List.dropWhile_append_of_pos hp

theorem trimEnd_append_right (hs : ∀ c ∈ s, isBlank c = true) (text : List Char) :
    trimEnd (text ++ s) = trimEnd text := by
  have hrev : ∀ c ∈ s.reverse, isBlank c = true := fun c hc => hs c (List.mem_reverse.1 hc)
  rw [trimEnd, List.reverse_append, List.dropWhile_append_of_pos hrev, trimEnd]

theorem trim_append_right (hs : ∀ c ∈ s, isBlank c = true) (text : List Char) :
    trim (text ++ s) = trim text := by
  unfold trim trimStart
  rw [List.dropWhile_append]
  split
  · rename_i hempty
    rw [List.isEmpty_iff.1 hempty, List.dropWhile_eq_nil_iff.2 hs]
  · exact trimEnd_append_right hs _

/-- Blanks around a text are trimmed away with those that it has itself. -/
theorem trim_margins (hp : ∀ c ∈ p, isBlank c = true) (hs : ∀ c ∈ s, isBlank c = true)
    (text : List Char) : trim (p ++ text ++ s) = trim text := by
  rw [trim_append_right hs, trim, trimStart_append_left hp, trim]

end Trim

/-- What trimming takes away are blanks at either end. -/
theorem exists_margins (text : List Char) :
    ∃ p s, (∀ c ∈ p, isBlank c = true) ∧ (∀ c ∈ s, isBlank c = true) ∧
      text = p ++ trim text ++ s := by
  refine ⟨text.takeWhile isBlank, ((trimStart text).reverse.takeWhile isBlank).reverse, ?_, ?_, ?_⟩
  · exact fun c hc => List.mem_takeWhile_imp hc
  · exact fun c hc => List.mem_takeWhile_imp (List.mem_reverse.1 hc)
  · rw [List.append_assoc, trim, trimEnd, ← List.reverse_append, List.takeWhile_append_dropWhile,
      List.reverse_reverse, trimStart, List.takeWhile_append_dropWhile]

theorem trim_trim (text : List Char) : trim (trim text) = trim text := by
  obtain ⟨p, s, hp, hs, htext⟩ := exists_margins text
  have h := trim_margins hp hs (trim text)
  rw [← htext] at h
  exact h.symm

/-- Trimming loses nothing that is written without blanks. -/
theorem infix_trim {word text : List Char} (hword : word.any isBlank = false) :
    word <:+: trim text ↔ word <:+: text := by
  have hblank : ∀ c, isBlank c = true → c ∉ word := by
    intro c hc hmem
    exact List.any_eq_false.1 hword c hmem hc
  obtain ⟨p, s, hp, hs, htext⟩ := exists_margins text
  have hmargins : word <:+: p ++ trim text ++ s ↔ word <:+: trim text := by
    rw [infix_append_right fun c hc => hblank c (hs c hc),
      infix_append_left fun c hc => hblank c (hp c hc)]
  rw [← htext] at hmargins
  exact hmargins.symm

end SuiteLint.Text
