import Mathlib.Algebra.Group.Nat.Defs
import SuiteLint.Proofs.Text.Split
import SuiteLint.Text.Utf8

/-!
# UTF-8, line by line

Tolerant reading forgets where ill-formed stretches stand, so it is a function of the pending
character and the bytes to come: `chars` is that function. A byte below 0x80 continues nothing. It
ends whatever is pending in the same way as the end of the input does, so the bytes before it and
the bytes after it are read apart from each other. No other bytes are ever read as a character below
0x80. Text that is written in UTF-8 is read back.
-/

namespace SuiteLint.Text.Utf8

/-! ## Reading without positions -/

/-- What a byte at the start of a character gives at once, and what is pending after it. -/
def fresh (b : UInt8) : List Char × Option Pending :=
  match lead b with
  | .single c => ([c], none)
  | .several p => ([], some p)
  | .none => (['\uFFFD'], none)

/-- What a byte gives after a pending character, if there is one, and what is pending then. -/
def advance : Option Pending → UInt8 → List Char × Option Pending
  | none, b => fresh b
  | some p, b =>
    if p.lo ≤ b ∧ b ≤ p.hi then
      let bits := p.bits * 64 + (b.toNat - 0x80)
      match p.further with
      | 0 => ([Char.ofNat bits], none)
      | k + 1 => ([], some ⟨b :: p.bytes, bits, k, 0x80, 0xBF⟩)
    else ('\uFFFD' :: (fresh b).1, (fresh b).2)

/-- What a pending character leaves at the end of the input. -/
def leftover (pending : Option Pending) : List Char :=
  pending.toList.map fun _ => '\uFFFD'

/-- The characters that bytes give after a pending character. -/
def chars : Option Pending → List UInt8 → List Char
  | pending, [] => leftover pending
  | pending, b :: bytes => (advance pending b).1 ++ chars (advance pending b).2 bytes

theorem start_eq (position : Nat) (found : List Item) (b : UInt8) :
    ((Reader.start position found b).found.map Item.toChar).reverse =
        (found.map Item.toChar).reverse ++ (fresh b).1 ∧
      (Reader.start position found b).pending = (fresh b).2 := by
  unfold Reader.start fresh
  cases lead b <;> simp [Item.toChar]

theorem step_eq (r : Reader) (b : UInt8) :
    ((r.step b).found.map Item.toChar).reverse =
        (r.found.map Item.toChar).reverse ++ (advance r.pending b).1 ∧
      (r.step b).pending = (advance r.pending b).2 := by
  unfold Reader.step
  cases r.pending with
  | none => exact start_eq r.position r.found b
  | some p =>
    simp only [advance]
    by_cases hfits : p.lo ≤ b ∧ b ≤ p.hi
    · rw [if_pos hfits, if_pos hfits]
      cases p.further <;> simp [Item.toChar]
    · rw [if_neg hfits, if_neg hfits]
      obtain ⟨hfound, hpending⟩ :=
        start_eq r.position (p.fault r.position .continuationByte :: r.found) b
      refine ⟨?_, hpending⟩
      rw [hfound]
      simp [Pending.fault, Item.toChar]

theorem foldl_step_eq (bytes : List UInt8) (r : Reader) :
    (bytes.foldl Reader.step r).finish.map Item.toChar =
      (r.found.map Item.toChar).reverse ++ chars r.pending bytes := by
  induction bytes generalizing r with
  | nil =>
    unfold Reader.finish
    cases hpending : r.pending <;> simp [hpending, chars, leftover, Pending.fault, Item.toChar]
  | cons b bytes ih =>
    obtain ⟨hfound, hpending⟩ := step_eq r b
    rw [List.foldl_cons, ih, hfound, hpending, chars, List.append_assoc]

theorem decodeLossy_eq_chars (bytes : List UInt8) : decodeLossy bytes = chars none bytes := by
  rw [decodeLossy, items, foldl_step_eq]
  rfl

/-! ## Lead bytes -/

theorem lead_of_one {b : UInt8} (h : b.toNat < 0x80) : lead b = .single (Char.ofNat b.toNat) := by
  unfold lead
  dsimp only
  rw [if_pos h]

theorem lead_of_two {b : UInt8} (hlo : 0xC2 ≤ b.toNat) (hhi : b.toNat < 0xE0) :
    lead b = .several ⟨[b], b.toNat - 0xC0, 0, 0x80, 0xBF⟩ := by
  unfold lead
  dsimp only
  rw [if_neg (by omega), if_neg (by omega), if_pos hhi]

/-- Overlong forms and surrogates are told by the byte after the lead. -/
theorem lead_of_three {b : UInt8} (hlo : 0xE0 ≤ b.toNat) (hhi : b.toNat < 0xF0) :
    lead b = .several ⟨[b], b.toNat - 0xE0, 1, if b.toNat = 0xE0 then 0xA0 else 0x80,
      if b.toNat = 0xED then 0x9F else 0xBF⟩ := by
  unfold lead
  dsimp only
  rw [if_neg (by omega), if_neg (by omega), if_neg (by omega)]
  by_cases hfirst : b.toNat = 0xE0
  · simp [hfirst]
  · by_cases hsurrogate : b.toNat = 0xED
    · simp [hsurrogate]
    · simp [hfirst, hsurrogate, hhi]

theorem lead_of_four {b : UInt8} (hlo : 0xF0 ≤ b.toNat) (hhi : b.toNat ≤ 0xF4) :
    lead b = .several ⟨[b], b.toNat - 0xF0, 2, if b.toNat = 0xF0 then 0x90 else 0x80,
      if b.toNat = 0xF4 then 0x8F else 0xBF⟩ := by
  unfold lead
  dsimp only
  rw [if_neg (by omega), if_neg (by omega), if_neg (by omega), if_neg (by omega),
    if_neg (by omega), if_neg (by omega)]
  by_cases hfirst : b.toNat = 0xF0
  · simp [hfirst]
  · by_cases hlast : b.toNat = 0xF4
    · simp [hlast]
    · have hlt : b.toNat < 0xF4 := by omega
      simp [hfirst, hlast, hlt]

theorem lead_of_other {b : UInt8} (h : 0x80 ≤ b.toNat ∧ b.toNat < 0xC2 ∨ 0xF4 < b.toNat) :
    lead b = .none := by
  unfold lead
  dsimp only
  rw [if_neg (by omega)]
  by_cases hlow : b.toNat < 0xC2
  · rw [if_pos hlow]
  · rw [if_neg hlow, if_neg (by omega), if_neg (by omega), if_neg (by omega), if_neg (by omega),
      if_neg (by omega), if_neg (by omega), if_neg (by omega)]

/-! ## Bytes below 0x80 -/

/-- The least number that a pending character can come to. -/
def Pending.least (p : Pending) : Nat :=
  (p.bits * 64 + (p.lo.toNat - 0x80)) * 64 ^ p.further

/-- The number after the greatest that a pending character can come to. -/
def Pending.bound (p : Pending) : Nat :=
  (p.bits * 64 + (p.hi.toNat - 0x80) + 1) * 64 ^ p.further

/-- A pending character that only bytes from 0x80 on continue, and that comes to a code point from
0x80 on, and no surrogate, whatever these bytes are. -/
structure Pending.Multibyte (p : Pending) : Prop where
  lo : 0x80 ≤ p.lo.toNat
  least : 0x80 ≤ p.least
  scalar : p.bound ≤ 0xD800 ∨ 0xE000 ≤ p.least ∧ p.bound ≤ 0x110000

/-- What a byte can start: itself if it is below 0x80, a longer character, or nothing. -/
theorem lead_cases (b : UInt8) :
    (b.toNat < 0x80 ∧ lead b = .single (Char.ofNat b.toNat)) ∨
      (∃ p, lead b = .several p ∧ p.Multibyte) ∨ lead b = .none := by
  by_cases hone : b.toNat < 0x80
  · exact .inl ⟨hone, lead_of_one hone⟩
  right
  by_cases hother : b.toNat < 0xC2 ∨ 0xF4 < b.toNat
  · exact .inr (lead_of_other (by omega))
  left
  by_cases htwo : b.toNat < 0xE0
  · refine ⟨_, lead_of_two (by omega) htwo, by simp, ?_, ?_⟩
    · simp only [Pending.least, UInt8.toNat_ofNat]
      omega
    · simp only [Pending.least, Pending.bound, UInt8.toNat_ofNat]
      omega
  by_cases hthree : b.toNat < 0xF0
  · refine ⟨_, lead_of_three (by omega) hthree, ?_⟩
    by_cases hfirst : b.toNat = 0xE0
    · constructor <;> simp [Pending.least, Pending.bound, hfirst]
    by_cases hsurrogate : b.toNat = 0xED
    · constructor <;> simp [Pending.least, Pending.bound, hsurrogate]
    · constructor
      · simp [hfirst]
      · simp only [Pending.least, hfirst, ↓reduceIte, UInt8.toNat_ofNat]
        omega
      · simp only [Pending.least, Pending.bound, hfirst, hsurrogate, ↓reduceIte,
          UInt8.toNat_ofNat]
        omega
  · refine ⟨_, lead_of_four (by omega) (by omega), ?_⟩
    by_cases hfirst : b.toNat = 0xF0
    · constructor <;> simp [Pending.least, Pending.bound, hfirst]
    by_cases hlast : b.toNat = 0xF4
    · constructor <;> simp [Pending.least, Pending.bound, hlast]
    · constructor
      · simp [hfirst]
      · simp only [Pending.least, hfirst, ↓reduceIte, UInt8.toNat_ofNat]
        omega
      · simp only [Pending.least, Pending.bound, hfirst, hlast, ↓reduceIte, UInt8.toNat_ofNat]
        omega

/-- One more byte narrows down what a pending character can come to. -/
theorem Pending.least_le_bound_le {p : Pending} {b : UInt8} (hlo : p.lo.toNat ≤ b.toNat)
    (hhi : b.toNat ≤ p.hi.toNat) {k : Nat} (hfurther : p.further = k + 1) (bytes : List UInt8) :
    p.least ≤ Pending.least ⟨bytes, p.bits * 64 + (b.toNat - 0x80), k, 0x80, 0xBF⟩ ∧
      Pending.bound ⟨bytes, p.bits * 64 + (b.toNat - 0x80), k, 0x80, 0xBF⟩ ≤ p.bound := by
  simp only [least, bound, hfurther, Nat.pow_succ', ← Nat.mul_assoc, UInt8.toNat_ofNat,
    Nat.reducePow, Nat.sub_self, Nat.add_zero]
  constructor
  · exact Nat.mul_le_mul_right _ (by omega)
  · exact Nat.mul_le_mul_right _ (by omega)

/-- Every pending character that is met on the way is one of several bytes. -/
def Sound (pending : Option Pending) : Prop :=
  ∀ p ∈ pending, p.Multibyte

theorem sound_none : Sound none := nofun

theorem sound_fresh (b : UInt8) : Sound (fresh b).2 := by
  unfold fresh
  rcases lead_cases b with ⟨-, hlead⟩ | ⟨p, hlead, hp⟩ | hlead
  · rw [hlead]
    exact sound_none
  · rw [hlead]
    intro q hq
    rwa [← Option.some.inj hq]
  · rw [hlead]
    exact sound_none

theorem Sound.advance {pending : Option Pending} (h : Sound pending) (b : UInt8) :
    Sound (advance pending b).2 := by
  cases pending with
  | none => exact sound_fresh b
  | some p =>
    simp only [Utf8.advance]
    split
    · rename_i hfits
      split
      · exact sound_none
      · rename_i k hfurther
        intro q hq
        rw [← Option.some.inj hq]
        obtain ⟨hle, hbound⟩ := Pending.least_le_bound_le (UInt8.le_iff_toNat_le.1 hfits.1)
          (UInt8.le_iff_toNat_le.1 hfits.2) hfurther (b :: p.bytes)
        have hscalar := (h p rfl).scalar
        exact ⟨by simp, Nat.le_trans (h p rfl).least hle, by omega⟩
    · exact sound_fresh b

/-- A byte below 0x80 ends what is pending and stands for itself. -/
theorem advance_of_lt {pending : Option Pending} (h : Sound pending) {b : UInt8}
    (hb : b.toNat < 0x80) :
    advance pending b = (leftover pending ++ [Char.ofNat b.toNat], none) := by
  have hfresh : fresh b = ([Char.ofNat b.toNat], none) := by
    rw [fresh, lead_of_one hb]
  cases pending with
  | none => exact hfresh
  | some p =>
    have hlo := (h p rfl).lo
    have hfits : ¬ (p.lo ≤ b ∧ b ≤ p.hi) := by
      intro hfits
      have hle := UInt8.le_iff_toNat_le.1 hfits.1
      omega
    rw [advance, if_neg hfits, hfresh]
    rfl

/-- Bytes before and after a byte below 0x80 are read apart from each other. -/
theorem chars_append_cons {pending : Option Pending} (h : Sound pending) (front back : List UInt8)
    {b : UInt8} (hb : b.toNat < 0x80) :
    chars pending (front ++ b :: back) =
      chars pending front ++ Char.ofNat b.toNat :: chars none back := by
  induction front generalizing pending with
  | nil =>
    rw [List.nil_append, chars.eq_2, advance_of_lt h hb, chars.eq_1, List.append_assoc]
    rfl
  | cons a front ih => rw [List.cons_append, chars, ih (h.advance a), chars, List.append_assoc]

/-- A character below 0x80 comes from its own byte only. -/
theorem mem_advance {pending : Option Pending} (h : Sound pending) {b : UInt8} {c : Char}
    (hc : c.toNat < 0x80) (hmem : c ∈ (advance pending b).1) : b.toNat = c.toNat := by
  have hreplacement : c ≠ '\uFFFD' := by
    rintro rfl
    exact absurd hc (by decide)
  have hnumber {n : Nat} (hvalid : n.isValidChar) (heq : c = Char.ofNat n) : n = c.toNat := by
    rw [heq, Char.ofNat, dif_pos hvalid]
    rfl
  have hfresh : c ∈ (fresh b).1 → b.toNat = c.toNat := by
    intro hmem
    unfold fresh at hmem
    rcases lead_cases b with ⟨hb, hlead⟩ | ⟨p, hlead, -⟩ | hlead
    · rw [hlead] at hmem
      exact hnumber (Or.inl (by omega)) (List.mem_singleton.1 hmem)
    · rw [hlead] at hmem
      exact absurd hmem List.not_mem_nil
    · rw [hlead] at hmem
      exact absurd (List.mem_singleton.1 hmem) hreplacement
  cases pending with
  | none => exact hfresh hmem
  | some p =>
    simp only [advance] at hmem
    split at hmem
    · rename_i hfits
      have hlo : p.lo.toNat ≤ b.toNat := UInt8.le_iff_toNat_le.1 hfits.1
      have hhi : b.toNat ≤ p.hi.toNat := UInt8.le_iff_toNat_le.1 hfits.2
      split at hmem
      · rename_i hfurther
        obtain ⟨-, hleast, hscalar⟩ := h p rfl
        simp only [Pending.least, Pending.bound, hfurther, Nat.pow_zero, Nat.mul_one]
          at hleast hscalar
        have hvalid : (p.bits * 64 + (b.toNat - 0x80)).isValidChar := by
          rcases hscalar with hlow | ⟨hhigh, hlast⟩
          · exact Or.inl (by omega)
          · exact Or.inr ⟨by omega, by omega⟩
        have hvalue := hnumber hvalid (List.mem_singleton.1 hmem)
        omega
      · exact absurd hmem List.not_mem_nil
    · exact hfresh ((List.mem_cons.1 hmem).resolve_left hreplacement)

theorem mem_chars {pending : Option Pending} (h : Sound pending) {bytes : List UInt8} {c : Char}
    (hc : c.toNat < 0x80) (hmem : c ∈ chars pending bytes) :
    UInt8.ofNat c.toNat ∈ bytes := by
  induction bytes generalizing pending with
  | nil =>
    obtain ⟨p, -, rfl⟩ := List.mem_map.1 hmem
    exact absurd hc (by decide)
  | cons b bytes ih =>
    rw [chars, List.mem_append] at hmem
    rcases hmem with hmem | hmem
    · rw [← mem_advance h hc hmem, UInt8.ofNat_toNat]
      exact List.mem_cons_self
    · exact List.mem_cons_of_mem b (ih (h.advance b) hmem)

/-! ## Chunks between line ends -/

theorem decodeLossy_append_newline (front back : List UInt8) :
    decodeLossy (front ++ 0x0A :: back) = decodeLossy front ++ '\n' :: decodeLossy back := by
  simp only [decodeLossy_eq_chars]
  exact chars_append_cons sound_none front back (by decide)

theorem mem_of_mem_decodeLossy {bytes : List UInt8} {c : Char} (hc : c.toNat < 0x80)
    (hmem : c ∈ decodeLossy bytes) : UInt8.ofNat c.toNat ∈ bytes := by
  rw [decodeLossy_eq_chars] at hmem
  exact mem_chars sound_none hc hmem

theorem decodeLossy_intercalate {chunks : List (List UInt8)} (hne : chunks ≠ []) :
    decodeLossy ([0x0A].intercalate chunks) = ['\n'].intercalate (chunks.map decodeLossy) := by
  induction chunks with
  | nil => exact absurd rfl hne
  | cons chunk chunks ih =>
    by_cases hchunks : chunks = []
    · simp [hchunks]
    · have hmap : chunks.map decodeLossy ≠ [] := by simpa using hchunks
      rw [List.intercalate_cons_of_ne_nil hchunks, List.append_assoc, List.singleton_append,
        decodeLossy_append_newline, ih hchunks, List.map_cons,
        List.intercalate_cons_of_ne_nil hmap, List.append_assoc, List.singleton_append]

/-- The lines of a text are the texts of the chunks between the bytes that end lines. -/
theorem lines_decodeLossy (bytes : List UInt8) :
    lines (decodeLossy bytes) = (bytes.splitOn 0x0A).map decodeLossy := by
  have hne := List.splitOn_ne_nil 0x0A bytes
  have hlines : ∀ line ∈ (bytes.splitOn 0x0A).map decodeLossy, '\n' ∉ line := by
    intro line hline hmem
    obtain ⟨chunk, hchunk, rfl⟩ := List.mem_map.1 hline
    exact not_mem_of_mem_splitOn hchunk (mem_of_mem_decodeLossy (by decide) hmem)
  calc lines (decodeLossy bytes) =
        lines (decodeLossy ([0x0A].intercalate (bytes.splitOn 0x0A))) := by
          rw [List.intercalate_splitOn]
    _ = (['\n'].intercalate ((bytes.splitOn 0x0A).map decodeLossy)).splitOn '\n' := by
          rw [decodeLossy_intercalate hne, lines]
    _ = (bytes.splitOn 0x0A).map decodeLossy :=
          List.splitOn_intercalate '\n' hlines (by simp)

/-! ## Text that is written in UTF-8 -/

theorem chars_of_lead {b : UInt8} {p : Pending} (h : lead b = .several p) (bytes : List UInt8) :
    chars none (b :: bytes) = chars (some p) bytes := by
  rw [chars, advance, fresh, h]
  rfl

section Continuation

variable {seen : List UInt8} {bits k : Nat} {lo hi b : UInt8}

theorem chars_more (hlo : lo.toNat ≤ b.toNat) (hhi : b.toNat ≤ hi.toNat) (bytes : List UInt8) :
    chars (some ⟨seen, bits, k + 1, lo, hi⟩) (b :: bytes) =
      chars (some ⟨b :: seen, bits * 64 + (b.toNat - 0x80), k, 0x80, 0xBF⟩) bytes := by
  have hfits : lo ≤ b ∧ b ≤ hi := ⟨UInt8.le_iff_toNat_le.2 hlo, UInt8.le_iff_toNat_le.2 hhi⟩
  rw [chars, advance, if_pos hfits]
  rfl

theorem chars_last (hlo : lo.toNat ≤ b.toNat) (hhi : b.toNat ≤ hi.toNat) (bytes : List UInt8) :
    chars (some ⟨seen, bits, 0, lo, hi⟩) (b :: bytes) =
      Char.ofNat (bits * 64 + (b.toNat - 0x80)) :: chars none bytes := by
  have hfits : lo ≤ b ∧ b ≤ hi := ⟨UInt8.le_iff_toNat_le.2 hlo, UInt8.le_iff_toNat_le.2 hhi⟩
  rw [chars, advance, if_pos hfits]
  rfl

end Continuation

/-- A byte that may continue a character. -/
def Continues (b : UInt8) : Prop :=
  0x80 ≤ b.toNat ∧ b.toNat ≤ 0xBF

theorem chars_two {b₁ b₂ : UInt8} (hlo : 0xC2 ≤ b₁.toNat) (hhi : b₁.toNat < 0xE0)
    (h₂ : Continues b₂) (bytes : List UInt8) :
    chars none (b₁ :: b₂ :: bytes) =
      Char.ofNat ((b₁.toNat - 0xC0) * 64 + (b₂.toNat - 0x80)) :: chars none bytes := by
  rw [chars_of_lead (lead_of_two hlo hhi), chars_last]
  · exact h₂.1
  · exact h₂.2

theorem chars_three {b₁ b₂ b₃ : UInt8} (hlo : 0xE0 ≤ b₁.toNat) (hhi : b₁.toNat < 0xF0)
    (h₂ : Continues b₂) (hfirst : b₁.toNat = 0xE0 → 0xA0 ≤ b₂.toNat)
    (hsurrogate : b₁.toNat = 0xED → b₂.toNat ≤ 0x9F) (h₃ : Continues b₃) (bytes : List UInt8) :
    chars none (b₁ :: b₂ :: b₃ :: bytes) =
      Char.ofNat (((b₁.toNat - 0xE0) * 64 + (b₂.toNat - 0x80)) * 64 + (b₃.toNat - 0x80)) ::
        chars none bytes := by
  rw [chars_of_lead (lead_of_three hlo hhi), chars_more, chars_last]
  · exact h₃.1
  · exact h₃.2
  · split
    · exact hfirst ‹_›
    · exact h₂.1
  · split
    · exact hsurrogate ‹_›
    · exact h₂.2

theorem chars_four {b₁ b₂ b₃ b₄ : UInt8} (hlo : 0xF0 ≤ b₁.toNat) (hhi : b₁.toNat ≤ 0xF4)
    (h₂ : Continues b₂) (hfirst : b₁.toNat = 0xF0 → 0x90 ≤ b₂.toNat)
    (hlast : b₁.toNat = 0xF4 → b₂.toNat ≤ 0x8F) (h₃ : Continues b₃) (h₄ : Continues b₄)
    (bytes : List UInt8) :
    chars none (b₁ :: b₂ :: b₃ :: b₄ :: bytes) =
      Char.ofNat ((((b₁.toNat - 0xF0) * 64 + (b₂.toNat - 0x80)) * 64 + (b₃.toNat - 0x80)) * 64 +
        (b₄.toNat - 0x80)) :: chars none bytes := by
  rw [chars_of_lead (lead_of_four hlo hhi), chars_more, chars_more, chars_last]
  · exact h₄.1
  · exact h₄.2
  · exact h₃.1
  · exact h₃.2
  · split
    · exact hfirst ‹_›
    · exact h₂.1
  · split
    · exact hlast ‹_›
    · exact h₂.2

/-- The bytes of one character are read back as that character. -/
theorem chars_utf8EncodeChar (c : Char) (bytes : List UInt8) :
    chars none (String.utf8EncodeChar c ++ bytes) = c :: chars none bytes := by
  have hvalid : c.toNat < 0xD800 ∨ 0xDFFF < c.toNat ∧ c.toNat < 0x110000 := c.valid
  have hvalue {n : Nat} (h : n = c.toNat) : Char.ofNat n = c := by rw [h, Char.ofNat_toNat]
  have hbyte {n : Nat} (h : n < 256) : (UInt8.ofNat n).toNat = n := by
    rw [UInt8.toNat_ofNat', Nat.mod_eq_of_lt h]
  have hcontinues (n : Nat) : (UInt8.ofNat (n % 64 + 128)).toNat = n % 64 + 128 ∧
      Continues (UInt8.ofNat (n % 64 + 128)) := by
    have heq := hbyte (n := n % 64 + 128) (by omega)
    exact ⟨heq, by omega, by omega⟩
  obtain ⟨hlast, hlast'⟩ := hcontinues c.toNat
  obtain ⟨hthird, hthird'⟩ := hcontinues (c.toNat / 64)
  obtain ⟨hsecond, hsecond'⟩ := hcontinues (c.toNat / 4096)
  have hval : c.val.toNat = c.toNat := rfl
  simp only [String.utf8EncodeChar, hval]
  split
  · have hself := hbyte (n := c.toNat) (by omega)
    have hlow : (UInt8.ofNat c.toNat).toNat < 0x80 := by omega
    rw [List.singleton_append, chars, advance_of_lt sound_none hlow]
    exact congrArg (· :: chars none bytes) (hvalue hself)
  split
  · have hlead := hbyte (n := c.toNat / 64 % 32 + 192) (by omega)
    have hlo : 0xC2 ≤ (UInt8.ofNat (c.toNat / 64 % 32 + 192)).toNat := by omega
    have hhi : (UInt8.ofNat (c.toNat / 64 % 32 + 192)).toNat < 0xE0 := by omega
    rw [List.cons_append, List.singleton_append, chars_two hlo hhi hlast']
    exact congrArg (· :: chars none bytes) (hvalue (by omega))
  split
  · have hlead := hbyte (n := c.toNat / 4096 % 16 + 224) (by omega)
    have hlo : 0xE0 ≤ (UInt8.ofNat (c.toNat / 4096 % 16 + 224)).toNat := by omega
    have hhi : (UInt8.ofNat (c.toNat / 4096 % 16 + 224)).toNat < 0xF0 := by omega
    rw [List.cons_append, List.cons_append, List.singleton_append,
      chars_three hlo hhi hthird' (by omega) (by omega) hlast']
    exact congrArg (· :: chars none bytes) (hvalue (by omega))
  · have hlead := hbyte (n := c.toNat / 262144 % 8 + 240) (by omega)
    have hlo : 0xF0 ≤ (UInt8.ofNat (c.toNat / 262144 % 8 + 240)).toNat := by omega
    have hhi : (UInt8.ofNat (c.toNat / 262144 % 8 + 240)).toNat ≤ 0xF4 := by omega
    rw [List.cons_append, List.cons_append, List.cons_append, List.singleton_append,
      chars_four hlo hhi hsecond' (by omega) (by omega) hthird' hlast']
    exact congrArg (· :: chars none bytes) (hvalue (by omega))

/-- Text that is written in UTF-8 is read back. -/
theorem decodeLossy_encode (s : List Char) :
    decodeLossy (s.flatMap String.utf8EncodeChar) = s := by
  rw [decodeLossy_eq_chars]
  induction s with
  | nil => rfl
  | cons c s ih => rw [List.flatMap_cons, chars_utf8EncodeChar, ih]

end SuiteLint.Text.Utf8
