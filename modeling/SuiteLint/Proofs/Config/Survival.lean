import SuiteLint.Proofs.Config.Members
import SuiteLint.Proofs.Json.Limits
import SuiteLint.Proofs.Json.RoundTrip
import SuiteLint.Proofs.Text.Newline
import SuiteLint.Proofs.Text.Utf8

/-!
# Settings in any document

Bytes that are no text, text that is no document and documents that are no objects all leave the
defaults, and a member that is of no use leaves the default of its key. This holds within the limits
of reading: an integer with too many digits and containers too deep inside each other end a run,
whether or not they stand where a setting is expected.
-/

namespace SuiteLint

open Files

/-! ## Text past the limits -/

namespace Text.Utf8

theorem lead_of_ascii {c : Char} (h : c.toNat < 0x80) : lead c.toNat.toUInt8 = .single c := by
  have hbyte : c.toNat.toUInt8.toNat = c.toNat := by
    rw [Nat.toUInt8_eq, UInt8.toNat_ofNat']
    omega
  rw [lead_of_one (by omega), hbyte, Char.ofNat_toNat]

theorem foldl_step_ascii {s : List Char} (h : ∀ c ∈ s, c.toNat < 0x80) (position : Nat)
    (found : List Item) :
    (s.map fun c => c.toNat.toUInt8).foldl Reader.step ⟨position, found, none⟩ =
      ⟨position + s.length, (s.map Item.scalar).reverse ++ found, none⟩ := by
  induction s generalizing position found with
  | nil => rfl
  | cons c s ih =>
    have hstep : Reader.step ⟨position, found, none⟩ c.toNat.toUInt8 =
        ⟨position + 1, .scalar c :: found, none⟩ := by
      simp only [Reader.step, Reader.start, lead_of_ascii (h c List.mem_cons_self)]
    rw [List.map_cons, List.foldl_cons, hstep, ih fun d hd => h d (List.mem_cons_of_mem c hd)]
    simp [Nat.add_assoc, Nat.add_comm 1]

/-- Text of one byte for each character is read as it is. -/
theorem decode_ascii {s : List Char} (h : ∀ c ∈ s, c.toNat < 0x80) :
    decode (s.map fun c => c.toNat.toUInt8) = .ok s := by
  have hitems : items (s.map fun c => c.toNat.toUInt8) = s.map Item.scalar := by
    rw [items, foldl_step_ascii h]
    simp [Reader.finish]
  have hfaults : (s.map Item.scalar).findSome? Item.fault? = none := by
    simp [List.findSome?_eq_none_iff, Item.fault?]
  rw [decode, hitems, hfaults]
  simp [Item.toChar, Function.comp_def]

end Text.Utf8

namespace Json

theorem scalar_of_digits {c : Char} {s : List Char} (bound : Nat)
    (hdigits : ∀ d ∈ c :: s, d.isDigit = true) (hzero : c ≠ '0')
    (hlimit : Text.maxDigits < (c :: s).length) :
    scalar bound (c :: s) = .error (.digitLimit (c :: s).length) := by
  have hc : c.isDigit = true := hdigits c List.mem_cons_self
  have hwhole : wholeDigits? (c :: s) = some (c :: s, []) := by
    simp only [wholeDigits?, hzero, hc, ↓reduceIte]
    rw [List.takeWhile_eq_self_iff.2 hdigits, List.dropWhile_eq_nil_iff.2 hdigits]
  have hnumber : number (c :: s) = .error (.digitLimit (c :: s).length) := by
    unfold number
    split
    · exact absurd (List.cons.inj ‹_›).1 (ne_of_isDigit hc rfl)
    · rw [unsignedNumber, hwhole]
      simp only [fractionDigits, exponentPart?, List.isEmpty_nil, if_pos hlimit, ↓reduceIte]
  unfold scalar
  split
  · exact absurd (List.cons.inj ‹_›).1 (ne_of_isDigit hc rfl)
  · rw [find?_names_of_digit hc (by simp)]
    exact hnumber

/-- An integer with too many digits stops a reader. -/
theorem parse_of_digits [Room] {c : Char} {s : List Char} (hdigits : ∀ d ∈ c :: s, d.isDigit = true)
    (hzero : c ≠ '0') (hlimit : Text.maxDigits < (c :: s).length) :
    parse (c :: s) = .error (.digitLimit (c :: s).length) := by
  have hc : c.isDigit = true := hdigits c List.mem_cons_self
  have hvalue : value (2 * (c :: s).length + 2) Room.containers (skipLayout (c :: s)) =
      .error (.digitLimit (c :: s).length) := by
    rw [skipLayout_cons (isLayout_of_isDigit hc), value_of_scalar,
      scalar_of_digits _ hdigits hzero hlimit]
    · simpa using ne_of_isDigit hc rfl
    · simpa using ne_of_isDigit hc rfl
  have hdocument : document (c :: s) = .error (.digitLimit (c :: s).length) := by
    unfold document
    split
    · exact absurd (List.cons.inj ‹_›).1 (ne_of_isDigit hc rfl)
    · rw [hvalue]
  rw [parse, hdocument]

theorem skipLayout_brackets (n : Nat) :
    skipLayout (List.replicate (n + 1) '[') = '[' :: List.replicate n '[' := by
  rw [List.replicate_succ, skipLayout_cons rfl]

/-- Brackets that stay open are read until there is no room for one more. -/
theorem value_of_brackets {bound room n : Nat} (hbound : 2 * room < bound) (hn : room ≤ n) :
    value bound room ('[' :: List.replicate n '[') = .error (.tooDeep .array) := by
  obtain ⟨bound, rfl⟩ : ∃ b, bound = b + 1 := ⟨bound - 1, by omega⟩
  -- Each bracket takes one container of the room and two steps: for the array and for its items.
  induction room generalizing bound n with
  | zero => rfl
  | succ room ih =>
    obtain ⟨bound, rfl⟩ : ∃ b, bound = b + 2 := ⟨bound - 2, by omega⟩
    obtain ⟨n, rfl⟩ : ∃ m, n = m + 1 := ⟨n - 1, by omega⟩
    have hitems : items (bound + 2) room ('[' :: List.replicate n '[') =
        .error (.tooDeep .array) := by
      rw [items, ih (by omega) bound (by omega)]
    rw [value, skipLayout_brackets]
    split
    · exact absurd (List.cons.inj ‹_›).1 (by decide)
    · rw [hitems]

theorem parse_of_brackets [Room] {n : Nat} (h : Room.containers < n) :
    parse (List.replicate n '[') = .error (.tooDeep .array) := by
  obtain ⟨n, rfl⟩ : ∃ m, n = m + 1 := ⟨n - 1, by omega⟩
  have hvalue : value (2 * (List.replicate (n + 1) '[').length + 2) Room.containers
      (skipLayout (List.replicate (n + 1) '[')) = .error (.tooDeep .array) := by
    rw [List.length_replicate, skipLayout_brackets]
    exact value_of_brackets (by omega) (by omega)
  have hdocument : document (List.replicate (n + 1) '[') = .error (.tooDeep .array) := by
    unfold document
    split
    · exact absurd (List.cons.inj ‹_›).1 (by decide)
    · rw [hvalue]
  rw [parse, hdocument]

end Json

namespace Config

/-- A document leaves settings, whatever it holds: the defaults if it holds no object, and else
those that its members settle one by one. -/
def Survives [Room] (bytes : List UInt8) : Prop :=
  ∀ fs path, hasNull (Path.tidy path) = false → fs.lookup (Path.tidy path) = .ok (.file bytes) →
    ∃ c notes, load fs path = .ok (c, notes) ∧ c.SettledBy bytes ∧
      (¬ HoldsObject bytes → c = default)

/-- Bytes that hold text keep its limits. -/
def KeepsLimits (bytes : List UInt8) : Prop :=
  ∀ text, Text.Utf8.decode bytes = .ok text → Json.KeepsLimits (Text.unifyNewlines text)

theorem KeepsLimits.exists_ofBytes [StartRoom] {bytes : List UInt8} (h : KeepsLimits bytes)
    (path : String) :
    ∃ c notes, ofBytes path bytes = .ok (c, notes) := by
  unfold ofBytes
  cases hdecode : Text.Utf8.decode bytes with
  | error fault => exact ⟨_, _, rfl⟩
  | ok text =>
    rcases (h text hdecode).parse with ⟨v, hparse⟩ | ⟨complaint, before, hparse⟩
    · simp only [hparse]
      by_cases hobject : ∃ ms, v = .object ms
      · obtain ⟨ms, rfl⟩ := hobject
        exact ⟨_, ofJson_object path ms⟩
      · exact ⟨_, ofJson_of_ne_object path (not_exists.1 hobject)⟩
    · simp only [hparse]
      exact ⟨_, _, rfl⟩

/-- Within the limits of reading, no document ends a run. -/
theorem survives_of_keepsLimits [StartRoom] {bytes : List UInt8} (h : KeepsLimits bytes) :
    Survives bytes := by
  intro fs path hnull hlookup
  obtain ⟨c, notes, hread⟩ := h.exists_ofBytes (Path.tidy path)
  refine ⟨c, notes, ?_, settledBy_of_ofBytes hread, fun hobject => ?_⟩
  · rw [load_of_file hnull hlookup, hread]
  · exact (ofBytes_cases hread).elim (fun ⟨text, ms, hdecode, hparse, _⟩ =>
      absurd ⟨text, ms, hdecode, hparse⟩ hobject) And.left

/-- Settings of the wrong kinds and out of range, with brackets inside strings. -/
def mixedKinds : List Char :=
  "\x7b\"exclude\": \"[[\", \"include_js\": 1, \"jobs\": 0,\n".toList ++
    " \"fail_under\": 11, \"[\": [\x7b\x7d, null, 1.5e3]\x7d\n".toList

/-- Each of the members falls back on its own. -/
theorem survives_of_keepsLimits_mixed :
    ∃ c notes, load (settingsFile (mixedKinds.map fun c => c.toNat.toUInt8)) "c.json" =
        .ok (c, notes) ∧ c.SettledBy (mixedKinds.map fun c => c.toNat.toUInt8) := by
  have hascii : (mixedKinds.all fun c => c.toNat < 0x80) = true := by decide +kernel
  have hdecode : Text.Utf8.decode (mixedKinds.map fun c => c.toNat.toUInt8) = .ok mixedKinds :=
    Text.Utf8.decode_ascii fun c hc => by simpa using List.all_eq_true.1 hascii c hc
  have hlimits : KeepsLimits (mixedKinds.map fun c => c.toNat.toUInt8) := by
    intro text htext
    rw [← Except.ok.inj (hdecode.symm.trans htext), Text.unifyNewlines_eq_self (by decide +kernel)]
    exact Json.keepsLimits_of_length_le (by decide +kernel) (by decide +kernel)
  obtain ⟨c, notes, hload, hsettled, -⟩ :=
    survives_of_keepsLimits hlimits (settingsFile _) "c.json" rfl rfl
  exact ⟨c, notes, hload, hsettled⟩

/-- Text that a reader stops in for a limit ends a run. -/
theorem not_survives_of_stop [Room] {s : List Char} (h : ∀ c ∈ s, c.toNat < 0x80 ∧ c ≠ '\r')
    (hstop : (∃ digits, Json.parse s = .error (.digitLimit digits)) ∨
      ∃ c, Json.parse s = .error (.tooDeep c)) :
    ¬ Survives (s.map fun c => c.toNat.toUInt8) := by
  have hdecode := Text.Utf8.decode_ascii fun c hc => (h c hc).1
  have hunify : Text.unifyNewlines s = s :=
    Text.unifyNewlines_eq_self fun hmem => (h '\r' hmem).2 rfl
  have habort : ∃ abort, ofBytes (Path.tidy "c.json") (s.map fun c => c.toNat.toUInt8) =
      .error abort := by
    rw [ofBytes, hdecode]
    simp only [hunify]
    rcases hstop with ⟨digits, hparse⟩ | ⟨c, hparse⟩
    · exact ⟨.digitLimit digits, by rw [hparse]⟩
    · exact ⟨.tooDeep c, by rw [hparse]⟩
  intro hsurvives
  obtain ⟨c, notes, hload, -⟩ := hsurvives (settingsFile _) "c.json" rfl rfl
  obtain ⟨abort, hread⟩ := habort
  rw [load_of_file rfl rfl, hread] at hload
  exact absurd hload nofun

/-- A number of 4301 digits, which is no object, ends a run, and so do 3000 brackets that stay
open. -/
theorem not_survives_digits_brackets :
    ¬ Survives (List.replicate 4301 0x31) ∧ ¬ Survives (List.replicate 3000 0x5B) := by
  constructor
  · have hparse : Json.parse (List.replicate 4301 '1') = .error (.digitLimit 4301) := by
      rw [List.replicate_succ, Json.parse_of_digits, ← List.replicate_succ, List.length_replicate]
      · rw [← List.replicate_succ]
        exact fun d hd => List.eq_of_mem_replicate hd ▸ rfl
      · decide
      · rw [← List.replicate_succ, List.length_replicate]
        decide
    have hstop := not_survives_of_stop
      (fun c hc => List.eq_of_mem_replicate hc ▸ (by decide)) (Or.inl ⟨_, hparse⟩)
    rwa [List.map_replicate] at hstop
  · have hparse : Json.parse (List.replicate 3000 '[') = .error (.tooDeep .array) :=
      Json.parse_of_brackets (by decide)
    have hstop := not_survives_of_stop
      (fun c hc => List.eq_of_mem_replicate hc ▸ (by decide)) (Or.inr ⟨_, hparse⟩)
    rwa [List.map_replicate] at hstop

end Config

end SuiteLint
