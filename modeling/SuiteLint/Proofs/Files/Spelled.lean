import Mathlib.Data.List.Infix
import SuiteLint.Files.Spelled
import SuiteLint.Proofs.Text.Split
import SuiteLint.Proofs.Text.Utf8

/-!
# Which paths can be handed over

A path can be handed over exactly when each of its symbols has bytes and none is the null character.
The text that the system takes it for has no null character then, and a path that is text is taken
for that text.
-/

namespace SuiteLint.Files

open Json (Symbol)

/-- A path that can be handed over to the system. -/
structure Encodable (path : List Symbol) : Prop where
  bytes : ∀ s ∈ path, (symbolBytes? s).isSome = true
  noNull : .char '\x00' ∉ path

theorem encodingFault?_eq_none_iff {path : List Symbol} :
    encodingFault? path = none ↔ ∀ s ∈ path, (symbolBytes? s).isSome = true := by
  simp [encodingFault?]

/-- The halves of a path as it is opened stand in the path. -/
theorem half_mem_of_openedAs {path : List Symbol} {unit : Nat} (h : .half unit ∈ openedAs path) :
    .half unit ∈ path := by
  have hslash : Symbol.char '/' ∉ [Symbol.half unit] := by simp
  rcases List.mem_append.1 h with htext | hnames
  · obtain ⟨c, -, hc⟩ := List.mem_map.1 htext
    exact absurd hc nofun
  · rw [← List.singleton_infix_iff] at hnames ⊢
    rw [Text.infix_iff_splitOn hslash]
    by_cases hnone : ((path.splitOn (.char '/')).filter
        fun name => name ≠ [] ∧ name ≠ [.char '.']) = []
    · rw [hnone, List.singleton_infix_iff] at hnames
      exact absurd hnames List.not_mem_nil
    · obtain ⟨name, hname, hinfix⟩ := (Text.infix_intercalate_iff hslash hnone).1 hnames
      exact ⟨name, (List.mem_filter.1 hname).1, hinfix⟩

/-- A path that has bytes has bytes as it is opened. -/
theorem encodingFault?_openedAs {path : List Symbol}
    (h : ∀ s ∈ path, (symbolBytes? s).isSome = true) : encodingFault? (openedAs path) = none := by
  rw [encodingFault?_eq_none_iff]
  intro s hs
  cases s with
  | char c => rfl
  | half unit => exact h _ (half_mem_of_openedAs hs)

/-- A path is handed over exactly when it can be. -/
theorem handOver_ok_iff {path : List Symbol} :
    (∃ taken, handOver path = .ok taken) ↔ Encodable path := by
  unfold handOver
  cases hfault : encodingFault? path with
  | some fault =>
    refine ⟨nofun, fun h => ?_⟩
    rw [encodingFault?_eq_none_iff.2 h.bytes] at hfault
    exact absurd hfault nofun
  | none =>
    have hbytes := encodingFault?_eq_none_iff.1 hfault
    by_cases hnull : .char '\x00' ∈ path
    · have hcontains := List.contains_iff_mem.2 hnull
      simp only [hcontains, ↓reduceIte]
      exact ⟨nofun, fun h => absurd hnull h.noNull⟩
    · have hcontains : path.contains (.char '\x00') = false := by simpa using hnull
      simp only [hcontains, Bool.false_eq_true, ↓reduceIte]
      refine ⟨fun _ => ⟨hbytes, hnull⟩, fun _ => ?_⟩
      split
      · exact ⟨_, rfl⟩
      · split
        · exact ⟨_, rfl⟩
        · exact ⟨_, rfl⟩

/-! ## The null character -/

/-- Only the null character is encoded with a zero. -/
theorem eq_null_of_zero_mem {c : Char} (h : 0 ∈ String.utf8EncodeChar c) : c = '\x00' := by
  have hzero {n : Nat} (hlt : n < 256) (heq : 0 = UInt8.ofNat n) : n = 0 := by
    have hn : (UInt8.ofNat n).toNat = n := by
      rw [UInt8.toNat_ofNat', Nat.mod_eq_of_lt hlt]
    rw [← hn, ← heq]
    rfl
  have hval : c.val.toNat = c.toNat := rfl
  simp only [String.utf8EncodeChar, hval] at h
  split at h
  · have hc := hzero (by omega) (List.mem_singleton.1 h)
    rw [← Char.ofNat_toNat c, hc]
  -- Every byte of a longer form is at least 128.
  · exfalso
    have hbyte {n : Nat} (hlt : n < 256) (hge : 128 ≤ n) : 0 ≠ UInt8.ofNat n := fun heq => by
      have := hzero hlt heq
      omega
    have hlater (n : Nat) : 0 ≠ UInt8.ofNat (n % 64 + 128) := hbyte (by omega) (by omega)
    split at h
    · simp only [List.mem_cons, hlater, List.not_mem_nil, or_false] at h
      exact hbyte (by omega) (by omega) h
    split at h
    · simp only [List.mem_cons, hlater, List.not_mem_nil, or_false] at h
      exact hbyte (by omega) (by omega) h
    · simp only [List.mem_cons, hlater, List.not_mem_nil, or_false] at h
      exact hbyte (by omega) (by omega) h

theorem eq_null_of_zero_mem_bytes {s : Symbol} (h : 0 ∈ (symbolBytes? s).getD []) :
    s = .char '\x00' := by
  cases s with
  | char c => rw [eq_null_of_zero_mem h]
  | half unit =>
    exfalso
    rw [symbolBytes?] at h
    split at h
    · rename_i hbyte
      have hunit := congrArg UInt8.toNat (List.mem_singleton.1 h)
      rw [UInt8.toNat_ofNat', Nat.mod_eq_of_lt (by omega)] at hunit
      have hnot : (0 : UInt8).toNat = 0 := rfl
      omega
    · exact absurd h List.not_mem_nil

theorem decode_eq_decodeLossy {bytes : List UInt8} {text : List Char}
    (h : Text.Utf8.decode bytes = .ok text) : text = Text.Utf8.decodeLossy bytes := by
  unfold Text.Utf8.decode at h
  dsimp only at h
  split at h
  · exact absurd h nofun
  · exact (Except.ok.inj h).symm

/-- The text that a path is taken for has no null character. -/
theorem hasNull_of_handOver {path : List Symbol} {text : String}
    (h : handOver path = .ok (some text)) : hasNull text = false := by
  have hpath : .char '\x00' ∉ path := (handOver_ok_iff.1 ⟨_, h⟩).noNull
  rw [hasNull, ← Bool.not_eq_true, List.contains_iff_mem]
  intro hmem
  unfold handOver at h
  split at h
  · exact absurd h nofun
  split at h
  · exact absurd h nofun
  split at h
  · rename_i hchars
    rw [← Option.some.inj (Except.ok.inj h), Json.plainText, String.toList_ofList] at hmem
    obtain ⟨s, hs, hnull⟩ := List.mem_map.1 hmem
    cases s with
    | char c =>
      have hc : c = '\x00' := hnull
      exact hpath (hc ▸ hs)
    | half unit => exact absurd (List.all_eq_true.1 hchars _ hs) (by simp [Symbol.half?])
  · split at h
    · rename_i chars hdecode
      rw [← Option.some.inj (Except.ok.inj h), String.toList_ofList,
        decode_eq_decodeLossy hdecode] at hmem
      have hzero := Text.Utf8.mem_of_mem_decodeLossy (by decide) hmem
      obtain ⟨s, hs, hbyte⟩ := List.mem_flatMap.1 hzero
      exact hpath (eq_null_of_zero_mem_bytes hbyte ▸ hs)
    · exact absurd h nofun

/-! ## Paths that are text -/

theorem plainText_symbols (text : String) : Json.plainText (Json.symbols text) = text := by
  simp [Json.plainText, Json.symbols, Symbol.char?, Function.comp_def]

/-- A string that may hold halves is compared with a name through its text. -/
theorem plainText_eq_iff {s : List Symbol} {name : String} (h : hasNull name = false) :
    Json.plainText s = name ↔ s = Json.symbols name := by
  constructor
  · intro heq
    have htext : s.map (fun symbol => symbol.char?.getD '\x00') = name.toList := by
      rw [← heq, Json.plainText, String.toList_ofList]
    have hnull : '\x00' ∉ name.toList := by simpa [hasNull] using h
    have hchars : ∀ symbol ∈ s, Symbol.char (symbol.char?.getD '\x00') = symbol := by
      intro symbol hsymbol
      cases symbol with
      | char c => rfl
      | half unit => exact absurd (htext ▸ List.mem_map_of_mem hsymbol) hnull
    rw [Json.symbols, ← htext, List.map_map]
    exact ((List.map_congr_left hchars).trans (List.map_id' s)).symm
  · intro heq
    rw [heq, plainText_symbols]

theorem handOver_symbols (text : String) : handOver (Json.symbols text) =
    if hasNull text then .error .nullCharacter else .ok (some text) := by
  have hfault : encodingFault? (Json.symbols text) = none := by
    rw [encodingFault?_eq_none_iff]
    intro s hs
    obtain ⟨c, -, rfl⟩ := List.mem_map.1 hs
    rfl
  have hchars : (Json.symbols text).all (·.half?.isNone) = true := by
    simp [Json.symbols, Symbol.half?]
  have hnull : (Json.symbols text).contains (.char '\x00') = hasNull text := by
    rw [hasNull, Bool.eq_iff_iff, List.contains_iff_mem, List.contains_iff_mem]
    simp [Json.symbols]
  unfold handOver
  simp only [hfault, hnull, hchars, plainText_symbols, ↓reduceIte]

end SuiteLint.Files
