import SuiteLint.Proofs.Json.RoundTrip

/-!
# What a document is made of

A document holds printable ASCII and line ends only: whatever else stands in a string is escaped.
-/

namespace SuiteLint.Json

/-- A printable character of ASCII, or the end of a line. -/
def IsInk (c : Char) : Prop :=
  c = '\n' ∨ ' ' ≤ c ∧ c ≤ '~'

instance : DecidablePred IsInk := fun _ => inferInstanceAs (Decidable (_ ∨ _))

theorem isInk_of_all {s : List Char} (h : s.all (fun c => decide (IsInk c)) = true) :
    ∀ c ∈ s, IsInk c :=
  fun c hc => of_decide_eq_true (List.all_eq_true.1 h c hc)

theorem isInk_hexDigit : ∀ n < 16, IsInk (Text.hexDigit n) := by
  decide

theorem isInk_of_mem_unitEscape {n : Nat} {c : Char} (h : c ∈ unitEscape n) : IsInk c := by
  have hdigit : ∀ m, IsInk (Text.hexDigit (m % 16)) :=
    fun m => isInk_hexDigit _ (Nat.mod_lt m (by decide))
  have hmem : c ∈ ['\\', 'u', Text.hexDigit (n / 16 / 16 / 16 % 16),
    Text.hexDigit (n / 16 / 16 % 16), Text.hexDigit (n / 16 % 16), Text.hexDigit (n % 16)] := h
  simp only [List.mem_cons, List.not_mem_nil, or_false] at hmem
  rcases hmem with rfl | rfl | rfl | rfl | rfl | rfl
  · decide
  · decide
  · exact hdigit _
  · exact hdigit _
  · exact hdigit _
  · exact hdigit _

theorem isInk_of_mem_escapeChar {c d : Char} (h : d ∈ escapeChar c) : IsInk d := by
  have hpair : ∀ {a b : Char}, d ∈ [a, b] → IsInk a → IsInk b → IsInk d := by
    intro a b hmem ha hb
    rcases List.mem_pair.1 hmem with rfl | rfl
    · exact ha
    · exact hb
  unfold escapeChar at h
  split at h
  · exact hpair h (by decide) (by decide)
  split at h
  · exact hpair h (by decide) (by decide)
  split at h
  · exact hpair h (by decide) (by decide)
  split at h
  · exact hpair h (by decide) (by decide)
  split at h
  · exact hpair h (by decide) (by decide)
  split at h
  · exact hpair h (by decide) (by decide)
  split at h
  · exact hpair h (by decide) (by decide)
  split at h
  · rename_i hplain
    rw [List.mem_singleton.1 h]
    exact Or.inr ⟨hplain.1, Nat.le_of_lt_succ hplain.2⟩
  split at h
  · exact isInk_of_mem_unitEscape h
  · rcases List.mem_append.1 h with h | h <;> exact isInk_of_mem_unitEscape h

theorem isInk_writeString (s : String) : ∀ c ∈ writeString (symbols s), IsInk c := by
  intro c hc
  rw [writeString, List.mem_append, List.mem_cons, List.mem_flatMap, List.mem_singleton] at hc
  rcases hc with (rfl | ⟨symbol, hsymbol, hc⟩) | rfl
  · decide
  · obtain ⟨d, -, rfl⟩ := List.mem_map.1 hsymbol
    exact isInk_of_mem_escapeChar hc
  · decide

theorem isInk_newLine (level : Nat) : ∀ c ∈ newLine level, IsInk c := by
  intro c hc
  rcases List.mem_cons.1 hc with rfl | hc
  · exact Or.inl rfl
  · rw [List.eq_of_mem_replicate hc]
    decide

theorem isInk_toString (n : Int) : ∀ c ∈ (toString n).toList, IsInk c := by
  intro c hc
  rw [toList_toString, List.mem_append] at hc
  rcases hc with hc | hc
  · split at hc
    · rw [List.mem_singleton.1 hc]
      decide
    · exact absurd hc List.not_mem_nil
  · have hdigit := isDigit_of_mem_toDigits hc
    rw [Char.isDigit_iff_toNat] at hdigit
    refine Or.inr ⟨?_, ?_⟩
    · exact Nat.le_trans (by decide) hdigit.1
    · exact Nat.le_trans hdigit.2 (by decide)

theorem isInk_writeItems {level : Nat} {vs : List Value}
    (h : ∀ v ∈ vs, ∀ c ∈ write level v, IsInk c) : ∀ c ∈ writeItems level vs, IsInk c := by
  induction vs with
  | nil => exact nofun
  | cons v vs ih =>
    simp only [writeItems, List.cons_append, List.forall_mem_cons, List.forall_mem_append]
    exact ⟨by decide, ⟨isInk_newLine level, h v List.mem_cons_self⟩,
      ih fun w hw => h w (List.mem_cons_of_mem v hw)⟩

theorem isInk_writeMembers {level : Nat} {ms : List (String × Value)}
    (h : ∀ m ∈ ms, ∀ c ∈ write level m.2, IsInk c) :
    ∀ c ∈ writeMembers level (ms.map fun m => (symbols m.1, m.2)), IsInk c := by
  induction ms with
  | nil => exact nofun
  | cons m ms ih =>
    simp only [List.map_cons, writeMembers, List.cons_append, List.forall_mem_cons,
      List.forall_mem_append]
    exact ⟨by decide, ⟨⟨isInk_newLine level, isInk_writeString m.1⟩, by decide, by decide,
      h m List.mem_cons_self⟩, ih fun n hn => h n (List.mem_cons_of_mem m hn)⟩

/-- A document is made of printable ASCII and line ends only. -/
theorem Plain.isInk {v : Value} (h : Plain v) (level : Nat) :
    ∀ c ∈ write level v, IsInk c := by
  induction h generalizing level with
  | null =>
    rw [write]
    exact isInk_of_all (by decide)
  | bool b =>
    rw [write]
    cases b <;> exact isInk_of_all (by decide)
  | int n => exact isInk_toString n
  | string s => exact isInk_writeString s
  | @array items h ih =>
    cases items with
    | nil =>
      rw [write]
      exact isInk_of_all (by decide)
    | cons v vs =>
      have hitems : ∀ c ∈ writeItems (level + 1) vs, IsInk c :=
        isInk_writeItems fun w hw => ih w (List.mem_cons_of_mem v hw) (level + 1)
      simp only [write, List.cons_append, List.forall_mem_cons, List.forall_mem_append,
        and_assoc]
      exact ⟨by decide, isInk_newLine _, ih v List.mem_cons_self _, hitems, isInk_newLine _,
        by decide, List.forall_mem_nil _⟩
  | @record members keys h ih =>
    cases members with
    | nil =>
      rw [Value.record, List.map_nil, write]
      exact isInk_of_all (by decide)
    | cons m ms =>
      have hmembers := isInk_writeMembers fun n hn =>
        ih n (List.mem_cons_of_mem m hn) (level + 1)
      simp only [Value.record, List.map_cons, write, List.cons_append, List.forall_mem_cons,
        List.forall_mem_append, and_assoc]
      exact ⟨by decide, isInk_newLine _, isInk_writeString m.1, by decide, by decide,
        ih m List.mem_cons_self _, hmembers, isInk_newLine _, by decide, List.forall_mem_nil _⟩

theorem Kept.isInk {room : Nat} {v : Value} (h : Kept room v) (level : Nat) :
    ∀ c ∈ write level v, IsInk c :=
  h.plain.isInk level

end SuiteLint.Json
