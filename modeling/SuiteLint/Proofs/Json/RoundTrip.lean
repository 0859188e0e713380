import Mathlib.Data.List.Basic
import Mathlib.Data.List.TakeWhile
import SuiteLint.Json.Reader
import SuiteLint.Proofs.Json.Scalar

/-!
# Documents read back

A document that is written is read back as the value it was written for. This is said of values
without binary numbers, whose integers have no more digits than a reader takes, whose objects name
each key once and whose containers do not lie too deep. A reader that is given as many steps as the
text has characters has enough of them.
-/

namespace SuiteLint.Json

/-- Values without binary numbers, whose strings are texts and whose objects name each key once. -/
inductive Plain : Value → Prop
  | null : Plain .null
  | bool (b : Bool) : Plain (.bool b)
  | int (n : Int) : Plain (.int n)
  | string (s : String) : Plain (.string s)
  | array {items : List Value} (h : ∀ v ∈ items, Plain v) : Plain (.array items)
  | record {members : List (String × Value)} (keys : (members.map Prod.fst).Nodup)
    (h : ∀ m ∈ members, Plain m.2) : Plain (.record members)

/-- Values that a document keeps, with room for the given number of containers inside each other. -/
inductive Kept : (room : Nat) → Value → Prop
  | null (room : Nat) : Kept room .null
  | bool (room : Nat) (b : Bool) : Kept room (.bool b)
  | int (room : Nat) {n : Int} (h : n.natAbs < 10 ^ Text.maxDigits) : Kept room (.int n)
  | string (room : Nat) (s : String) : Kept room (.string s)
  | array {room : Nat} {items : List Value} (h : ∀ v ∈ items, Kept room v) :
    Kept (room + 1) (.array items)
  | record {room : Nat} {members : List (String × Value)} (keys : (members.map Prod.fst).Nodup)
    (h : ∀ m ∈ members, Kept room m.2) : Kept (room + 1) (.record members)

theorem Kept.plain {room : Nat} {v : Value} (h : Kept room v) : Plain v := by
  induction h with
  | null => exact .null
  | bool _ b => exact .bool b
  | int => exact .int _
  | string _ s => exact .string s
  | array _ ih => exact .array ih
  | record keys _ ih => exact .record keys ih

/-! ## Layout -/

theorem skipLayout_newLine (level : Nat) (s : List Char) :
    skipLayout (newLine level ++ s) = skipLayout s := by
  have hall : ∀ c ∈ newLine level, isLayout c = true := by
    intro c hc
    rcases List.mem_cons.1 hc with rfl | hc
    · rfl
    · rw [List.eq_of_mem_replicate hc]
      rfl
  exact List.dropWhile_append_of_pos hall

theorem skipLayout_cons {c : Char} (h : isLayout c = false) (s : List Char) :
    skipLayout (c :: s) = c :: s :=
  List.dropWhile_cons_of_neg (by simp [h])

theorem endsNumber_newLine (level : Nat) (s : List Char) : EndsNumber (newLine level ++ s) := by
  intro c hc
  obtain rfl : '\n' = c := Option.some.inj hc
  decide

theorem endsNumber_comma (s : List Char) : EndsNumber (',' :: s) := by
  intro c hc
  obtain rfl : ',' = c := Option.some.inj hc
  decide

theorem isLayout_of_isDigit {c : Char} (h : c.isDigit = true) : isLayout c = false := by
  rw [← Bool.not_eq_true]
  intro hlayout
  simp only [isLayout, Bool.or_eq_true, beq_iff_eq] at hlayout
  rcases hlayout with ((heq | heq) | heq) | heq <;> exact ne_of_isDigit h rfl heq

/-- A value starts with a character that neither closes a container nor belongs to the layout. -/
theorem Kept.exists_write {room : Nat} {v : Value} (h : Kept room v) (level : Nat) :
    ∃ c cs, write level v = c :: cs ∧ isLayout c = false ∧ c ≠ ']' ∧ c ≠ '\uFEFF' := by
  cases h with
  | null => exact ⟨_, _, rfl, by decide⟩
  | bool _ b => cases b <;> exact ⟨_, _, rfl, by decide⟩
  | @int _ n =>
    obtain ⟨c, cs, heq, hc⟩ := exists_toString n
    refine ⟨c, cs, heq, ?_⟩
    rcases hc with rfl | hc
    · decide
    · exact ⟨isLayout_of_isDigit hc, ne_of_isDigit hc rfl, ne_of_isDigit hc rfl⟩
  | string _ s => exact ⟨_, _, rfl, by decide⟩
  | @array _ items => cases items <;> exact ⟨_, _, rfl, by decide⟩
  | @record _ members => cases members <;> exact ⟨_, _, rfl, by decide⟩

theorem Kept.skipLayout_write {room : Nat} {v : Value} (h : Kept room v) (level : Nat)
    (rest : List Char) : skipLayout (write level v ++ rest) = write level v ++ rest := by
  obtain ⟨c, cs, heq, hc, -⟩ := h.exists_write level
  rw [heq, List.cons_append, skipLayout_cons hc]

/-! ## Values -/

/-- A value is read back wherever it is written, if the reader is given a step for each character. -/
def Reads (room : Nat) (v : Value) : Prop :=
  ∀ level rest bound, (write level v).length ≤ bound → EndsNumber rest →
    value bound room (write level v ++ rest) = .ok (v, rest)

theorem value_of_scalar {bound room : Nat} {s : List Char} (harray : s.head? ≠ some '[')
    (hobject : s.head? ≠ some '\x7b') : value (bound + 1) room s = scalar bound s := by
  unfold value
  split <;> simp_all

theorem value_of_items {bound room : Nat} {s rest : List Char} {vs : List Value}
    (hs : ∀ s', skipLayout s ≠ ']' :: s')
    (h : items bound room (skipLayout s) = .ok (vs, rest)) :
    value (bound + 1) (room + 1) ('[' :: s) = .ok (.array vs, rest) := by
  rw [value]
  split
  · rename_i s' heq
    exact absurd heq (hs s')
  · rw [h]

theorem value_of_members {bound room : Nat} {s rest : List Char}
    {ms : List (List Symbol × Value)} (hs : ∀ s', skipLayout s ≠ '\x7d' :: s')
    (h : members bound room (skipLayout s) = .ok (ms, rest)) :
    value (bound + 1) (room + 1) ('\x7b' :: s) = .ok (.object (distinct ms), rest) := by
  rw [value]
  split
  · rename_i s' heq
    exact absurd heq (hs s')
  · rw [h]

/-- The items of an array are read one after the other, up to the bracket after them. -/
theorem items_write {room : Nat} {v : Value} {vs : List Value} (hkept : ∀ w ∈ v :: vs, Kept room w)
    (hreads : ∀ w ∈ v :: vs, Reads room w) (level outer : Nat) (rest : List Char) (bound : Nat)
    (hbound : (write level v).length + (writeItems level vs).length < bound) :
    items bound room (write level v ++ (writeItems level vs ++ (newLine outer ++ ']' :: rest))) =
      .ok (v :: vs, rest) := by
  induction vs generalizing v bound with
  | nil =>
    obtain ⟨bound, rfl⟩ : ∃ b, bound = b + 1 := ⟨bound - 1, by omega⟩
    have hvalue := hreads v List.mem_cons_self level (newLine outer ++ ']' :: rest) bound
      (by omega) (endsNumber_newLine outer _)
    rw [items, writeItems, List.nil_append, hvalue]
    simp only [skipLayout_newLine, skipLayout_cons (show isLayout ']' = false from rfl)]
  | cons w vs ih =>
    obtain ⟨bound, rfl⟩ : ∃ b, bound = b + 1 := ⟨bound - 1, by omega⟩
    have hlength : (writeItems level (w :: vs)).length =
        (newLine level).length + 1 + (write level w).length + (writeItems level vs).length := by
      simp only [writeItems, List.length_append, List.length_cons]
    have hvalue := hreads v List.mem_cons_self level
      (writeItems level (w :: vs) ++ (newLine outer ++ ']' :: rest)) bound (by omega)
      (endsNumber_comma _)
    have hrest := ih (fun x hx => hkept x (List.mem_cons_of_mem v hx))
      (fun x hx => hreads x (List.mem_cons_of_mem v hx)) bound (by omega)
    have hw : Kept room w := hkept w (by simp)
    rw [items, hvalue]
    simp only [writeItems, List.cons_append, List.append_assoc,
      skipLayout_cons (show isLayout ',' = false from rfl), skipLayout_newLine,
      hw.skipLayout_write, hrest]

/-- The members of an object are read one after the other, up to the brace after them. -/
theorem members_write {room : Nat} {m : String × Value} {ms : List (String × Value)}
    (hkept : ∀ n ∈ m :: ms, Kept room n.2) (hreads : ∀ n ∈ m :: ms, Reads room n.2)
    (level outer : Nat) (rest : List Char) (bound : Nat)
    (hbound : (writeString (symbols m.1)).length + (write level m.2).length +
      (writeMembers level (ms.map fun m => (symbols m.1, m.2))).length < bound) :
    members bound room (writeString (symbols m.1) ++ (':' :: ' ' :: (write level m.2 ++
      (writeMembers level (ms.map fun m => (symbols m.1, m.2)) ++
        (newLine outer ++ '\x7d' :: rest))))) =
      .ok ((m :: ms).map fun m => (symbols m.1, m.2), rest) := by
  have hcolon : ∀ s, skipLayout (':' :: s) = ':' :: s := skipLayout_cons rfl
  have hspace : ∀ s, skipLayout (' ' :: s) = skipLayout s := fun s => rfl
  have hkey := length_lt_length_writeString m.1
  have hm : Kept room m.2 := hkept m List.mem_cons_self
  obtain ⟨bound, rfl⟩ : ∃ b, bound = b + 1 := ⟨bound - 1, by omega⟩
  induction ms generalizing m bound with
  | nil =>
    have hvalue := hreads m List.mem_cons_self level (newLine outer ++ '\x7d' :: rest) bound
      (by omega) (endsNumber_newLine outer _)
    have hbrace : ∀ s, skipLayout ('\x7d' :: s) = '\x7d' :: s := skipLayout_cons rfl
    rw [List.map_nil, writeMembers, List.nil_append, writeString_append, members,
      string_write m.1 _ (by omega)]
    simp only [hcolon, hspace, hm.skipLayout_write, hvalue, skipLayout_newLine, hbrace,
      List.map_cons, List.map_nil]
  | cons n ms ih =>
    have hlength : (writeMembers level ((n :: ms).map fun m => (symbols m.1, m.2))).length =
        (newLine level).length + 3 + (writeString (symbols n.1)).length + (write level n.2).length +
          (writeMembers level (ms.map fun m => (symbols m.1, m.2))).length := by
      simp only [List.map_cons, writeMembers, List.length_append, List.length_cons]
      omega
    have hvalue := hreads m List.mem_cons_self level
      (writeMembers level ((n :: ms).map fun m => (symbols m.1, m.2)) ++
        (newLine outer ++ '\x7d' :: rest)) bound (by omega) (endsNumber_comma _)
    have hnkey := length_lt_length_writeString n.1
    obtain ⟨bound, rfl⟩ : ∃ b, bound = b + 1 := ⟨bound - 1, by omega⟩
    have hrest := ih (m := n) (fun x hx => hkept x (List.mem_cons_of_mem m hx))
      (fun x hx => hreads x (List.mem_cons_of_mem m hx)) hnkey (hkept n (by simp)) bound (by omega)
    have hquote : ∀ s, skipLayout (writeString (symbols n.1) ++ s) =
        writeString (symbols n.1) ++ s := fun s => skipLayout_cons rfl _
    have hcomma : ∀ s, skipLayout (',' :: s) = ',' :: s := skipLayout_cons rfl
    rw [writeString_append, members, string_write m.1 _ (by omega)]
    simp only [hcolon, hspace, hm.skipLayout_write, hvalue]
    simp only [List.map_cons, writeMembers, List.cons_append, List.append_assoc, hcomma,
      skipLayout_newLine, hquote]
    rw [hrest]
    rfl

theorem symbols_injective {s t : String} (h : symbols s = symbols t) : s = t := by
  have hchar : Function.Injective Symbol.char := fun _ _ heq => Symbol.char.inj heq
  exact String.toList_inj.1 (List.map_injective_iff.2 hchar h)

/-- Keys that differ all stay as they are written. -/
theorem distinct_record {ms : List (String × Value)} (h : (ms.map Prod.fst).Nodup) :
    distinct (ms.map fun m => (symbols m.1, m.2)) = ms.map fun m => (symbols m.1, m.2) := by
  have hfold : ∀ (front : List (List Symbol × Value)) (ms : List (String × Value)),
      (ms.map Prod.fst).Nodup → (∀ m ∈ ms, ∀ n ∈ front, n.1 ≠ symbols m.1) →
      (ms.map fun m => (symbols m.1, m.2)).foldl (fun members m => put members m.1 m.2) front =
        front ++ ms.map fun m => (symbols m.1, m.2) := by
    intro front ms
    induction ms generalizing front with
    | nil => simp
    | cons m ms ih =>
      intro hnodup hfront
      obtain ⟨hm, hms⟩ := List.nodup_cons.1 (List.map_cons ▸ hnodup)
      have hput : put front (symbols m.1) m.2 = front ++ [(symbols m.1, m.2)] := by
        have hnone : front.any (·.1 = symbols m.1) = false := by
          simpa using fun key v hmem => hfront m List.mem_cons_self (key, v) hmem
        rw [put, hnone, if_neg Bool.false_ne_true]
      have hnext : ∀ n ∈ ms, ∀ k ∈ front ++ [(symbols m.1, m.2)], k.1 ≠ symbols n.1 := by
        intro n hn k hk heq
        rcases List.mem_append.1 hk with hk | hk
        · exact hfront n (List.mem_cons_of_mem m hn) k hk heq
        · rw [List.mem_singleton.1 hk] at heq
          exact hm (symbols_injective heq ▸ List.mem_map_of_mem hn)
      rw [List.map_cons, List.foldl_cons, hput, ih _ hms hnext, List.append_assoc,
        List.singleton_append]
  exact hfold [] ms h nofun

/-- Whatever a document keeps is read back from it. -/
theorem Kept.reads {room : Nat} {v : Value} (h : Kept room v) : Reads room v := by
  induction h with
  | null room =>
    intro level rest bound hbound _
    obtain ⟨bound, rfl⟩ : ∃ b, bound = b + 1 := ⟨bound - 1, by simp [write] at hbound; omega⟩
    rw [value_of_scalar (by simp [write]) (by simp [write])]
    rfl
  | bool room b =>
    intro level rest bound hbound _
    obtain ⟨bound, rfl⟩ : ∃ b, bound = b + 1 :=
      ⟨bound - 1, by cases b <;> simp [write] at hbound <;> omega⟩
    cases b <;> rw [value_of_scalar (by simp [write]) (by simp [write])] <;> rfl
  | @int room n h =>
    intro level rest bound hbound hrest
    obtain ⟨c, cs, heq, hc⟩ := exists_toString n
    have hne : c ≠ '[' ∧ c ≠ '\x7b' := by
      rcases hc with rfl | hc
      · decide
      · exact ⟨ne_of_isDigit hc rfl, ne_of_isDigit hc rfl⟩
    have hwrite : write level (.int n) = (toString n).toList := rfl
    rw [hwrite] at hbound ⊢
    obtain ⟨bound, rfl⟩ : ∃ b, bound = b + 1 :=
      ⟨bound - 1, by rw [heq, List.length_cons] at hbound; omega⟩
    have hhead : ((toString n).toList ++ rest).head? = some c := by rw [heq]; rfl
    rw [value_of_scalar, scalar_toString bound h hrest]
    · rw [hhead, Ne, Option.some.injEq]
      exact hne.1
    · rw [hhead, Ne, Option.some.injEq]
      exact hne.2
  | string room s =>
    intro level rest bound hbound _
    have hlength := length_lt_length_writeString s
    obtain ⟨bound, rfl⟩ : ∃ b, bound = b + 1 :=
      ⟨bound - 1, by simp only [Value.string, write] at hbound; omega⟩
    have hwrite : write level (.string s) = writeString (symbols s) := rfl
    rw [hwrite] at hbound ⊢
    rw [value_of_scalar (by simp [writeString]) (by simp [writeString]),
      scalar_writeString s rest (by omega)]
  | @array room items h ih =>
    intro level rest bound hbound _
    cases items with
    | nil =>
      obtain ⟨bound, rfl⟩ : ∃ b, bound = b + 1 := ⟨bound - 1, by simp [write] at hbound; omega⟩
      rfl
    | cons v vs =>
      have hlength : (write level (.array (v :: vs))).length =
          (newLine (level + 1)).length + (write (level + 1) v).length +
            (writeItems (level + 1) vs).length + (newLine level).length + 2 := by
        simp only [write, List.length_append, List.length_cons, List.length_nil]
        omega
      obtain ⟨bound, rfl⟩ : ∃ b, bound = b + 1 := ⟨bound - 1, by omega⟩
      have hv : Kept room v := h v List.mem_cons_self
      have hitems := items_write h ih (level + 1) level rest bound (by omega)
      have hskip : skipLayout (newLine (level + 1) ++ (write (level + 1) v ++
          (writeItems (level + 1) vs ++ (newLine level ++ ']' :: rest)))) =
          write (level + 1) v ++ (writeItems (level + 1) vs ++ (newLine level ++ ']' :: rest)) := by
        rw [skipLayout_newLine, hv.skipLayout_write]
      have hwrite : write level (.array (v :: vs)) ++ rest =
          '[' :: (newLine (level + 1) ++ (write (level + 1) v ++
            (writeItems (level + 1) vs ++ (newLine level ++ ']' :: rest)))) := by
        simp only [write, List.cons_append, List.append_assoc, List.nil_append]
      rw [← hskip] at hitems
      rw [hwrite]
      refine value_of_items ?_ hitems
      intro s' heq
      obtain ⟨c, cs, hstart, -, hc, -⟩ := hv.exists_write (level + 1)
      rw [hskip, hstart] at heq
      exact hc (List.cons.inj heq).1
  | @record room members keys h ih =>
    intro level rest bound hbound _
    cases members with
    | nil =>
      obtain ⟨bound, rfl⟩ : ∃ b, bound = b + 1 :=
        ⟨bound - 1, by simp [Value.record, write] at hbound; omega⟩
      rfl
    | cons m ms =>
      have hlength : (write level (.record (m :: ms))).length =
          (newLine (level + 1)).length + (writeString (symbols m.1)).length +
            (write (level + 1) m.2).length +
            (writeMembers (level + 1) (ms.map fun m => (symbols m.1, m.2))).length +
            (newLine level).length + 4 := by
        simp only [Value.record, List.map_cons, write, List.length_append, List.length_cons,
          List.length_nil]
        omega
      obtain ⟨bound, rfl⟩ : ∃ b, bound = b + 1 := ⟨bound - 1, by omega⟩
      have hmembers := members_write h ih (level + 1) level rest bound (by omega)
      have hwrite : write level (.record (m :: ms)) ++ rest =
          '\x7b' :: (newLine (level + 1) ++ (writeString (symbols m.1) ++
            (':' :: ' ' :: (write (level + 1) m.2 ++
              (writeMembers (level + 1) (ms.map fun m => (symbols m.1, m.2)) ++
                (newLine level ++ '\x7d' :: rest)))))) := by
        simp only [Value.record, List.map_cons, write, List.cons_append, List.append_assoc,
          List.nil_append]
      have hskip : ∀ s, skipLayout (newLine (level + 1) ++ (writeString (symbols m.1) ++ s)) =
          writeString (symbols m.1) ++ s := by
        intro s
        rw [skipLayout_newLine]
        exact skipLayout_cons rfl _
      rw [hwrite, value_of_members ?_ (hskip _ ▸ hmembers), distinct_record keys]
      · rfl
      · intro s' heq
        rw [hskip, writeString_append] at heq
        exact absurd (List.cons.inj heq).1 (by decide)

/-! ## Documents -/

/-- A document that is written, with nothing but layout after it, is read as its value. -/
theorem Kept.parse_write [Room] {v : Value} (h : Kept Room.containers v) {after : List Char}
    (hafter : ∀ c ∈ after, c = '\n') : parse (write 0 v ++ after) = .ok v := by
  obtain ⟨c, cs, hstart, -, -, hmark⟩ := h.exists_write 0
  have hends : EndsNumber after := by
    intro c hc
    rw [hafter c (List.mem_of_head? hc)]
    decide
  have hvalue := h.reads 0 after (2 * (write 0 v ++ after).length + 2)
    (by rw [List.length_append]; omega) hends
  have hskip : skipLayout after = [] :=
    List.dropWhile_eq_nil_iff.2 fun c hc => by rw [hafter c hc]; rfl
  have hdocument : document (write 0 v ++ after) = .ok v := by
    unfold document
    split
    · rename_i s heq
      rw [hstart, List.cons_append] at heq
      exact absurd (List.cons.inj heq).1 hmark
    · rw [h.skipLayout_write, hvalue]
      simp only [hskip]
  rw [parse, hdocument]

end SuiteLint.Json
