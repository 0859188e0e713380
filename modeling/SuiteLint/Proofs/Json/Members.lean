import Mathlib.Data.List.Induction
import Mathlib.Data.List.Nodup
import SuiteLint.Json.Reader

/-!
# The members of an object

An object that is read names each key once, however often the text repeats it: the value of a key
is the last one written for it. The members as they are written can be read off the text again.
-/

namespace SuiteLint.Json

variable {ms : List (List Symbol × Value)} {key : List Symbol}

/-- The value of a key among members that name it once. -/
def lookup (ms : List (List Symbol × Value)) (key : List Symbol) : Option Value :=
  (ms.find? (·.1 = key)).map (·.2)

/-- The last value that is written for a key. -/
def last? (ms : List (List Symbol × Value)) (key : List Symbol) : Option Value :=
  lookup ms.reverse key

theorem lookup_cons (m : List Symbol × Value) (ms : List (List Symbol × Value))
    (key : List Symbol) : lookup (m :: ms) key = if m.1 = key then some m.2 else lookup ms key := by
  unfold lookup
  by_cases hkey : m.1 = key
  · rw [List.find?_cons_of_pos (by simpa using hkey), if_pos hkey]
    rfl
  · rw [List.find?_cons_of_neg (by simpa using hkey), if_neg hkey]

theorem last?_concat (ms : List (List Symbol × Value)) (m : List Symbol × Value)
    (key : List Symbol) : last? (ms ++ [m]) key = if m.1 = key then some m.2 else last? ms key := by
  rw [last?, List.reverse_append, List.reverse_singleton, List.singleton_append, lookup_cons]
  rfl

theorem lookup_eq_none (h : key ∉ ms.map Prod.fst) : lookup ms key = none := by
  rw [lookup, Option.map_eq_none_iff, List.find?_eq_none]
  intro m hm hkey
  exact h (List.mem_map.2 ⟨m, hm, by simpa using hkey⟩)

/-! ## Setting a member -/

theorem any_eq_true_iff : ms.any (·.1 = key) = true ↔ key ∈ ms.map Prod.fst := by
  rw [List.any_eq_true, List.mem_map]
  exact exists_congr fun m => and_congr_right fun _ => decide_eq_true_iff

theorem nodup_put (h : (ms.map Prod.fst).Nodup) (v : Value) :
    ((put ms key v).map Prod.fst).Nodup := by
  unfold put
  split
  · have hkeys : (ms.map fun m => if m.1 = key then (key, v) else m).map Prod.fst =
        ms.map Prod.fst := by
      rw [List.map_map]
      refine List.map_congr_left fun m _ => ?_
      by_cases hkey : m.1 = key
      · simp [hkey]
      · simp [hkey]
    rwa [hkeys]
  · rename_i hany
    have hmem : key ∉ ms.map Prod.fst := any_eq_true_iff.not.1 hany
    rw [List.map_append, List.map_singleton, List.nodup_append_comm]
    exact List.nodup_cons.2 ⟨hmem, h⟩

theorem lookup_replace_of_ne {other : List Symbol} (h : key ≠ other) (v : Value) :
    lookup (ms.map fun m => if m.1 = key then (key, v) else m) other = lookup ms other := by
  induction ms with
  | nil => rfl
  | cons m ms ih =>
    rw [List.map_cons, lookup_cons, lookup_cons, ih]
    by_cases hkey : m.1 = key
    · rw [if_pos hkey, if_neg h, if_neg (hkey ▸ h)]
    · rw [if_neg hkey]

theorem lookup_replace_self (h : key ∈ ms.map Prod.fst) (v : Value) :
    lookup (ms.map fun m => if m.1 = key then (key, v) else m) key = some v := by
  induction ms with
  | nil => exact absurd h List.not_mem_nil
  | cons m ms ih =>
    rw [List.map_cons, lookup_cons]
    by_cases hkey : m.1 = key
    · rw [if_pos hkey, if_pos rfl]
    · have hmem : key ∈ ms.map Prod.fst :=
        (List.mem_cons.1 (List.map_cons ▸ h)).resolve_left fun heq => hkey heq.symm
      rw [if_neg hkey, if_neg hkey, ih hmem]

theorem lookup_concat (ms : List (List Symbol × Value)) (key other : List Symbol) (v : Value)
    (h : key ∉ ms.map Prod.fst) :
    lookup (ms ++ [(key, v)]) other = if key = other then some v else lookup ms other := by
  induction ms with
  | nil => rw [List.nil_append, lookup_cons]
  | cons m ms ih =>
    obtain ⟨hm, hms⟩ := not_or.1 (List.mem_cons.not.1 (List.map_cons ▸ h))
    rw [List.cons_append, lookup_cons, lookup_cons, ih hms]
    by_cases hother : m.1 = other
    · have hne : key ≠ other := fun heq => hm (heq.trans hother.symm)
      rw [if_pos hother, if_neg hne, if_pos hother]
    · rw [if_neg hother, if_neg hother]

/-- Setting a member sets the value of its key and of no other. -/
theorem lookup_put (ms : List (List Symbol × Value)) (key other : List Symbol) (v : Value) :
    lookup (put ms key v) other = if key = other then some v else lookup ms other := by
  unfold put
  split
  · rename_i hany
    by_cases hkey : key = other
    · subst hkey
      rw [lookup_replace_self (any_eq_true_iff.1 hany), if_pos rfl]
    · rw [lookup_replace_of_ne hkey, if_neg hkey]
  · rename_i hany
    exact lookup_concat ms key other v (any_eq_true_iff.not.1 hany)

/-! ## Members as they are written -/

theorem distinct_concat (ms : List (List Symbol × Value)) (m : List Symbol × Value) :
    distinct (ms ++ [m]) = put (distinct ms) m.1 m.2 := by
  rw [distinct, List.foldl_append]
  rfl

theorem nodup_distinct (ms : List (List Symbol × Value)) :
    ((distinct ms).map Prod.fst).Nodup := by
  induction ms using List.reverseRecOn with
  | nil => exact List.nodup_nil
  | append_singleton ms m ih =>
    rw [distinct_concat]
    exact nodup_put ih m.2

/-- A repeated key takes its last value. -/
theorem lookup_distinct (ms : List (List Symbol × Value)) (key : List Symbol) :
    lookup (distinct ms) key = last? ms key := by
  induction ms using List.reverseRecOn with
  | nil => rfl
  | append_singleton ms m ih => rw [distinct_concat, lookup_put, last?_concat, ih]

/-- The members of the object that a text holds, as they are written: a repeated key is repeated. -/
def writtenMembers [Room] (s : List Char) : List (List Symbol × Value) :=
  match skipLayout s with
  | '\x7b' :: rest =>
    match members (2 * s.length + 1) (Room.containers - 1) (skipLayout rest) with
    | .ok (ms, _) => ms
    | .error _ => []
  | _ => []

theorem unsignedNumber_ne_object {start s rest : List Char} {negative : Bool}
    {ms : List (List Symbol × Value)} :
    unsignedNumber start negative s ≠ .ok (.object ms, rest) := by
  intro h
  unfold unsignedNumber at h
  split at h
  · exact absurd h nofun
  · simp only at h
    split at h
    · exact absurd h nofun
    · split at h
      · split at h <;> exact absurd h nofun
      · exact absurd h nofun

theorem scalar_ne_object {bound : Nat} {s rest : List Char} {ms : List (List Symbol × Value)} :
    scalar bound s ≠ .ok (.object ms, rest) := by
  intro h
  unfold scalar at h
  split at h
  · rename_i left
    cases hstring : string bound left with
    | error stop =>
      rw [hstring] at h
      exact absurd h nofun
    | ok read =>
      rw [hstring] at h
      exact absurd h nofun
  · split at h
    · rename_i name v hname
      have hnames : ∀ n ∈ names, ∀ ms, n.2 ≠ .object ms := by
        simp [names]
      obtain ⟨rfl, -⟩ := Prod.mk.inj (Except.ok.inj h)
      exact hnames _ (List.mem_of_find?_eq_some hname) ms rfl
    · unfold number at h
      split at h
      · exact unsignedNumber_ne_object h
      · exact unsignedNumber_ne_object h

/-- An object that is read has the members that are written, each key once. -/
theorem value_object {bound room : Nat} {s rest : List Char} {ms : List (List Symbol × Value)}
    (h : value (bound + 1) room s = .ok (.object ms, rest)) :
    ∃ left, s = '\x7b' :: left ∧ (ms = [] ∧ skipLayout left = '\x7d' :: rest ∨
      ∃ written, members bound (room - 1) (skipLayout left) = .ok (written, rest) ∧
        ms = distinct written) := by
  rw [value.eq_def] at h
  simp only at h
  split at h
  · exact absurd h nofun
  · split at h
    · exact absurd h nofun
    · split at h <;> exact absurd h nofun
  · exact absurd h nofun
  · rename_i left room'
    refine ⟨left, rfl, ?_⟩
    split at h
    · rename_i closed hclosed
      obtain ⟨heq, rfl⟩ := Prod.mk.inj (Except.ok.inj h)
      exact Or.inl ⟨(Value.object.inj heq).symm, hclosed⟩
    · split at h
      · rename_i written after hread
        obtain ⟨heq, rfl⟩ := Prod.mk.inj (Except.ok.inj h)
        exact Or.inr ⟨written, hread, (Value.object.inj heq).symm⟩
      · exact absurd h nofun
  · exact absurd h scalar_ne_object

theorem value_of_parse [Room] {s : List Char} {v : Value} (h : parse s = .ok v) :
    ∃ rest, value (2 * s.length + 2) Room.containers (skipLayout s) = .ok (v, rest) := by
  have hdocument : document s = .ok v := by
    unfold parse at h
    split at h
    · rename_i read hread
      rw [hread, Except.ok.inj h]
    all_goals exact absurd h nofun
  unfold document at hdocument
  split at hdocument
  · exact absurd hdocument nofun
  · split at hdocument
    · exact absurd hdocument nofun
    · rename_i read rest hread
      split at hdocument
      · exact ⟨rest, Except.ok.inj hdocument ▸ hread⟩
      · exact absurd hdocument nofun

theorem members_of_closed {bound room : Nat} {rest : List Char} :
    members (bound + 1) room ('\x7d' :: rest) =
      .error (.malformed .propertyName ('\x7d' :: rest)) :=
  rfl

/-- The object that a text holds has the members written in it, each key once with its last
value. -/
theorem parse_object [Room] {s : List Char} {ms : List (List Symbol × Value)}
    (h : parse s = .ok (.object ms)) : ms = distinct (writtenMembers s) := by
  obtain ⟨rest, hread⟩ := value_of_parse h
  obtain ⟨left, hleft, ⟨rfl, hclosed⟩ | ⟨written, hmembers, rfl⟩⟩ := value_object hread
  · rw [writtenMembers, hleft]
    simp only
    rw [hclosed, members_of_closed]
    rfl
  · rw [writtenMembers, hleft]
    simp only
    rw [hmembers]

end SuiteLint.Json
