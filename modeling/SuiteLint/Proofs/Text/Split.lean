/-!
# Parts of a list

The parts of a list that is split at an element do not have that element. So what occurs in the list
without that element occurs in one of its parts, and what occurs in a list does not reach into parts
that it has nothing in common with.
-/

namespace SuiteLint.Text

theorem not_mem_of_mem_splitOn {α : Type} [BEq α] [LawfulBEq α] {a : α} {part text : List α}
    (h : part ∈ text.splitOn a) : a ∉ part := by
  induction text generalizing part with
  | nil =>
    rw [List.splitOn_nil, List.mem_singleton] at h
    rw [h]
    exact List.not_mem_nil
  | cons c text ih =>
    obtain ⟨first, rest, hparts⟩ := List.exists_cons_of_ne_nil (List.splitOn_ne_nil a text)
    rw [List.splitOn_cons_eq_if_modifyHead, hparts] at h
    rw [hparts] at ih
    by_cases hc : c = a
    · rw [if_pos (beq_iff_eq.2 hc), List.mem_cons] at h
      rcases h with rfl | h
      · exact List.not_mem_nil
      · exact ih h
    · rw [if_neg (fun he => hc (beq_iff_eq.1 he)), List.modifyHead_cons, List.mem_cons] at h
      rcases h with rfl | h
      · have hfirst := ih List.mem_cons_self
        rw [List.mem_cons, not_or]
        exact ⟨fun he => hc he.symm, hfirst⟩
      · exact ih (List.mem_cons_of_mem first h)

section Infix

variable {α : Type} {t x y : List α}

theorem eq_nil_of_disjoint (hsub : ∀ c ∈ t, c ∈ y) (h : ∀ c ∈ y, c ∉ t) : t = [] :=
  List.eq_nil_iff_forall_not_mem.2 fun c hc => h c (hsub c hc) hc

/-- What occurs in a list does not reach into an end that it has nothing in common with. -/
theorem infix_append_right (h : ∀ c ∈ y, c ∉ t) : t <:+: x ++ y ↔ t <:+: x := by
  constructor
  · intro ht
    rcases List.infix_append_iff.1 ht with ht | ht | ⟨l, r, rfl, hl, hr⟩
    · exact ht
    · rw [eq_nil_of_disjoint (fun c hc => ht.subset hc) h]
      exact List.nil_infix
    · have hnil : r = [] := eq_nil_of_disjoint (fun c hc => hr.subset hc) fun c hc hmem =>
        h c hc (List.mem_append_right l hmem)
      rw [hnil, List.append_nil]
      exact hl.isInfix
  · intro ht
    exact ht.trans (List.prefix_append x y).isInfix

theorem infix_append_left (h : ∀ c ∈ x, c ∉ t) : t <:+: x ++ y ↔ t <:+: y := by
  rw [← List.reverse_infix, List.reverse_append, infix_append_right, List.reverse_infix]
  intro c hc hmem
  exact h c (List.mem_reverse.1 hc) (List.mem_reverse.1 hmem)

/-- What occurs around an element, without that element, occurs on one side of it. -/
theorem infix_append_cons {a : α} (h : a ∉ t) : t <:+: x ++ a :: y ↔ t <:+: x ∨ t <:+: y := by
  have hcons : t <:+: a :: y ↔ t <:+: y := infix_append_left (x := [a]) (by simpa using h)
  constructor
  · intro ht
    rcases List.infix_append_iff.1 ht with ht | ht | ⟨l, r, rfl, hl, hr⟩
    · exact .inl ht
    · exact .inr (hcons.1 ht)
    · left
      rcases List.prefix_cons_iff.1 hr with rfl | ⟨r', rfl, -⟩
      · rw [List.append_nil]
        exact hl.isInfix
      · exact absurd (by simp) h
  · intro ht
    rcases ht with ht | ht
    · exact ht.trans (List.prefix_append x (a :: y)).isInfix
    · exact (hcons.2 ht).trans (List.suffix_append x (a :: y)).isInfix

theorem suffix_append_cons {a : α} (h : a ∉ t) : t <:+ x ++ a :: y ↔ t <:+ y := by
  constructor
  · intro ht
    rcases List.suffix_or_suffix_of_suffix ht (List.suffix_append x (a :: y)) with hshort | hlong
    · rcases List.suffix_cons_iff.1 hshort with rfl | hy
      · exact absurd List.mem_cons_self h
      · exact hy
    · exact absurd (hlong.subset List.mem_cons_self) h
  · intro ht
    exact (ht.trans (List.suffix_cons a y)).trans (List.suffix_append x (a :: y))

end Infix

/-- What occurs in joined parts without the element that joins them occurs in one of the parts. -/
theorem infix_intercalate_iff {α : Type} {a : α} {t : List α} (h : a ∉ t) {parts : List (List α)}
    (hne : parts ≠ []) : t <:+: [a].intercalate parts ↔ ∃ part ∈ parts, t <:+: part := by
  induction parts with
  | nil => exact absurd rfl hne
  | cons part parts ih =>
    cases parts with
    | nil => simp
    | cons part' parts =>
      have hrest := ih (List.cons_ne_nil part' parts)
      rw [List.intercalate_cons_cons, List.append_assoc, List.singleton_append,
        infix_append_cons h, hrest]
      simp

/-- What occurs in a list without the element it is split at occurs in one of the parts. -/
theorem infix_iff_splitOn {α : Type} [BEq α] [LawfulBEq α] {a : α} {t : List α} (h : a ∉ t)
    (text : List α) : t <:+: text ↔ ∃ part ∈ text.splitOn a, t <:+: part := by
  rw [← infix_intercalate_iff h (List.splitOn_ne_nil a text), List.intercalate_splitOn]

end SuiteLint.Text
