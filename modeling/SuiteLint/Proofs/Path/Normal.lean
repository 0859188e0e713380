import SuiteLint.Proofs.Path.Names

/-!
# Normal forms, read back

The normal form of a path starts like the path itself and is taken apart into the names that stayed
on the stack. It is its own tidy form, so it is opened as it is spelled.
-/

namespace SuiteLint.Path

/-- A name that a normal form keeps: the name of an entry, or `..`. -/
structure IsKept (name : String) : Prop where
  ne_empty : name ≠ ""
  ne_here : name ≠ "."
  no_slash : '/' ∉ name.toList

theorem IsName.isKept {name : String} (h : IsName name) : IsKept name :=
  ⟨h.1, h.2.1, h.no_slash⟩

theorem push_ne {rooted : Bool} {stack : List String} (hstack : ∀ n ∈ stack, n ≠ "" ∧ n ≠ ".")
    (name : String) : ∀ n ∈ push rooted stack name, n ≠ "" ∧ n ≠ "." := by
  intro n hn
  by_cases hname : name = "" ∨ name = "."
  · unfold push at hn
    rw [if_pos hname] at hn
    exact hstack n hn
  · rcases mem_push hn with hn | rfl
    · exact hstack n hn
    · exact not_or.1 hname

theorem foldl_push_ne (rooted : Bool) (names : List String) :
    ∀ n ∈ names.foldl (push rooted) [], n ≠ "" ∧ n ≠ "." := by
  induction names using List.reverseRecOn with
  | nil => exact fun n hn => absurd hn List.not_mem_nil
  | append_singleton names name ih =>
    rw [List.foldl_append, List.foldl_cons, List.foldl_nil]
    exact push_ne ih name

theorem isKept_of_mem_collapse {rooted : Bool} {p name : String}
    (h : name ∈ collapse rooted (split p)) : IsKept name := by
  obtain ⟨hempty, hhere⟩ := foldl_push_ne rooted (split p) name (List.mem_reverse.1 h)
  exact ⟨hempty, hhere, no_slash_of_mem_split (mem_of_mem_collapse h)⟩

theorem isKept_collapse_append {way : List String} (hway : ∀ n ∈ way, IsName n) (rooted : Bool)
    (p : String) : ∀ n ∈ collapse rooted (split p) ++ way, IsKept n := by
  intro n hn
  rcases List.mem_append.1 hn with hn | hn
  · exact isKept_of_mem_collapse hn
  · exact (hway n hn).isKept

section

variable {names : List String} (hne : names ≠ []) (h : ∀ n ∈ names, IsKept n) (r : Root)

include hne h

theorem root_text_unsplit : root (r.text ++ unsplit names) = r := by
  obtain ⟨name, rest, rfl⟩ := List.exists_cons_of_ne_nil hne
  have hname := h name List.mem_cons_self
  have hrelative := not_isAbsolute_unsplit_cons hname.ne_empty hname.no_slash rest
  -- The names start with a character, and it is not a slash.
  obtain ⟨c, cs, hcs⟩ : ∃ c cs, (unsplit (name :: rest)).toList = c :: cs := by
    have hchars : name.toList ≠ [] := fun he => hname.ne_empty (String.toList_eq_nil_iff.1 he)
    obtain ⟨c, hc⟩ := List.exists_mem_of_ne_nil _ hchars
    exact List.exists_cons_of_ne_nil
      (List.ne_nil_of_mem (mem_toList_unsplit_of_mem List.mem_cons_self hc))
  have hslash : c ≠ '/' := by
    rintro rfl
    rw [← Bool.not_eq_true, isAbsolute_iff, hcs] at hrelative
    exact hrelative rfl
  rw [root, String.toList_append, hcs]
  cases r <;> simp [Root.text, Root.ofChars, hslash]

theorem split_text_unsplit :
    ∃ front, (∀ n ∈ front, n = "") ∧ split (r.text ++ unsplit names) = front ++ names := by
  have hsplit : split (unsplit names) = names := split_unsplit hne fun n hn => (h n hn).no_slash
  have hslash : ∀ p, split ("/" ++ p) = [""] ++ split p := fun p =>
    split_append_slash "" p
  cases r with
  | relative =>
    refine ⟨[], by simp, ?_⟩
    rw [Root.text, String.empty_append, hsplit, List.nil_append]
  | single =>
    refine ⟨[""], by simp, ?_⟩
    rw [Root.text, hslash, hsplit]
  | double =>
    refine ⟨["", ""], by simp, ?_⟩
    have hdouble : Root.double.text ++ unsplit names = "/" ++ ("/" ++ unsplit names) := by
      rw [← String.append_assoc]
      rfl
    rw [hdouble, hslash, hslash, hsplit]
    rfl

theorem tidy_text_unsplit : tidy (r.text ++ unsplit names) = r.text ++ unsplit names := by
  obtain ⟨front, hfront, hsplit⟩ := split_text_unsplit hne h r
  have hsteps : steps (r.text ++ unsplit names) = names := by
    rw [steps, hsplit, List.filter_append, List.filter_eq_nil_iff.2, List.nil_append,
      List.filter_eq_self.2]
    · exact fun n hn => decide_eq_true ⟨(h n hn).ne_empty, (h n hn).ne_here⟩
    · exact fun n hn => by simp [hfront n hn]
  have hsome : r.text ++ unsplit names ≠ "" := by
    intro hempty
    rw [hempty] at hsplit
    obtain ⟨name, hname⟩ := List.exists_mem_of_ne_nil names hne
    have hmem : name ∈ split "" := hsplit ▸ List.mem_append_right front hname
    rw [show split "" = [""] by decide, List.mem_singleton] at hmem
    exact (h name hname).ne_empty hmem
  rw [tidy, root_text_unsplit hne h, hsteps, orHere, if_neg hsome]

end

end SuiteLint.Path
