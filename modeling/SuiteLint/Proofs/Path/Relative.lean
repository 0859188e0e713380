import SuiteLint.Proofs.Path.Normal

/-!
# Paths told from a directory

A path below a directory is told from it by the names that lead down, in whatever way the directory
is spelled: both are seen from the current directory first, where the names of the path start with
those of the directory.
-/

namespace SuiteLint.Path

theorem filter_split_text_unsplit {names : List String} (h : ∀ n ∈ names, IsKept n) (r : Root) :
    (split (r.text ++ unsplit names)).filter (· ≠ "") = names := by
  by_cases hne : names = []
  · subst hne
    cases r <;> decide
  · obtain ⟨front, hfront, hsplit⟩ := split_text_unsplit hne h r
    have hnone : front.filter (· ≠ "") = [] := by
      rw [List.filter_eq_nil_iff]
      intro n hn
      simp [hfront n hn]
    have hall : names.filter (· ≠ "") = names := by
      rw [List.filter_eq_self]
      intro n hn
      exact decide_eq_true (h n hn).ne_empty
    rw [hsplit, List.filter_append, hnone, hall, List.nil_append]

section

variable {cwd : String} (hcwd : isAbsolute cwd = true)

include hcwd

theorem isAbsolute_join (p : String) : isAbsolute (join cwd p) = true := by
  cases hp : isAbsolute p with
  | true =>
    have hjoin : join cwd p = p := if_pos hp
    rw [hjoin, hp]
  | false => rw [isAbsolute, root_join hp, ← isAbsolute, hcwd]

theorem namesFrom_eq (p : String) : namesFrom cwd p = collapse true (split (join cwd p)) := by
  have habsolute := isAbsolute_join hcwd p
  have hkept : ∀ n ∈ collapse true (split (join cwd p)), IsKept n := fun n hn =>
    isKept_of_mem_collapse hn
  have hsome : (root (join cwd p)).text ++ unsplit (collapse true (split (join cwd p))) ≠ "" := by
    intro hempty
    obtain ⟨htext, -⟩ := String.append_eq_empty_iff.1 hempty
    rw [isAbsolute] at habsolute
    cases hroot : root (join cwd p) with
    | relative => simp [hroot] at habsolute
    | single => simp [hroot, Root.text] at htext
    | double => simp [hroot, Root.text] at htext
  rw [namesFrom, absolute, normalForm, habsolute, orHere, if_neg hsome,
    filter_split_text_unsplit hkept]

/-- Names put after a path lead on from where it leads. -/
theorem namesFrom_join_unsplit {names : List String} (hne : names ≠ [])
    (h : ∀ n ∈ names, IsName n) (p : String) :
    namesFrom cwd (join p (unsplit names)) = namesFrom cwd p ++ names := by
  have hrelative := not_isAbsolute_unsplit hne h
  have hsplit : split (unsplit names) = names := split_unsplit hne fun n hn => (h n hn).no_slash
  have hstack : (split (join cwd (join p (unsplit names)))).foldl (push true) [] =
      names.reverse ++ (split (join cwd p)).foldl (push true) [] := by
    have hroot : isAbsolute (join p (unsplit names)) = isAbsolute p := by
      rw [isAbsolute, isAbsolute, root_join hrelative]
    cases hp : isAbsolute p with
    | true =>
      have hjoin : join cwd p = p := if_pos hp
      have hdeep : join cwd (join p (unsplit names)) = join p (unsplit names) :=
        if_pos (hroot.trans hp)
      rw [hjoin, hdeep, foldl_push_split_join hrelative, hsplit, foldl_push_names h]
    | false =>
      rw [foldl_push_split_join (hroot.trans hp), foldl_push_split_join hrelative, hsplit,
        foldl_push_names h, foldl_push_split_join hp]
  rw [namesFrom_eq hcwd, namesFrom_eq hcwd, collapse, collapse, hstack, List.reverse_append,
    List.reverse_reverse]

end

theorem shared_append (as bs : List String) : shared as (as ++ bs) = as.length := by
  induction as with
  | nil => cases bs <;> rfl
  | cons a as ih => rw [List.cons_append, shared, if_pos rfl, ih, List.length_cons]

theorem relative_of_names {cwd start p : String} {names : List String}
    (h : namesFrom cwd p = namesFrom cwd start ++ names) :
    relative cwd start p = orHere (unsplit names) := by
  rw [relative, h, shared_append, Nat.sub_self, List.replicate_zero, List.nil_append,
    List.drop_left]

/-- Below a directory, a path is told from it by the names that lead down. -/
theorem relative_foldl_join {cwd : String} (hcwd : isAbsolute cwd = true) {names : List String}
    (h : ∀ n ∈ names, IsName n) (start : String) :
    relative cwd start (names.foldl join start) = orHere (unsplit names) := by
  apply relative_of_names
  by_cases hne : names = []
  · rw [hne, List.foldl_nil, List.append_nil]
  · rw [foldl_join hne h, namesFrom_join_unsplit hcwd hne h]

end SuiteLint.Path
