import SuiteLint.Proofs.Path.Normal

/-!
# The components of a path

A path is cut at slashes and at backslashes, and what says nothing is left out. A path without `..`
keeps its components in its normal form, and seen from a directory it has those of the directory and
then its own. Backslashes make no difference to this: they stay inside names while the normal form
is taken, and cut those names afterwards.
-/

namespace SuiteLint.Path

/-- What stands between the components of a path. -/
def isSeparator (c : Char) : Bool :=
  c == '/' || c == '\\'

/-- The components of a path, cut at both separators: all but the empty ones and `.`. -/
def components (p : String) : List String :=
  ((p.toList.splitOnP isSeparator).map String.ofList).filter fun name => name ≠ "" ∧ name ≠ "."

theorem splitOn_slash_map (s : List Char) :
    (s.map fun c => if c = '\\' then '/' else c).splitOn '/' = s.splitOnP isSeparator := by
  induction s with
  | nil => rfl
  | cons c s ih =>
    rw [List.map_cons, List.splitOn_cons_eq_if_modifyHead, List.splitOnP_cons_eq_if_modifyHead, ih]
    by_cases hback : c = '\\'
    · subst hback
      rfl
    · have hsep : isSeparator c = (c == '/') := by
        rw [isSeparator, beq_eq_false_iff_ne.2 hback, Bool.or_false]
      rw [if_neg hback, hsep]

theorem components_eq_steps_toSlashes (p : String) : components p = steps (toSlashes p) := by
  rw [components, steps, split, toSlashes, String.toList_ofList, splitOn_slash_map]

theorem components_eq_steps {p : String} (h : '\\' ∉ p.toList) : components p = steps p := by
  rw [components_eq_steps_toSlashes, toSlashes_eq_self h]

theorem passesThrough_iff {folder p : String} :
    passesThrough folder p = true ↔ folder ∈ (components p).dropLast := by
  rw [passesThrough, components_eq_steps_toSlashes, List.contains_iff_mem]

theorem components_append_slash (a b : String) :
    components (a ++ "/" ++ b) = components a ++ components b := by
  have hlist : (a ++ "/" ++ b).toList = a.toList ++ '/' :: b.toList := by simp
  have hsep : isSeparator '/' = true := rfl
  rw [components, hlist, List.splitOnP_append_cons _ _ hsep, List.map_append, List.filter_append,
    components, components]

theorem components_unsplit (names : List String) :
    components (unsplit names) = names.flatMap components := by
  induction names with
  | nil => rfl
  | cons name names ih =>
    by_cases hne : names = []
    · rw [hne, unsplit_singleton, List.flatMap_singleton]
    · rw [unsplit_cons hne, components_append_slash, ih, List.flatMap_cons]

/-- Cutting at slashes first and at backslashes afterwards. -/
theorem components_eq_flatMap (p : String) : components p = (split p).flatMap components := by
  rw [← components_unsplit, unsplit_split]

/-- Empty names and `.` have no components. -/
theorem flatMap_components_filter (names : List String) :
    (names.filter fun name => name ≠ "" ∧ name ≠ ".").flatMap components =
      names.flatMap components := by
  induction names with
  | nil => rfl
  | cons name names ih =>
    rw [List.flatMap_cons, ← ih]
    by_cases hname : name ≠ "" ∧ name ≠ "."
    · rw [List.filter_cons_of_pos (by simpa using hname), List.flatMap_cons]
    · have hnone : components name = [] := by
        rcases not_and_or.1 hname with h | h
        · rw [not_not.1 h]
          rfl
        · rw [not_not.1 h]
          decide
      rw [List.filter_cons_of_neg (by simpa using hname), hnone, List.nil_append]

theorem flatMap_components_steps (p : String) : (steps p).flatMap components = components p := by
  rw [steps, flatMap_components_filter, ← components_eq_flatMap]

theorem above_not_mem_split {p : String} (h : ".." ∉ components p) : ".." ∉ split p := by
  intro hmem
  apply h
  rw [components_eq_flatMap]
  exact List.mem_flatMap.2 ⟨"..", hmem, by decide⟩

/-- A character that is neither a separator nor a dot is one of a component. -/
theorem components_ne_nil {p : String} {c : Char} (hmem : c ∈ p.toList)
    (hsep : isSeparator c = false) (hdot : c ≠ '.') : components p ≠ [] := by
  obtain ⟨hslash, hback⟩ : c ≠ '/' ∧ c ≠ '\\' := by simpa [isSeparator] using hsep
  have hchar : c ∈ (unsplit (split (toSlashes p))).toList := by
    rw [unsplit_split, toSlashes, String.toList_ofList]
    exact List.mem_map.2 ⟨c, hmem, if_neg hback⟩
  rcases mem_toList_unsplit hchar with rfl | ⟨name, hname, hc⟩
  · exact absurd rfl hslash
  · have hkept : name ≠ "" ∧ name ≠ "." := by
      constructor
      · rintro rfl
        exact absurd hc (by simp)
      · rintro rfl
        exact hdot (by simpa using hc)
    rw [components_eq_steps_toSlashes]
    exact List.ne_nil_of_mem (List.mem_filter.2 ⟨hname, by simpa using hkept⟩)

/-! ## Normal forms of paths without `..` -/

/-- Without `..` the normal form is the tidy form. -/
theorem normalForm_eq_tidy {p : String} (h : ".." ∉ split p) : normalForm p = tidy p := by
  rw [normalForm, collapse, foldl_push_kept h, List.append_nil, List.reverse_reverse, tidy, steps]

theorem components_text_unsplit (r : Root) (names : List String) :
    components (r.text ++ unsplit names) = names.flatMap components := by
  have hslash : ∀ p, components ("/" ++ p) = components p := fun p =>
    components_append_slash "" p
  rw [← components_unsplit]
  cases r with
  | relative => rw [Root.text, String.empty_append]
  | single => rw [Root.text, hslash]
  | double =>
    have hdouble : Root.double.text ++ unsplit names = "/" ++ ("/" ++ unsplit names) := by
      rw [← String.append_assoc]
      rfl
    rw [hdouble, hslash, hslash]

theorem components_tidy (p : String) : components (tidy p) = components p := by
  have hhere : ∀ q, components (orHere q) = components q := by
    intro q
    rw [orHere]
    split
    · next hempty =>
      rw [hempty]
      decide
    · rfl
  rw [tidy, hhere, components_text_unsplit, flatMap_components_steps]

theorem isKept_of_mem_steps {p name : String} (h : name ∈ steps p) : IsKept name := by
  obtain ⟨hmem, hkept⟩ := List.mem_filter.1 h
  obtain ⟨hempty, hhere⟩ := of_decide_eq_true hkept
  exact ⟨hempty, hhere, no_slash_of_mem_split hmem⟩

theorem tidy_of_steps {p : String} (h : steps p ≠ []) :
    tidy p = (root p).text ++ unsplit (steps p) := by
  have htidy := tidy_text_unsplit h (fun n hn => isKept_of_mem_steps hn) (root p)
  rw [tidy, orHere, if_neg]
  intro hempty
  rw [hempty] at htidy
  exact absurd htidy (by decide)

theorem isAbsolute_tidy (p : String) : isAbsolute (tidy p) = isAbsolute p := by
  by_cases hsteps : steps p = []
  · rw [tidy, hsteps, isAbsolute, isAbsolute]
    cases root p <;> decide
  · rw [tidy_of_steps hsteps, isAbsolute, isAbsolute,
      root_text_unsplit hsteps fun n hn => isKept_of_mem_steps hn]

/-- The last name of a path that does not end in a slash or in `/.` is that of its tidy form. -/
theorem getLast?_split_tidy {p name : String} (hlast : (split p).getLast? = some name)
    (hempty : name ≠ "") (hhere : name ≠ ".") : (split (tidy p)).getLast? = some name := by
  obtain ⟨init, hinit⟩ := List.getLast?_eq_some_iff.1 hlast
  have hsteps : ∃ names, steps p = names ++ [name] := by
    refine ⟨init.filter fun name => name ≠ "" ∧ name ≠ ".", ?_⟩
    rw [steps, hinit, List.filter_append, List.filter_cons_of_pos (by simp [hempty, hhere]),
      List.filter_nil]
  obtain ⟨names, hnames⟩ := hsteps
  have hne : steps p ≠ [] := by simp [hnames]
  obtain ⟨front, -, hsplit⟩ :=
    split_text_unsplit hne (fun n hn => isKept_of_mem_steps hn) (root p)
  rw [tidy_of_steps hne, hsplit, hnames, ← List.append_assoc, List.getLast?_concat]

/-- The last name of a path is the whole path or stands after a slash. -/
theorem eq_of_getLast?_split {p name : String} (hlast : (split p).getLast? = some name) :
    p = name ∨ ∃ front, p = front ++ "/" ++ name := by
  obtain ⟨init, hinit⟩ := List.getLast?_eq_some_iff.1 hlast
  rw [← unsplit_split p, hinit]
  by_cases hne : init = []
  · left
    rw [hne, List.nil_append, unsplit_singleton]
  · right
    exact ⟨unsplit init, by rw [unsplit_append hne (List.cons_ne_nil name []), unsplit_singleton]⟩

theorem hasEnding_of_getLast? {ending p name : String} (hslash : '/' ∉ ending.toList)
    (hlast : (split p).getLast? = some name) : hasEnding ending p = hasEnding ending name := by
  rcases eq_of_getLast?_split hlast with rfl | ⟨front, rfl⟩
  · rfl
  · have hlist : (front ++ "/" ++ name).toList = front.toList ++ '/' :: name.toList := by simp
    rw [hasEnding, hasEnding, hlist, Bool.eq_iff_iff, List.isSuffixOf_iff_suffix,
      List.isSuffixOf_iff_suffix, Text.suffix_append_cons hslash]

/-- A path that ends neither in a slash nor in `/.` ends in a name that says something, unless it
says nothing as a whole. -/
theorem getLast?_split_of_hasEnding {p : String} (hslash : hasEnding "/" p = false)
    (hhere : hasEnding "/." p = false) :
    p = "" ∨ p = "." ∨ ∃ name, (split p).getLast? = some name ∧ name ≠ "" ∧ name ≠ "." := by
  have hsplit : split p ≠ [] := by simp [split, List.splitOn_ne_nil]
  obtain ⟨name, hname⟩ : ∃ name, (split p).getLast? = some name :=
    ⟨_, List.getLast?_eq_some_getLast hsplit⟩
  have hends : p = name ∨ hasEnding ("/" ++ name) p = true := by
    rcases eq_of_getLast?_split hname with hp | ⟨front, hp⟩
    · exact .inl hp
    · right
      have hlist : p.toList = front.toList ++ ("/" ++ name).toList := by simp [hp]
      rw [hasEnding, hlist, List.isSuffixOf_iff_suffix]
      exact List.suffix_append front.toList ("/" ++ name).toList
  by_cases hempty : name = ""
  · subst hempty
    rcases hends with hp | hends
    · exact .inl hp
    · exact absurd (hslash.symm.trans hends) Bool.false_ne_true
  · by_cases hdot : name = "."
    · subst hdot
      rcases hends with hp | hends
      · exact .inr (.inl hp)
      · exact absurd (hhere.symm.trans hends) Bool.false_ne_true
    · exact .inr (.inr ⟨name, hname, hempty, hdot⟩)

/-! ## Paths seen from a directory -/

/-- Below the root nothing leads up. -/
theorem above_not_mem_push {stack : List String} (h : ".." ∉ stack) (name : String) :
    ".." ∉ push true stack name := by
  unfold push
  split
  · exact h
  · split
    · cases stack with
      | nil => exact List.not_mem_nil
      | cons top below =>
        obtain ⟨htop, hbelow⟩ := not_or.1 (fun hmem => h (List.mem_cons.2 hmem))
        show ".." ∉ if top = ".." then ".." :: top :: below else below
        rw [if_neg (Ne.symm htop)]
        exact hbelow
    · next hname =>
      intro hmem
      rcases List.mem_cons.1 hmem with heq | hmem
      · exact hname heq.symm
      · exact h hmem

theorem above_not_mem_collapse (names : List String) : ".." ∉ collapse true names := by
  rw [collapse, List.mem_reverse]
  induction names using List.reverseRecOn with
  | nil => exact List.not_mem_nil
  | append_singleton names name ih =>
    rw [List.foldl_append, List.foldl_cons, List.foldl_nil]
    exact above_not_mem_push ih name

theorem above_not_mem_split_normalForm {p : String} (h : isAbsolute p = true) :
    ".." ∉ split (normalForm p) := by
  have habove : ".." ∉ collapse true (split p) := above_not_mem_collapse (split p)
  rw [normalForm, h]
  by_cases hne : collapse true (split p) = []
  · rw [hne]
    cases root p <;> decide
  · obtain ⟨front, hfront, hsplit⟩ :=
      split_text_unsplit hne (fun n hn => isKept_of_mem_collapse hn) (root p)
    rw [orHere]
    split
    · decide
    · rw [hsplit, List.mem_append, not_or]
      exact ⟨fun hmem => absurd (hfront ".." hmem) (by decide), habove⟩

theorem components_join {p : String} (hp : isAbsolute p = false) (base : String) :
    components (join base p) = components base ++ components p := by
  obtain ⟨front, rest, hrest, hbase, hjoin⟩ := split_join hp base
  have hnone : rest.flatMap components = [] := by
    rw [List.flatMap_eq_nil_iff]
    intro n hn
    rw [hrest n hn]
    rfl
  rw [components_eq_flatMap (join base p), hjoin, List.flatMap_append, ← components_eq_flatMap,
    components_eq_flatMap base, hbase, List.flatMap_append, hnone, List.append_nil]

/-- From a current directory in normal form, a relative path has the components of the directory
and then its own. -/
theorem components_absolute {cwd p : String} (habsolute : isAbsolute cwd = true)
    (hnormal : normalForm cwd = cwd) (habove : ".." ∉ components p) :
    components (absolute cwd p) =
      (if isAbsolute p then [] else components cwd) ++ components p := by
  have hp := above_not_mem_split habove
  cases hroot : isAbsolute p with
  | true =>
    have hjoin : join cwd p = p := if_pos hroot
    rw [absolute, hjoin, normalForm_eq_tidy hp, components_tidy, if_pos rfl, List.nil_append]
  | false =>
    have hcwd : ".." ∉ split cwd := hnormal ▸ above_not_mem_split_normalForm habsolute
    obtain ⟨front, rest, -, hbase, hjoin⟩ := split_join hroot cwd
    have hnames : ".." ∉ split (join cwd p) := by
      rw [hjoin, List.mem_append, not_or]
      exact ⟨fun hmem => hcwd (hbase ▸ List.mem_append_left rest hmem), hp⟩
    rw [absolute, normalForm_eq_tidy hnames, components_tidy, components_join hroot,
      if_neg Bool.false_ne_true]

end SuiteLint.Path
