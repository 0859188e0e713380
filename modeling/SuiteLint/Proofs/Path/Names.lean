import Mathlib.Data.List.Induction
import SuiteLint.Path
import SuiteLint.Proofs.Text.Split

/-!
# Paths made of names

Names that can stand in a folder are put together to a path and taken apart again. Below a base, in
whatever way the base is spelled, such a path keeps all its names in its normal form, so paths with
different names stay different.
-/

namespace SuiteLint.Path

/-- What an entry of a folder can be called. -/
def IsName (name : String) : Prop :=
  name ≠ "" ∧ name ≠ "." ∧ name ≠ ".." ∧ '/' ∉ name.toList

instance : DecidablePred IsName := fun _ => inferInstanceAs (Decidable (_ ∧ _))

/-- A name without backslashes: `toSlashes` leaves it alone. -/
def IsPlain (name : String) : Prop :=
  IsName name ∧ '\\' ∉ name.toList

instance : DecidablePred IsPlain := fun _ => inferInstanceAs (Decidable (_ ∧ _))

theorem IsName.no_slash {name : String} (h : IsName name) : '/' ∉ name.toList :=
  h.2.2.2

theorem IsName.toList_ne_nil {name : String} (h : IsName name) : name.toList ≠ [] :=
  fun he => h.1 (String.toList_eq_nil_iff.1 he)

theorem toList_unsplit (names : List String) :
    (unsplit names).toList = ['/'].intercalate (names.map String.toList) :=
  String.toList_ofList

theorem unsplit_singleton (name : String) : unsplit [name] = name := by
  rw [← String.toList_inj, toList_unsplit, List.map_singleton, List.intercalate_singleton]

theorem unsplit_cons {names : List String} (hne : names ≠ []) (name : String) :
    unsplit (name :: names) = name ++ "/" ++ unsplit names := by
  have hmap : names.map String.toList ≠ [] := by simpa using hne
  rw [← String.toList_inj, toList_unsplit, List.map_cons, List.intercalate_cons_of_ne_nil hmap]
  simp [toList_unsplit]

theorem unsplit_append {as bs : List String} (ha : as ≠ []) (hb : bs ≠ []) :
    unsplit (as ++ bs) = unsplit as ++ "/" ++ unsplit bs := by
  induction as with
  | nil => exact absurd rfl ha
  | cons a as ih =>
    by_cases has : as = []
    · rw [has, List.singleton_append, unsplit_cons hb, unsplit_singleton]
    · have hne : as ++ bs ≠ [] := by simp [has]
      rw [List.cons_append, unsplit_cons hne, unsplit_cons has, ih has]
      simp only [String.append_assoc]

theorem split_unsplit {names : List String} (hne : names ≠ [])
    (h : ∀ name ∈ names, '/' ∉ name.toList) : split (unsplit names) = names := by
  have hmap : names.map String.toList ≠ [] := by simpa using hne
  have hslash : ∀ part ∈ names.map String.toList, '/' ∉ part := by
    intro part hpart
    obtain ⟨name, hname, rfl⟩ := List.mem_map.1 hpart
    exact h name hname
  rw [split, toList_unsplit, List.splitOn_intercalate '/' hslash hmap]
  simp

theorem split_append_slash (a b : String) : split (a ++ "/" ++ b) = split a ++ split b := by
  have hlist : (a ++ "/" ++ b).toList = a.toList ++ '/' :: b.toList := by simp
  rw [split, hlist, List.splitOn_append_cons_self, List.map_append, split, split]

theorem no_slash_of_mem_split {name p : String} (h : name ∈ split p) : '/' ∉ name.toList := by
  obtain ⟨part, hpart, rfl⟩ := List.mem_map.1 h
  rw [String.toList_ofList]
  exact Text.not_mem_of_mem_splitOn hpart

theorem mem_toList_unsplit {names : List String} {c : Char} (h : c ∈ (unsplit names).toList) :
    c = '/' ∨ ∃ name ∈ names, c ∈ name.toList := by
  induction names with
  | nil =>
    rw [toList_unsplit] at h
    exact absurd h List.not_mem_nil
  | cons name names ih =>
    by_cases hne : names = []
    · rw [hne, unsplit_singleton] at h
      exact Or.inr ⟨name, List.mem_cons_self, h⟩
    · rw [unsplit_cons hne] at h
      simp only [String.toList_append, List.mem_append] at h
      rcases h with (h | h) | h
      · exact Or.inr ⟨name, List.mem_cons_self, h⟩
      · exact Or.inl (by simpa using h)
      · rcases ih h with rfl | ⟨other, hother, hc⟩
        · exact Or.inl rfl
        · exact Or.inr ⟨other, List.mem_cons_of_mem name hother, hc⟩

theorem mem_toList_unsplit_of_mem {names : List String} {name : String} (h : name ∈ names)
    {c : Char} (hc : c ∈ name.toList) : c ∈ (unsplit names).toList := by
  induction names with
  | nil => exact absurd h List.not_mem_nil
  | cons first names ih =>
    by_cases hne : names = []
    · rw [hne, List.mem_singleton] at h
      rwa [hne, unsplit_singleton, ← h]
    · rw [unsplit_cons hne]
      simp only [String.toList_append, List.mem_append]
      rcases List.mem_cons.1 h with rfl | h
      · exact Or.inl (Or.inl hc)
      · exact Or.inr (ih h)

theorem unsplit_split (p : String) : unsplit (split p) = p := by
  rw [← String.toList_inj, toList_unsplit, split, List.map_map]
  have hid : (String.toList ∘ String.ofList) = id := funext fun _ => String.toList_ofList
  rw [hid, List.map_id, List.intercalate_splitOn]

theorem mem_toList_of_mem_split {name p : String} (h : name ∈ split p) {c : Char}
    (hc : c ∈ name.toList) : c ∈ p.toList := by
  rw [← unsplit_split p]
  exact mem_toList_unsplit_of_mem h hc

/-- A path is a directory or lies below it exactly if its names start with those of the
directory. -/
theorem split_prefix_split_iff {directory p : String} :
    split directory <+: split p ↔ p = directory ∨ (directory ++ "/").toList <+: p.toList := by
  constructor
  · intro hprefix
    obtain ⟨rest, hrest⟩ := hprefix
    have hp : p = unsplit (split directory ++ rest) := by rw [hrest, unsplit_split]
    by_cases hnil : rest = []
    · rw [hnil, List.append_nil, unsplit_split] at hp
      exact Or.inl hp
    · have hdirectory : split directory ≠ [] := by simp [split]
      rw [unsplit_append hdirectory hnil, unsplit_split] at hp
      exact Or.inr ⟨(unsplit rest).toList, hp ▸ String.toList_append.symm⟩
  · intro h
    rcases h with rfl | hprefix
    · exact List.prefix_rfl
    · obtain ⟨tail, htail⟩ := hprefix
      have hp : p = directory ++ "/" ++ String.ofList tail := by
        rw [← String.toList_inj, String.toList_append, String.toList_ofList, htail]
      rw [hp, split_append_slash]
      exact List.prefix_append _ _

/-! ## Below a base -/

theorem isAbsolute_iff {p : String} : isAbsolute p = true ↔ p.toList.head? = some '/' := by
  unfold isAbsolute root
  rcases p.toList with _ | ⟨c, cs⟩
  · simp [Root.ofChars]
  · by_cases hc : c = '/'
    · subst hc
      unfold Root.ofChars
      split <;> simp_all
    · have hroot : Root.ofChars (c :: cs) = .relative := by
        unfold Root.ofChars
        split <;> simp_all
      simp [hroot, hc]

theorem not_isAbsolute_unsplit_cons {name : String} (hne : name ≠ "")
    (hname : '/' ∉ name.toList) (rest : List String) :
    isAbsolute (unsplit (name :: rest)) = false := by
  have hchars : name.toList ≠ [] := fun he => hne (String.toList_eq_nil_iff.1 he)
  obtain ⟨c, cs, hcs⟩ := List.exists_cons_of_ne_nil hchars
  have hslash : c ≠ '/' := by
    rintro rfl
    exact hname (hcs ▸ List.mem_cons_self)
  have hhead : (unsplit (name :: rest)).toList.head? = some c := by
    by_cases hrest : rest = []
    · rw [hrest, unsplit_singleton, hcs, List.head?_cons]
    · rw [unsplit_cons hrest]
      simp [hcs]
  rw [← Bool.not_eq_true, isAbsolute_iff, hhead]
  simpa using hslash

theorem not_isAbsolute_unsplit {names : List String} (hne : names ≠ [])
    (h : ∀ name ∈ names, IsName name) : isAbsolute (unsplit names) = false := by
  obtain ⟨name, rest, rfl⟩ := List.exists_cons_of_ne_nil hne
  have hname := h name List.mem_cons_self
  exact not_isAbsolute_unsplit_cons hname.1 hname.no_slash rest

/-- What stands between a base and what is put after it. -/
def gap (base : String) : String :=
  if base = "" ∨ base.toList.getLast? = some '/' then "" else "/"

theorem join_eq {p : String} (hp : isAbsolute p = false) (base : String) :
    join base p = base ++ gap base ++ p := by
  unfold join gap
  rw [hp, if_neg Bool.false_ne_true]
  by_cases hbase : base = "" ∨ base.toList.getLast? = some '/'
  · rw [if_pos hbase, if_pos hbase, String.append_empty]
  · rw [if_neg hbase, if_neg hbase]

theorem toList_unsplit_ne_nil {names : List String} (hne : names ≠ [])
    (h : ∀ name ∈ names, IsName name) : (unsplit names).toList ≠ [] := by
  obtain ⟨name, rest, rfl⟩ := List.exists_cons_of_ne_nil hne
  obtain ⟨c, hc⟩ := List.exists_mem_of_ne_nil _ (h name List.mem_cons_self).toList_ne_nil
  exact List.ne_nil_of_mem (mem_toList_unsplit_of_mem List.mem_cons_self hc)

theorem getLast?_unsplit_ne_slash {names : List String} (hne : names ≠ [])
    (h : ∀ name ∈ names, IsName name) : (unsplit names).toList.getLast? ≠ some '/' := by
  obtain ⟨front, last, rfl⟩ : ∃ front last, names = front ++ [last] :=
    ⟨_, _, (List.dropLast_concat_getLast hne).symm⟩
  have hlast := h last (by simp)
  have hsome : last.toList.getLast? = some (last.toList.getLast hlast.toList_ne_nil) :=
    List.getLast?_eq_some_getLast hlast.toList_ne_nil
  have hend : (unsplit (front ++ [last])).toList.getLast? = last.toList.getLast? := by
    by_cases hfront : front = []
    · rw [hfront, List.nil_append, unsplit_singleton]
    · rw [unsplit_append hfront (List.cons_ne_nil last []), unsplit_singleton,
        String.toList_append, List.getLast?_append, hsome, Option.some_or]
  rw [hend]
  exact fun he => hlast.no_slash (List.mem_of_getLast? he)

theorem join_join_unsplit {names : List String} (hne : names ≠ [])
    {name : String} (h : ∀ n ∈ names ++ [name], IsName n) (base : String) :
    join (join base (unsplit names)) name = join base (unsplit (names ++ [name])) := by
  have hnames : ∀ n ∈ names, IsName n := fun n hn => h n (List.mem_append_left [name] hn)
  have hname : isAbsolute name = false := by
    have := not_isAbsolute_unsplit (List.cons_ne_nil name []) (fun n hn => h n (by simp_all))
    rwa [unsplit_singleton] at this
  have hgap : gap (base ++ gap base ++ unsplit names) = "/" := by
    have hlast := getLast?_unsplit_ne_slash hne hnames
    have hsome : (unsplit names).toList ≠ [] := toList_unsplit_ne_nil hne hnames
    unfold gap
    rw [String.toList_append, List.getLast?_append, List.getLast?_eq_some_getLast hsome,
      Option.some_or, ← List.getLast?_eq_some_getLast hsome, if_neg]
    rintro (hempty | hslash)
    · rw [← String.toList_inj, String.toList_append] at hempty
      exact hsome (List.append_eq_nil_iff.1 hempty).2
    · exact hlast hslash
  rw [join_eq (not_isAbsolute_unsplit hne hnames), join_eq hname, hgap,
    join_eq (not_isAbsolute_unsplit (by simp) h),
    unsplit_append hne (List.cons_ne_nil name []), unsplit_singleton]
  simp only [String.append_assoc]

/-- Names put after a base one by one and all at once. -/
theorem foldl_join {names : List String} (hne : names ≠ []) (h : ∀ n ∈ names, IsName n)
    (base : String) : names.foldl join base = join base (unsplit names) := by
  induction names using List.reverseRecOn with
  | nil => exact absurd rfl hne
  | append_singleton names name ih =>
    rw [List.foldl_append, List.foldl_cons, List.foldl_nil]
    by_cases hnames : names = []
    · rw [hnames, List.foldl_nil, List.nil_append, unsplit_singleton]
    · rw [ih hnames fun n hn => h n (List.mem_append_left [name] hn), join_join_unsplit hnames h]

/-! ## Normal forms -/

theorem push_silent {name : String} (h : name = "" ∨ name = ".") (rooted : Bool)
    (stack : List String) : push rooted stack name = stack := by
  unfold push
  exact if_pos h

theorem push_name {name : String} (hsilent : ¬ (name = "" ∨ name = ".")) (habove : name ≠ "..")
    (rooted : Bool) (stack : List String) : push rooted stack name = name :: stack := by
  unfold push
  rw [if_neg hsilent, if_neg habove]

/-- Where nothing is taken back, all names that lead somewhere stay on the stack. -/
theorem foldl_push_kept {names : List String} (h : ".." ∉ names) (rooted : Bool)
    (stack : List String) :
    names.foldl (push rooted) stack =
      (names.filter fun name => name ≠ "" ∧ name ≠ ".").reverse ++ stack := by
  induction names generalizing stack with
  | nil => rfl
  | cons name names ih =>
    obtain ⟨hname, hnames⟩ := not_or.1 (fun hmem => h (List.mem_cons.2 hmem))
    rw [List.foldl_cons, ih hnames]
    by_cases hsilent : name = "" ∨ name = "."
    · rw [push_silent hsilent,
        List.filter_cons_of_neg (by simpa [or_iff_not_imp_left] using hsilent)]
    · rw [push_name hsilent (Ne.symm hname),
        List.filter_cons_of_pos (by simpa using not_or.1 hsilent), List.reverse_cons,
        List.append_assoc, List.singleton_append]

/-- Empty names say nothing. -/
theorem foldl_push_empty {names : List String} (h : ∀ n ∈ names, n = "") (rooted : Bool)
    (stack : List String) : names.foldl (push rooted) stack = stack := by
  have habove : ".." ∉ names := fun hmem => absurd (h ".." hmem) (by decide)
  have hnone : (names.filter fun name => name ≠ "" ∧ name ≠ ".") = [] :=
    List.filter_eq_nil_iff.2 fun n hn => by simp [h n hn]
  rw [foldl_push_kept habove, hnone]
  rfl

theorem foldl_push_names {names : List String} (h : ∀ n ∈ names, IsName n) (rooted : Bool)
    (stack : List String) : names.foldl (push rooted) stack = names.reverse ++ stack := by
  have habove : ".." ∉ names := fun hmem => (h ".." hmem).2.2.1 rfl
  rw [foldl_push_kept habove, List.filter_eq_self.2]
  intro name hname
  obtain ⟨hempty, hhere, -⟩ := h name hname
  exact decide_eq_true ⟨hempty, hhere⟩

/-- The names of a path stand after those of the base, less the empty one that a slash at the end of
the base leaves. -/
theorem split_join {p : String} (hp : isAbsolute p = false) (base : String) :
    ∃ front rest, (∀ n ∈ rest, n = "") ∧ split base = front ++ rest ∧
      split (join base p) = front ++ split p := by
  rw [join_eq hp]
  by_cases hempty : base = ""
  · refine ⟨[], [""], by simp, ?_, ?_⟩
    · rw [hempty]
      decide
    · rw [hempty]
      rfl
  · by_cases hlast : base.toList.getLast? = some '/'
    · obtain ⟨front, hfront⟩ : ∃ front : String, base = front ++ "/" := by
        obtain ⟨chars, hchars⟩ := List.getLast?_eq_some_iff.1 hlast
        exact ⟨String.ofList chars, by rw [← String.toList_inj, hchars]; simp⟩
      have hgap : gap base = "" := if_pos (Or.inr hlast)
      have hsplit : split (front ++ "/") = split front ++ [""] := by
        have := split_append_slash front ""
        rwa [String.append_empty] at this
      refine ⟨split front, [""], by simp, by rw [hfront, hsplit], ?_⟩
      rw [hgap, String.append_empty, hfront, split_append_slash]
    · have hgap : gap base = "/" := if_neg (not_or.2 ⟨hempty, hlast⟩)
      exact ⟨split base, [], by simp, by simp, by rw [hgap, split_append_slash]⟩

theorem foldl_push_split_join {p : String} (hp : isAbsolute p = false) (rooted : Bool)
    (base : String) (stack : List String) :
    (split (join base p)).foldl (push rooted) stack =
      (split p).foldl (push rooted) ((split base).foldl (push rooted) stack) := by
  obtain ⟨front, rest, hrest, hbase, hjoin⟩ := split_join hp base
  rw [hjoin, hbase, List.foldl_append, List.foldl_append, foldl_push_empty hrest]

theorem Root.ofChars_append {base : List Char} (hbase : base ≠ []) {after : List Char}
    (h : base.getLast? = some '/' → after.head? ≠ some '/') :
    Root.ofChars (base ++ after) = Root.ofChars base := by
  -- Only the slashes at the start count, and `after` does not add to them.
  rcases base with _ | ⟨a, _ | ⟨b, _ | ⟨c, base⟩⟩⟩
  · exact absurd rfl hbase
  · by_cases ha : a = '/'
    · subst ha
      rcases after with _ | ⟨d, after⟩
      · rfl
      · have hd : d ≠ '/' := by simpa using h rfl
        simp [Root.ofChars, hd]
    · simp [Root.ofChars, ha]
  · by_cases ha : a = '/'
    · by_cases hb : b = '/'
      · subst ha hb
        rcases after with _ | ⟨d, after⟩
        · rfl
        · have hd : d ≠ '/' := by simpa using h rfl
          simp [Root.ofChars, hd]
      · simp [Root.ofChars, ha, hb]
    · simp [Root.ofChars, ha]
  · by_cases ha : a = '/'
    · by_cases hb : b = '/'
      · by_cases hc : c = '/' <;> simp [Root.ofChars, ha, hb, hc]
      · simp [Root.ofChars, ha, hb]
    · simp [Root.ofChars, ha]

theorem root_join {p : String} (hp : isAbsolute p = false) (base : String) :
    root (join base p) = root base := by
  have hhead : p.toList.head? ≠ some '/' := by
    rw [Ne, ← isAbsolute_iff, hp]
    exact Bool.false_ne_true
  rw [join_eq hp, root, root]
  by_cases hempty : base = ""
  · have hrelative : root p = .relative := by simpa [isAbsolute] using hp
    have hjoined : "" ++ gap "" ++ p = p := String.empty_append
    rw [hempty, hjoined]
    exact hrelative
  · have hbase : base.toList ≠ [] := fun he => hempty (String.toList_eq_nil_iff.1 he)
    rw [String.append_assoc, String.toList_append]
    refine Root.ofChars_append hbase fun hlast => ?_
    have hgap : gap base = "" := if_pos (Or.inr hlast)
    rw [hgap, String.empty_append]
    exact hhead

theorem mem_push {rooted : Bool} {stack : List String} {name n : String}
    (h : n ∈ push rooted stack name) : n ∈ stack ∨ n = name := by
  unfold push at h
  split at h
  · exact Or.inl h
  · split at h
    · rename_i habove
      split at h
      · split at h
        · exact absurd h List.not_mem_nil
        · exact Or.inr ((List.mem_singleton.1 h).trans habove.symm)
      · split at h
        · rcases List.mem_cons.1 h with rfl | h
          · exact Or.inr habove.symm
          · exact Or.inl h
        · exact Or.inl (List.mem_cons_of_mem _ h)
    · exact (List.mem_cons.1 h).symm

theorem mem_of_mem_collapse {rooted : Bool} {names : List String} {name : String}
    (h : name ∈ collapse rooted names) : name ∈ names := by
  have hfold : ∀ stack, name ∈ names.foldl (push rooted) stack → name ∈ stack ∨ name ∈ names := by
    clear h
    induction names with
    | nil => exact fun stack h => Or.inl h
    | cons first names ih =>
      intro stack h
      rcases ih (push rooted stack first) h with h | h
      · rcases mem_push h with h | rfl
        · exact Or.inl h
        · exact Or.inr List.mem_cons_self
      · exact Or.inr (List.mem_cons_of_mem first h)
  rcases hfold [] (List.mem_reverse.1 h) with h | h
  · exact absurd h List.not_mem_nil
  · exact h

/-- Below a base, the names of a path all stay in its normal form. -/
theorem normalForm_join_unsplit {names : List String} (hne : names ≠ [])
    (h : ∀ n ∈ names, IsName n) (base : String) :
    normalForm (join base (unsplit names)) =
      (root base).text ++ unsplit (collapse (isAbsolute base) (split base) ++ names) := by
  have hp := not_isAbsolute_unsplit hne h
  have hroot : isAbsolute (join base (unsplit names)) = isAbsolute base := by
    rw [isAbsolute, isAbsolute, root_join hp]
  have hcollapse : collapse (isAbsolute base) (split (join base (unsplit names))) =
      collapse (isAbsolute base) (split base) ++ names := by
    rw [collapse, foldl_push_split_join hp, split_unsplit hne fun n hn => (h n hn).no_slash,
      foldl_push_names h, List.reverse_append, List.reverse_reverse, collapse]
  obtain ⟨name, hname⟩ := List.exists_mem_of_ne_nil names hne
  obtain ⟨c, hc⟩ := List.exists_mem_of_ne_nil _ (h name hname).toList_ne_nil
  have hmem : c ∈ (unsplit (collapse (isAbsolute base) (split base) ++ names)).toList :=
    mem_toList_unsplit_of_mem (List.mem_append_right _ hname) hc
  rw [normalForm, hroot, hcollapse, root_join hp, orHere, if_neg]
  intro hempty
  rw [← String.toList_inj, String.toList_append] at hempty
  exact List.ne_nil_of_mem hmem (List.append_eq_nil_iff.1 hempty).2

theorem toSlashes_eq_self {p : String} (h : '\\' ∉ p.toList) : toSlashes p = p := by
  rw [← String.toList_inj, toSlashes, String.toList_ofList]
  have hid : ∀ c ∈ p.toList, (if c = '\\' then '/' else c) = c := by
    intro c hc
    exact if_neg fun he : c = '\\' => h (he ▸ hc)
  rw [List.map_congr_left hid, List.map_id']

theorem no_backslash_unsplit {names : List String} (h : ∀ n ∈ names, '\\' ∉ n.toList) :
    '\\' ∉ (unsplit names).toList := by
  intro hmem
  rcases mem_toList_unsplit hmem with heq | ⟨name, hname, hc⟩
  · exact absurd heq (by decide)
  · exact h name hname hc

theorem normalize_join_unsplit {names : List String} (hne : names ≠ [])
    (h : ∀ n ∈ names, IsPlain n) (base : String) (hbase : '\\' ∉ base.toList) :
    normalize (join base (unsplit names)) =
      (root base).text ++ unsplit (collapse (isAbsolute base) (split base) ++ names) := by
  rw [normalize, normalForm_join_unsplit hne fun n hn => (h n hn).1]
  refine toSlashes_eq_self ?_
  rw [String.toList_append, List.mem_append, not_or]
  refine ⟨?_, no_backslash_unsplit fun n hn => ?_⟩
  · cases root base <;> decide
  · rcases List.mem_append.1 hn with hn | hn
    · exact fun hc => hbase (mem_toList_of_mem_split (mem_of_mem_collapse hn) hc)
    · exact (h n hn).2

theorem normalize_unsplit {names : List String} (hne : names ≠ [])
    (h : ∀ n ∈ names, IsPlain n) : normalize (unsplit names) = unsplit names := by
  have hjoin : join "" (unsplit names) = unsplit names := by
    rw [join_eq (not_isAbsolute_unsplit hne fun n hn => (h n hn).1)]
    exact String.empty_append
  have hnormal := normalize_join_unsplit hne h "" (by decide)
  rw [hjoin] at hnormal
  rw [hnormal]
  exact String.empty_append

/-- Different names below one base lead to different normal forms. -/
theorem normalize_join_unsplit_inj {names names' : List String} (hne : names ≠ [])
    (hne' : names' ≠ []) (h : ∀ n ∈ names, IsPlain n) (h' : ∀ n ∈ names', IsPlain n)
    {base : String} (hbase : '\\' ∉ base.toList)
    (heq : normalize (join base (unsplit names)) = normalize (join base (unsplit names'))) :
    names = names' := by
  rw [normalize_join_unsplit hne h base hbase, normalize_join_unsplit hne' h' base hbase,
    String.append_right_inj] at heq
  have hslash : ∀ ns : List String, (∀ n ∈ ns, IsPlain n) →
      ∀ n ∈ collapse (isAbsolute base) (split base) ++ ns, '/' ∉ n.toList := by
    intro ns hns n hn
    rcases List.mem_append.1 hn with hn | hn
    · exact no_slash_of_mem_split (mem_of_mem_collapse hn)
    · exact (hns n hn).1.no_slash
  have hsplit := congrArg split heq
  rw [split_unsplit (by simp [hne]) (hslash names h),
    split_unsplit (by simp [hne']) (hslash names' h')] at hsplit
  exact List.append_cancel_left hsplit

end SuiteLint.Path
