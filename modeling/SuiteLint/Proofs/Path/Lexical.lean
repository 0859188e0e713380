import SuiteLint.Proofs.Path.Characters
import SuiteLint.Proofs.Path.Normal

/-!
# Normal paths

A path is normal if nothing in it is superfluous: no empty name and no `.`, a `..` only where it
takes back no name of the path, and one slash at its start where more would say the same. Normal
paths are exactly those that normalizing leaves as they are, and every normal form is one. Inside a
longer path, a path may be replaced by its normal form; no link is looked at for this, so it is a law
about spellings and not about files.
-/

namespace SuiteLint.Path

/-! ## Slashes at the start -/

def leadingSlashes (p : String) : Nat :=
  (p.toList.takeWhile (· = '/')).length

/-- What follows the slashes at the start. -/
def body (p : String) : String :=
  String.ofList (p.toList.dropWhile (· = '/'))

theorem leadingSlashes_text_append (r : Root) {q : String} (hq : isAbsolute q = false) :
    leadingSlashes (r.text ++ q) = r.text.toList.length ∧ body (r.text ++ q) = q := by
  have hslashes : ∀ c ∈ r.text.toList, decide (c = '/') = true := by
    cases r <;> simp [Root.text]
  have hhead : ¬ q.toList.head? = some '/' := by
    rw [← isAbsolute_iff, hq]
    exact Bool.false_ne_true
  have hnone : q.toList.takeWhile (· = '/') = [] ∧ q.toList.dropWhile (· = '/') = q.toList := by
    cases hchars : q.toList with
    | nil => exact ⟨rfl, rfl⟩
    | cons c rest =>
      have hc : ¬ decide (c = '/') = true := by
        rw [decide_eq_true_iff]
        rintro rfl
        exact hhead (by rw [hchars, List.head?_cons])
      exact ⟨List.takeWhile_cons_of_neg hc, List.dropWhile_cons_of_neg hc⟩
  constructor
  · rw [leadingSlashes, String.toList_append, List.takeWhile_append_of_pos hslashes, hnone.1,
      List.append_nil]
  · rw [body, String.toList_append, List.dropWhile_append_of_pos hslashes, hnone.2,
      String.ofList_toList]

/-- Three or more slashes count as one. -/
theorem toList_text_root (p : String) :
    (root p).text.toList =
      if leadingSlashes p ≤ 2 then p.toList.takeWhile (· = '/') else ['/'] := by
  rw [root, leadingSlashes]
  rcases p.toList with _ | ⟨a, _ | ⟨b, _ | ⟨c, rest⟩⟩⟩
  · rfl
  · by_cases ha : a = '/' <;> simp [Root.ofChars, Root.text, ha]
  · by_cases ha : a = '/' <;> by_cases hb : b = '/' <;> simp [Root.ofChars, Root.text, ha, hb]
  · by_cases ha : a = '/' <;> by_cases hb : b = '/' <;> by_cases hc : c = '/' <;>
      simp [Root.ofChars, Root.text, ha, hb, hc]

theorem isAbsolute_iff_leadingSlashes {p : String} :
    isAbsolute p = true ↔ 0 < leadingSlashes p := by
  rw [isAbsolute_iff, leadingSlashes]
  cases p.toList with
  | nil => exact ⟨nofun, nofun⟩
  | cons c rest => by_cases hc : c = '/' <;> simp [hc]

theorem text_root_append_body {p : String} (h : leadingSlashes p ≤ 2) :
    (root p).text ++ body p = p := by
  rw [← String.toList_inj, String.toList_append, toList_text_root, if_pos h, body,
    String.toList_ofList, List.takeWhile_append_dropWhile]

/-- The slashes at the start have only empty names between them. -/
theorem split_eq_append_body (p : String) :
    ∃ front, (∀ n ∈ front, n = "") ∧ split p = front ++ split (body p) := by
  rw [split, split, body, String.toList_ofList]
  induction p.toList with
  | nil => exact ⟨[], List.forall_mem_nil _, rfl⟩
  | cons c rest ih =>
    by_cases hc : c = '/'
    · obtain ⟨front, hfront, hrest⟩ := ih
      refine ⟨"" :: front, List.forall_mem_cons.2 ⟨rfl, hfront⟩, ?_⟩
      rw [List.dropWhile_cons_of_pos (by simpa using hc), List.splitOn_cons_eq_if_modifyHead,
        if_pos (by simpa using hc), List.map_cons, hrest]
      rfl
    · refine ⟨[], List.forall_mem_nil _, ?_⟩
      rw [List.dropWhile_cons_of_neg (by simpa using hc), List.nil_append]

/-- After a slash at the end stands an empty name. -/
theorem empty_mem_split_body {p : String} (h : p.toList.getLast? = some '/') :
    "" ∈ split (body p) := by
  by_cases hbody : body p = ""
  · rw [hbody]
    decide
  · have hchars : (body p).toList ≠ [] := fun he => hbody (String.toList_eq_nil_iff.1 he)
    have hlast : (body p).toList.getLast? = some '/' := by
      have hparts : p.toList.takeWhile (· = '/') ++ (body p).toList = p.toList := by
        rw [body, String.toList_ofList, List.takeWhile_append_dropWhile]
      rw [← hparts, List.getLast?_append, List.getLast?_eq_some_getLast hchars, Option.some_or] at h
      rwa [List.getLast?_eq_some_getLast hchars]
    obtain ⟨front, hfront⟩ := List.getLast?_eq_some_iff.1 hlast
    have hends : body p = String.ofList front ++ "/" ++ "" := by
      rw [← String.toList_inj, hfront]
      simp
    rw [hends, split_append_slash]
    exact List.mem_append_right _ (by decide)

/-! ## Names on the stack -/

/-- A run of `..`, which is empty below a root, and then names that lead down. -/
def Descends (rooted : Bool) (names : List String) : Prop :=
  ∃ ups downs, names = List.replicate ups ".." ++ downs ∧ ".." ∉ downs ∧ (rooted = true → ups = 0)

theorem push_above_cons {top : String} (htop : top ≠ "..") (rooted : Bool) (below : List String) :
    push rooted (top :: below) ".." = below := by
  show (if top = ".." then ".." :: top :: below else below) = below
  exact if_neg htop

/-- Nothing is taken back from a run of `..`. -/
theorem push_above_replicate (ups : Nat) :
    push false (List.replicate ups "..") ".." = List.replicate (ups + 1) ".." := by
  cases ups <;> rfl

theorem descends_push {rooted : Bool} {stack : List String} (h : Descends rooted stack.reverse)
    (name : String) : Descends rooted (push rooted stack name).reverse := by
  by_cases hsilent : name = "" ∨ name = "."
  · rwa [push_silent hsilent]
  obtain ⟨ups, downs, hnames, hdowns, hups⟩ := h
  by_cases habove : name = ".."
  · have hstack : stack = downs.reverse ++ List.replicate ups ".." := by
      rw [← List.reverse_reverse stack, hnames, List.reverse_append, List.reverse_replicate]
    rw [habove, hstack]
    -- What `..` takes back is the last of the names that lead down, if there is one.
    rcases List.eq_nil_or_concat downs with rfl | ⟨front, last, rfl⟩
    · rw [List.reverse_nil, List.nil_append]
      cases rooted with
      | true =>
        rw [hups rfl]
        exact ⟨0, [], rfl, List.not_mem_nil, fun _ => rfl⟩
      | false =>
        rw [push_above_replicate, List.reverse_replicate]
        exact ⟨ups + 1, [], (List.append_nil _).symm, List.not_mem_nil, nofun⟩
    · rw [List.concat_eq_append, List.mem_append, List.mem_singleton, not_or] at hdowns
      rw [List.concat_eq_append, List.reverse_append, List.reverse_singleton, List.singleton_append,
        List.cons_append, push_above_cons (Ne.symm hdowns.2), List.reverse_append,
        List.reverse_reverse, List.reverse_replicate]
      exact ⟨ups, front, rfl, hdowns.1, hups⟩
  · refine ⟨ups, downs ++ [name], ?_, ?_, hups⟩
    · rw [push_name hsilent habove, List.reverse_cons, hnames, List.append_assoc]
    · rw [List.mem_append, List.mem_singleton, not_or]
      exact ⟨hdowns, Ne.symm habove⟩

theorem descends_collapse (rooted : Bool) (names : List String) :
    Descends rooted (collapse rooted names) := by
  rw [collapse]
  induction names using List.reverseRecOn with
  | nil => exact ⟨0, [], rfl, List.not_mem_nil, fun _ => rfl⟩
  | append_singleton names name ih =>
    rw [List.foldl_append, List.foldl_cons, List.foldl_nil]
    exact descends_push ih name

/-- Names in which nothing is superfluous all stay. -/
theorem collapse_eq_self {rooted : Bool} {names : List String} (h : Descends rooted names)
    (hkept : ∀ n ∈ names, n ≠ "" ∧ n ≠ ".") : collapse rooted names = names := by
  obtain ⟨ups, downs, rfl, hdowns, hups⟩ := h
  have hrun : (List.replicate ups "..").foldl (push rooted) [] = List.replicate ups ".." := by
    cases rooted with
    | true => rw [hups rfl]; rfl
    | false =>
      clear hups hkept
      induction ups with
      | zero => rfl
      | succ ups ih =>
        rw [List.replicate_succ', List.foldl_append, ih, List.foldl_cons, List.foldl_nil,
          push_above_replicate, List.replicate_succ']
  have hall : (downs.filter fun name => name ≠ "" ∧ name ≠ ".") = downs :=
    List.filter_eq_self.2 fun n hn => decide_eq_true (hkept n (List.mem_append_right _ hn))
  rw [collapse, List.foldl_append, hrun, foldl_push_kept hdowns, hall, List.reverse_append,
    List.reverse_reverse, List.reverse_replicate]

/-- One name put on a stack, and the stack put on another. -/
theorem foldl_push_push {top : List String} (htop : ∀ n ∈ top, n ≠ "" ∧ n ≠ ".") (name : String)
    (rooted : Bool) (stack : List String) :
    (push false top name).reverse.foldl (push rooted) stack =
      push rooted (top.reverse.foldl (push rooted) stack) name := by
  by_cases hsilent : name = "" ∨ name = "."
  · rw [push_silent hsilent, push_silent hsilent]
  by_cases habove : name = ".."
  · subst habove
    cases top with
    | nil => rfl
    | cons last rest =>
      by_cases hlast : last = ".."
      · subst hlast
        have hpush : push false (".." :: rest) ".." = ".." :: ".." :: rest := rfl
        rw [hpush, List.reverse_cons, List.foldl_append, List.foldl_cons, List.foldl_nil]
      · -- The name that is taken back was put on the other stack right before.
        have hname : ¬ (last = "" ∨ last = ".") := not_or.2 (htop last List.mem_cons_self)
        rw [push_above_cons hlast, List.reverse_cons, List.foldl_append, List.foldl_cons,
          List.foldl_nil, push_name hname hlast, push_above_cons hlast]
  · rw [push_name hsilent habove, List.reverse_cons, List.foldl_append, List.foldl_cons,
      List.foldl_nil]

/-- On top of other names, names do what their normal form does. -/
theorem foldl_push_collapse (names : List String) (rooted : Bool) (stack : List String) :
    (collapse false names).foldl (push rooted) stack = names.foldl (push rooted) stack := by
  rw [collapse]
  induction names using List.reverseRecOn with
  | nil => rfl
  | append_singleton names name ih =>
    rw [List.foldl_append, List.foldl_cons, List.foldl_nil,
      foldl_push_push (foldl_push_ne false names), ih, List.foldl_append, List.foldl_cons,
      List.foldl_nil]

/-! ## Normal paths -/

/-- A path in which nothing is superfluous. -/
structure IsNormal (p : String) : Prop where
  ne_empty : p ≠ ""
  no_here : "." ∈ split p → p = "."
  slashes : leadingSlashes p ≤ 2
  no_empty : "" ∈ split (body p) → p = "/" ∨ p = "//"
  no_trailing : p.toList.getLast? = some '/' → p = "/" ∨ p = "//"
  descends : Descends (isAbsolute p) (split (body p))

theorem isNormal_bare {p : String} (h : p = "." ∨ p = "/" ∨ p = "//") : IsNormal p := by
  rcases h with rfl | rfl | rfl <;>
    exact ⟨by decide, by decide, by decide, by decide, by decide, 0, _, rfl, by decide, fun _ => rfl⟩

theorem not_isAbsolute_unsplit_kept {names : List String} (h : ∀ n ∈ names, IsKept n) :
    isAbsolute (unsplit names) = false := by
  cases names with
  | nil => decide
  | cons name rest =>
    have hname := h name List.mem_cons_self
    exact not_isAbsolute_unsplit_cons hname.ne_empty hname.no_slash rest

/-- What normal paths look like. -/
theorem isNormal_text_unsplit {r : Root} {names : List String} (h : ∀ n ∈ names, IsKept n)
    (hsome : names ≠ [] ∨ r ≠ .relative) (hdescends : Descends (r != .relative) names) :
    IsNormal (r.text ++ unsplit names) := by
  obtain ⟨hslashes, hbody⟩ := leadingSlashes_text_append r (not_isAbsolute_unsplit_kept h)
  have hrooted : isAbsolute (r.text ++ unsplit names) = (r != .relative) := by
    rw [Bool.eq_iff_iff, isAbsolute_iff_leadingSlashes, hslashes]
    cases r <;> decide
  by_cases hnames : names = []
  · subst hnames
    cases r with
    | relative => exact absurd rfl (hsome.resolve_left (absurd rfl))
    | single => exact isNormal_bare (.inr (.inl rfl))
    | double => exact isNormal_bare (.inr (.inr rfl))
  · have hsplit : split (unsplit names) = names :=
      split_unsplit hnames fun n hn => (h n hn).no_slash
    have hempty : "" ∉ split (body (r.text ++ unsplit names)) := by
      rw [hbody, hsplit]
      exact fun hmem => (h "" hmem).ne_empty rfl
    refine ⟨?_, ?_, ?_, fun hmem => absurd hmem hempty,
      fun hlast => absurd (empty_mem_split_body hlast) hempty, ?_⟩
    · intro hp
      rw [hp] at hempty
      exact hempty (by decide)
    · intro hmem
      obtain ⟨front, hfront, hall⟩ := split_text_unsplit hnames h r
      rw [hall, List.mem_append] at hmem
      rcases hmem with hmem | hmem
      · exact absurd (hfront "." hmem) (by decide)
      · exact absurd rfl (h "." hmem).ne_here
    · rw [hslashes]
      cases r <;> decide
    · rwa [hrooted, hbody, hsplit]

theorem IsNormal.normalForm_eq {p : String} (h : IsNormal p) : normalForm p = p := by
  obtain ⟨front, hfront, hsplit⟩ := split_eq_append_body p
  by_cases hempty : "" ∈ split (body p)
  · rcases h.no_empty hempty with rfl | rfl <;> decide
  by_cases hhere : "." ∈ split (body p)
  · have hp : p = "." := h.no_here (hsplit ▸ List.mem_append_right front hhere)
    rw [hp]
    decide
  have hkept : ∀ n ∈ split (body p), n ≠ "" ∧ n ≠ "." := fun n hn =>
    ⟨fun he => hempty (he ▸ hn), fun he => hhere (he ▸ hn)⟩
  have hcollapse : collapse (isAbsolute p) (split p) = split (body p) := by
    rw [hsplit, collapse, List.foldl_append, foldl_push_empty hfront]
    exact collapse_eq_self h.descends hkept
  rw [normalForm, hcollapse, unsplit_split, text_root_append_body h.slashes, orHere,
    if_neg h.ne_empty]

/-- The normal form of a path is the current directory, or starts like the path and goes on with
what stayed on the stack. -/
theorem normalForm_cases (p : String) :
    normalForm p = "." ∧ root p = .relative ∧ collapse false (split p) = [] ∨
      normalForm p = (root p).text ++ unsplit (collapse (isAbsolute p) (split p)) ∧
        (collapse (isAbsolute p) (split p) ≠ [] ∨ root p ≠ .relative) := by
  by_cases hhere : collapse (isAbsolute p) (split p) = [] ∧ root p = .relative
  · obtain ⟨hcollapse, hroot⟩ := hhere
    have hrelative : isAbsolute p = false := by rw [isAbsolute, hroot]; rfl
    refine .inl ⟨?_, hroot, hrelative ▸ hcollapse⟩
    rw [normalForm, hcollapse, hroot]
    rfl
  · have hsome := not_and_or.1 hhere
    refine .inr ⟨?_, hsome⟩
    have hnormal := isNormal_text_unsplit (fun n hn => isKept_of_mem_collapse hn) hsome
      (descends_collapse (isAbsolute p) (split p))
    rw [normalForm, orHere, if_neg hnormal.ne_empty]

theorem isNormal_normalForm (p : String) : IsNormal (normalForm p) := by
  rcases normalForm_cases p with ⟨hform, -, -⟩ | ⟨hform, hsome⟩
  · exact isNormal_bare (.inl hform)
  · rw [hform]
    exact isNormal_text_unsplit (fun n hn => isKept_of_mem_collapse hn) hsome
      (descends_collapse (isAbsolute p) (split p))

theorem normalForm_eq_self_iff {p : String} : normalForm p = p ↔ IsNormal p := by
  constructor
  · intro h
    rw [← h]
    exact isNormal_normalForm p
  · exact IsNormal.normalForm_eq

theorem leadingSlashes_normalForm (p : String) :
    leadingSlashes (normalForm p) = if leadingSlashes p ≤ 2 then leadingSlashes p else 1 := by
  have hroot : (root p).text.toList.length =
      if leadingSlashes p ≤ 2 then leadingSlashes p else 1 := by
    rw [toList_text_root]
    split <;> rfl
  rw [← hroot]
  rcases normalForm_cases p with ⟨hform, hrelative, -⟩ | ⟨hform, -⟩
  · rw [hform, hrelative]
    decide
  · rw [hform]
    exact (leadingSlashes_text_append _ (not_isAbsolute_unsplit_kept fun n hn =>
      isKept_of_mem_collapse hn)).1

theorem isAbsolute_normalForm (p : String) : isAbsolute (normalForm p) = isAbsolute p := by
  rw [Bool.eq_iff_iff, isAbsolute_iff_leadingSlashes, isAbsolute_iff_leadingSlashes,
    leadingSlashes_normalForm]
  split <;> omega

/-! ## Normal forms inside longer paths -/

theorem foldl_push_split_normalForm {p : String} (hp : isAbsolute p = false) (rooted : Bool)
    (stack : List String) :
    (split (normalForm p)).foldl (push rooted) stack = (split p).foldl (push rooted) stack := by
  rw [← foldl_push_collapse (split p)]
  rcases normalForm_cases p with ⟨hform, -, hcollapse⟩ | ⟨hform, hsome⟩
  · rw [hform, hcollapse, show split "." = ["."] by decide]
    rfl
  · have hrelative : root p = .relative := by simpa [isAbsolute] using hp
    rw [hp] at hform hsome
    have hne : collapse false (split p) ≠ [] := hsome.resolve_right (absurd hrelative)
    rw [hform, hrelative, Root.text, String.empty_append,
      split_unsplit hne fun n hn => (isKept_of_mem_collapse hn).no_slash]

theorem normalForm_congr {p q : String} (hroot : root p = root q)
    (hcollapse : collapse (isAbsolute p) (split p) = collapse (isAbsolute p) (split q)) :
    normalForm p = normalForm q := by
  have hrooted : isAbsolute p = isAbsolute q := by rw [isAbsolute, isAbsolute, hroot]
  rw [normalForm, normalForm, hcollapse, hroot, hrooted]

/-- Below a base, a path may be replaced by its normal form. -/
theorem normalForm_join_normalForm (base p : String) :
    normalForm (join base (normalForm p)) = normalForm (join base p) := by
  have hnormal := isAbsolute_normalForm p
  cases hp : isAbsolute p with
  | true =>
    rw [hp] at hnormal
    have hjoin : join base p = p := if_pos hp
    have hjoin' : join base (normalForm p) = normalForm p := if_pos hnormal
    rw [hjoin, hjoin', (isNormal_normalForm p).normalForm_eq]
  | false =>
    rw [hp] at hnormal
    refine normalForm_congr ?_ ?_
    · rw [root_join hnormal, root_join hp]
    · rw [collapse, collapse, foldl_push_split_join hnormal, foldl_push_split_join hp,
        foldl_push_split_normalForm hp]

/-! ## Paths without backslashes -/

theorem normalize_eq_normalForm {p : String} (h : '\\' ∉ p.toList) : normalize p = normalForm p :=
  toSlashes_eq_self (not_mem_normalForm (by decide) (by decide) h)

/-- Normalizing gives a normal path and changes no path that is normal already. It keeps the slashes
at the start, three or more of them as one. Doing it twice is doing it once, and it makes no
difference to a longer path whether its last part was normalized before. -/
theorem normalize_lexical {p : String} (h : '\\' ∉ p.toList) :
    IsNormal (normalize p) ∧ (normalize p = p ↔ IsNormal p) ∧
    leadingSlashes (normalize p) = (if leadingSlashes p ≤ 2 then leadingSlashes p else 1) ∧
    normalize (normalize p) = normalize p ∧
    ∀ base, '\\' ∉ base.toList → normalize (join base p) = normalize (join base (normalize p)) := by
  have hform := normalize_eq_normalForm h
  have hnone : '\\' ∉ (normalize p).toList := not_mem_normalize (by decide) (by decide) h
  rw [hform] at hnone ⊢
  refine ⟨isNormal_normalForm p, normalForm_eq_self_iff, leadingSlashes_normalForm p, ?_, ?_⟩
  · rw [normalize_eq_normalForm hnone, (isNormal_normalForm p).normalForm_eq]
  · intro base hbase
    rw [normalize_eq_normalForm (not_mem_join (by decide) hbase h),
      normalize_eq_normalForm (not_mem_join (by decide) hbase hnone), normalForm_join_normalForm]

/-- A path that leads up from where it starts, below a base that cannot be left upwards. -/
theorem normalize_lexical_upwards :
    '\\' ∉ "./../a//../../b/.".toList ∧ '\\' ∉ "//x/y".toList ∧
    IsNormal "../../b" ∧
    normalize (join "//x/y" "./../a//../../b/.") = normalize (join "//x/y" "../../b") := by
  have hpath : '\\' ∉ "./../a//../../b/.".toList := by decide
  have hbase : '\\' ∉ "//x/y".toList := by decide
  have hform : normalize "./../a//../../b/." = "../../b" := by decide
  obtain ⟨hnormal, -, -, -, hjoin⟩ := normalize_lexical hpath
  rw [hform] at hnormal hjoin
  exact ⟨hpath, hbase, hnormal, hjoin _ hbase⟩

end SuiteLint.Path
