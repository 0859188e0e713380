import Mathlib.Data.List.Forall2
import Mathlib.Data.Option.Defs
import SuiteLint.Files.Lookup
import SuiteLint.Proofs.Files.Tree

/-!
# The order of entries

Folders list their entries in an order of their own. Where entries differ in their names, that
order has no part in what a path leads to: two trees that agree name by name answer every lookup
alike.
-/

namespace SuiteLint.Files

/-- The same tree with the entries of some of its folders in another order. -/
inductive Folder.Reordered : Folder → Folder → Prop
  | refl (f : Folder) : Reordered f f
  | swap (a b : String) (e e' : Entry) (rest : Folder) :
    Reordered ((rest.cons b e').cons a e) ((rest.cons a e).cons b e')
  | rest {f g : Folder} (name : String) (e : Entry) (h : Reordered f g) :
    Reordered (f.cons name e) (g.cons name e)
  | inside {f g : Folder} (name : String) (rest : Folder) (h : Reordered f g) :
    Reordered (.folder name f rest) (.folder name g rest)
  | trans {f g k : Folder} (h : Reordered f g) (h' : Reordered g k) : Reordered f k

/-- Two entries that differ in folders that are related only. -/
inductive Entry.Like (R : Folder → Folder → Prop) : Entry → Entry → Prop
  | file (bytes : List UInt8) : Like R (.file bytes) (.file bytes)
  | link (target : String) : Like R (.link target) (.link target)
  | folder {f g : Folder} (h : R f g) : Like R (.folder f) (.folder g)

theorem Entry.Like.refl (e : Entry) : Entry.Like Folder.Reordered e e := by
  cases e with
  | file bytes => exact .file bytes
  | link target => exact .link target
  | folder inside => exact .folder (.refl inside)

theorem Entry.Like.trans {d e e' : Entry} (hd : Entry.Like Folder.Reordered d e)
    (he : Entry.Like Folder.Reordered e e') : Entry.Like Folder.Reordered d e' := by
  cases hd with
  | file bytes => exact he
  | link target => exact he
  | folder hfg =>
    cases he with
    | folder hgk => exact .folder (hfg.trans hgk)

namespace Folder

/-- The same entry, but for the order inside it, or none in both folders. -/
abbrev SameEntry : Option Entry → Option Entry → Prop :=
  Option.Rel (Entry.Like Reordered)

theorem SameEntry.refl (a : Option Entry) : SameEntry a a := by
  cases a with
  | none => exact .none
  | some e => exact .some (.refl e)

theorem SameEntry.trans {a b c : Option Entry} (hab : SameEntry a b) (hbc : SameEntry b c) :
    SameEntry a c := by
  cases hab with
  | none => exact hbc
  | some hd =>
    cases hbc with
    | some he => exact .some (hd.trans he)

theorem SameEntry.eq_none {a b : Option Entry} (h : SameEntry a b) (ha : a = none) : b = none := by
  subst ha
  cases h
  rfl

/-- Another order leaves names apart, and under each name the same entry. -/
theorem Reordered.get? {f g : Folder} (h : Reordered f g) (hf : f.Distinct) :
    g.Distinct ∧ ∀ name, SameEntry (f.get? name) (g.get? name) := by
  induction h with
  | refl f => exact ⟨hf, fun name => SameEntry.refl _⟩
  | swap a b e e' rest =>
    obtain ⟨ha, he, hf⟩ := distinct_cons.1 hf
    obtain ⟨hb, he', hrest⟩ := distinct_cons.1 hf
    have hab : b ≠ a := by
      rintro rfl
      rw [get?_cons_self] at ha
      exact absurd ha nofun
    rw [get?_cons_of_ne hab] at ha
    refine ⟨distinct_cons.2 ⟨?_, he', distinct_cons.2 ⟨ha, he, hrest⟩⟩, fun name => ?_⟩
    · rwa [get?_cons_of_ne hab.symm]
    · have heq : ((rest.cons b e').cons a e).get? name = ((rest.cons a e).cons b e').get? name := by
        simp only [get?_cons]
        by_cases hname : a = name
        · rw [if_pos hname, if_neg (hname ▸ hab), if_pos hname]
        · rw [if_neg hname, if_neg hname]
      rw [heq]
      exact SameEntry.refl _
  | rest name e _ ih =>
    obtain ⟨hname, he, hrest⟩ := distinct_cons.1 hf
    obtain ⟨hdistinct, hget⟩ := ih hrest
    refine ⟨distinct_cons.2 ⟨(hget name).eq_none hname, he, hdistinct⟩, fun n => ?_⟩
    rw [get?_cons, get?_cons]
    split
    · exact .some (.refl e)
    · exact hget n
  | inside name rest h ih =>
    obtain ⟨hname, hinside, hrest⟩ := hf
    refine ⟨⟨hname, (ih hinside).1, hrest⟩, fun n => ?_⟩
    unfold Folder.get?
    split
    · exact .some (.folder h)
    · exact SameEntry.refl _
  | trans _ _ ih ih' =>
    obtain ⟨hg, hget⟩ := ih hf
    obtain ⟨hk, hget'⟩ := ih' hg
    exact ⟨hk, fun name => (hget name).trans (hget' name)⟩

theorem Reordered.every {P : String → Prop} {f g : Folder} (h : Reordered f g)
    (hf : f.Every P) : g.Every P := by
  induction h with
  | refl f => exact hf
  | swap a b e e' rest =>
    obtain ⟨ha, he, hf⟩ := every_cons.1 hf
    obtain ⟨hb, he', hrest⟩ := every_cons.1 hf
    exact every_cons.2 ⟨hb, he', every_cons.2 ⟨ha, he, hrest⟩⟩
  | rest name e _ ih =>
    obtain ⟨hname, he, hrest⟩ := every_cons.1 hf
    exact every_cons.2 ⟨hname, he, ih hrest⟩
  | inside name rest _ ih =>
    obtain ⟨hname, hinside, hrest⟩ := hf
    exact ⟨hname, ih hinside, hrest⟩
  | trans _ _ ih ih' => exact ih' (ih hf)

end Folder

/-! ## Lookups -/

/-- A relation between folders that agree name by name, and so between the folders in them. -/
structure Folder.Agreement (R : Folder → Folder → Prop) : Prop where
  empty : R .empty .empty
  get? : ∀ {f g}, R f g → ∀ name, Option.Rel (Entry.Like R) (f.get? name) (g.get? name)

structure Trail.Like (R : Folder → Folder → Prop) (t t' : Trail) : Prop where
  here : R t.here t'.here
  above : List.Forall₂ R t.above t'.above
  gone : t.gone = t'.gone

/-- Two lookups that come to the same, but for folders that are related. -/
inductive SameAnswer (R : Folder → Folder → Prop) :
    Except Cause Found → Except Cause Found → Prop
  | error (cause : Cause) : SameAnswer R (.error cause) (.error cause)
  | file (bytes : List UInt8) : SameAnswer R (.ok (.file bytes)) (.ok (.file bytes))
  | folder {t t' : Trail} (h : t.Like R t') : SameAnswer R (.ok (.folder t)) (.ok (.folder t'))

section

variable {R : Folder → Folder → Prop} {t t' : Trail}

theorem Trail.Like.parent (h : t.Like R t') : t.parent.Like R t'.parent := by
  obtain ⟨here, above, gone⟩ := t
  obtain ⟨here', above', gone'⟩ := t'
  obtain ⟨hhere, habove, hgone⟩ := h
  cases habove with
  | nil => exact ⟨hhere, .nil, hgone⟩
  | cons hf habove => exact ⟨hf, habove, congrArg (· - 1) hgone⟩

theorem Trail.Like.enter (h : t.Like R t') {f g : Folder} (hfg : R f g) :
    (t.enter f).Like R (t'.enter g) :=
  ⟨hfg, .cons h.here h.above, rfl⟩

theorem forall₂_getLast {fs gs : List Folder} (h : List.Forall₂ R fs gs) (hfs : fs ≠ [])
    (hgs : gs ≠ []) : R (fs.getLast hfs) (gs.getLast hgs) := by
  induction h with
  | nil => exact absurd rfl hfs
  | cons hfg htail ih =>
    cases htail with
    | nil => exact hfg
    | cons hnext htail => exact ih (List.cons_ne_nil _ _) (List.cons_ne_nil _ _)

theorem Trail.Like.top (h : t.Like R t') : t.top.Like R t'.top :=
  ⟨forall₂_getLast (.cons h.here h.above) (List.cons_ne_nil _ _) (List.cons_ne_nil _ _), .nil, rfl⟩

theorem Trail.Like.sink (hR : R .empty .empty) (h : t.Like R t') (gone : Nat) :
    (t.sink gone).Like R (t'.sink gone) := by
  induction gone generalizing t t' with
  | zero => exact h
  | succ gone ih =>
    exact ih ⟨hR, .cons h.here h.above, congrArg (· + 1) h.gone⟩

theorem Trail.Like.along (hR : Folder.Agreement R) (h : t.Like R t') (names : List String) :
    Option.Rel (Trail.Like R) (t.along names) (t'.along names) := by
  induction names generalizing t t' with
  | nil => exact .some h
  | cons name names ih =>
    have hget := hR.get? h.here name
    unfold Trail.along
    generalize t.here.get? name = a, t'.here.get? name = b at hget
    cases hget with
    | none => exact .none
    | some hentry =>
      cases hentry with
      | file bytes => exact .none
      | link target => exact .none
      | folder hfg => exact ih (h.enter hfg)

theorem follow_like (hR : Folder.Agreement R)
    {onLink onLink' : Trail → List String → Except Cause Found}
    (honLink : ∀ {t t' : Trail}, t.Like R t' → ∀ names,
      SameAnswer R (onLink t names) (onLink' t' names))
    (h : t.Like R t') (names : List String) :
    SameAnswer R (follow onLink t names) (follow onLink' t' names) := by
  induction names generalizing t t' with
  | nil => exact .folder h
  | cons name names ih =>
    have hget := hR.get? h.here name
    -- The tests on the name and on `gone` come out the same, so both lookups take one branch.
    unfold follow
    rw [← h.gone]
    generalize t.here.get? name = a, t'.here.get? name = b at hget
    split
    · exact ih h
    split
    · exact ih h.parent
    split
    · exact .error .notFound
    split
    · exact .error .nameTooLong
    cases hget with
    | none => exact .error .notFound
    | some hentry =>
      cases hentry with
      | file bytes =>
        show SameAnswer R (if names.isEmpty then _ else _) (if names.isEmpty then _ else _)
        split
        · exact .file bytes
        · exact .error .notFolder
      | link target =>
        refine honLink ?_ _
        split
        · exact h.top
        · exact h
      | folder hfg => exact ih (h.enter hfg)

theorem followLinks_like (hR : Folder.Agreement R) (links : Nat) (h : t.Like R t')
    (names : List String) :
    SameAnswer R (followLinks links t names) (followLinks links t' names) := by
  induction links generalizing t t' names with
  | zero => exact follow_like hR (fun _ _ => .error .tooManyLinks) h names
  | succ links ih => exact follow_like hR (fun ht names => ih ht names) h names

/-- Trees that agree name by name answer every lookup alike. -/
theorem FileSystem.lookup_like (hR : Folder.Agreement R) {fs : FileSystem} {top : Folder}
    (h : R fs.top top) (path : String) :
    SameAnswer R (fs.lookup path) ({ fs with top := top }.lookup path) := by
  have htop : (Trail.atTop fs.top).Like R (Trail.atTop top) := ⟨h, .nil, rfl⟩
  unfold FileSystem.lookup
  split
  · exact .error .notFound
  split
  · exact .error .nameTooLong
  have hstart : Option.Rel (Trail.Like R) (fs.start? (Path.isAbsolute path))
      ({ fs with top := top }.start? (Path.isAbsolute path)) := by
    unfold FileSystem.start?
    split
    · exact .some htop
    · have halong := htop.along hR fs.cwd
      show Option.Rel _ (((Trail.atTop fs.top).along fs.cwd).map (·.sink fs.gone))
        (((Trail.atTop top).along fs.cwd).map (·.sink fs.gone))
      generalize (Trail.atTop fs.top).along fs.cwd = a, (Trail.atTop top).along fs.cwd = b at halong
      cases halong with
      | none => exact .none
      | some hlike => exact .some (hlike.sink hR.empty fs.gone)
  generalize fs.start? (Path.isAbsolute path) = a,
    FileSystem.start? { fs with top := top } (Path.isAbsolute path) = b at hstart
  cases hstart with
  | none => exact .error .notFound
  | some hlike => exact followLinks_like hR maxLinks hlike _

end

/-- Trees with the same names, each once in its folder, in whatever order. -/
structure Folder.SameTree (P : String → Prop) (f g : Folder) : Prop where
  reordered : f.Reordered g
  distinct : f.Distinct
  every : f.Every P

theorem Folder.agreement_sameTree (P : String → Prop) : Folder.Agreement (Folder.SameTree P) where
  empty := ⟨.refl _, trivial, trivial⟩
  get? := by
    intro f g h name
    have hget := (h.reordered.get? h.distinct).2 name
    cases hentry : f.get? name with
    | none =>
      rw [hget.eq_none hentry]
      exact .none
    | some entry =>
      have hevery := (h.every.of_get? hentry).2
      rw [hentry] at hget
      generalize g.get? name = b at hget
      cases hget with
      | some hlike =>
        refine .some ?_
        cases hlike with
        | file bytes => exact .file bytes
        | link target => exact .link target
        | folder hfg => exact .folder ⟨hfg, h.distinct.of_get? hentry, hevery _ rfl⟩

theorem Folder.Agreement.at? {R : Folder → Folder → Prop} (hR : Folder.Agreement R)
    {f g : Folder} (h : R f g) (way : List String) :
    Option.Rel (Entry.Like R) (f.at? way) (g.at? way) := by
  induction way generalizing f g with
  | nil => exact .some (.folder h)
  | cons name way ih =>
    by_cases hway : way = []
    · rw [hway]
      exact hR.get? h name
    · obtain ⟨n, rest, rfl⟩ := List.exists_cons_of_ne_nil hway
      have hget := hR.get? h name
      unfold Folder.at?
      generalize f.get? name = a, g.get? name = b at hget
      cases hget with
      | none => exact .none
      | some hlike =>
        cases hlike with
        | file bytes => exact .none
        | link target => exact .none
        | folder hfg => exact ih hfg

end SuiteLint.Files
