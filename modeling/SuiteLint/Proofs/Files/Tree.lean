import SuiteLint.Files.Folder

/-!
# The names in a file tree

In the tree of a file system no two entries of a folder have the same name. Then the entry at the
end of a way of names is told by the names alone, and not by the order of the entries.
-/

namespace SuiteLint.Files.Folder

/-- A folder is empty or has a first entry, whatever kind of entry that is. -/
@[elab_as_elim]
theorem cons_induction {motive : Folder → Prop} (empty : motive .empty)
    (cons : ∀ name entry rest, (∀ inside, entry = .folder inside → motive inside) → motive rest →
      motive (rest.cons name entry)) (f : Folder) : motive f := by
  induction f with
  | empty => exact empty
  | file name bytes rest ih => exact cons name (.file bytes) rest (by simp) ih
  | link name target rest ih => exact cons name (.link target) rest (by simp) ih
  | folder name inside rest ihinside ih =>
    refine cons name (.folder inside) rest (fun f hf => ?_) ih
    rw [← Entry.folder.inj hf]
    exact ihinside

theorem get?_cons (name : String) (entry : Entry) (rest : Folder) (n : String) :
    (rest.cons name entry).get? n = if name = n then some entry else rest.get? n := by
  cases entry <;> rfl

theorem get?_cons_self (name : String) (entry : Entry) (rest : Folder) :
    (rest.cons name entry).get? name = some entry := by
  rw [get?_cons, if_pos rfl]

theorem get?_cons_of_ne {name n : String} (h : name ≠ n) (entry : Entry) (rest : Folder) :
    (rest.cons name entry).get? n = rest.get? n := by
  rw [get?_cons, if_neg h]

/-- A property of all names in a tree. -/
def Every (P : String → Prop) : Folder → Prop
  | .empty => True
  | .file name _ rest => P name ∧ rest.Every P
  | .link name _ rest => P name ∧ rest.Every P
  | .folder name inside rest => P name ∧ inside.Every P ∧ rest.Every P

/-- No two entries of one folder have the same name. -/
def Distinct : Folder → Prop
  | .empty => True
  | .file name _ rest => rest.get? name = none ∧ rest.Distinct
  | .link name _ rest => rest.get? name = none ∧ rest.Distinct
  | .folder name inside rest => rest.get? name = none ∧ inside.Distinct ∧ rest.Distinct

instance decidableEvery (P : String → Prop) [DecidablePred P] :
    (f : Folder) → Decidable (f.Every P)
  | .empty => inferInstanceAs (Decidable True)
  | .file name _ rest =>
    have := decidableEvery P rest
    inferInstanceAs (Decidable (P name ∧ rest.Every P))
  | .link name _ rest =>
    have := decidableEvery P rest
    inferInstanceAs (Decidable (P name ∧ rest.Every P))
  | .folder name inside rest =>
    have := decidableEvery P inside
    have := decidableEvery P rest
    inferInstanceAs (Decidable (P name ∧ inside.Every P ∧ rest.Every P))

instance decidableDistinct : (f : Folder) → Decidable f.Distinct
  | .empty => inferInstanceAs (Decidable True)
  | .file name _ rest =>
    have := decidableDistinct rest
    inferInstanceAs (Decidable (rest.get? name = none ∧ rest.Distinct))
  | .link name _ rest =>
    have := decidableDistinct rest
    inferInstanceAs (Decidable (rest.get? name = none ∧ rest.Distinct))
  | .folder name inside rest =>
    have := decidableDistinct inside
    have := decidableDistinct rest
    inferInstanceAs (Decidable (rest.get? name = none ∧ inside.Distinct ∧ rest.Distinct))

theorem every_cons {P : String → Prop} {name : String} {entry : Entry} {rest : Folder} :
    (rest.cons name entry).Every P ↔
      P name ∧ (∀ inside, entry = .folder inside → inside.Every P) ∧ rest.Every P := by
  cases entry <;> simp [cons, Every]

theorem distinct_cons {name : String} {entry : Entry} {rest : Folder} :
    (rest.cons name entry).Distinct ↔
      rest.get? name = none ∧ (∀ inside, entry = .folder inside → inside.Distinct) ∧
        rest.Distinct := by
  cases entry <;> simp [cons, Distinct]

theorem Every.imp₂ {P Q R : String → Prop} (himp : ∀ name, P name → Q name → R name) {f : Folder}
    (hP : f.Every P) (hQ : f.Every Q) : f.Every R := by
  induction f using cons_induction with
  | empty => trivial
  | cons name entry rest ihinside ih =>
    obtain ⟨hname, hentry, hrest⟩ := every_cons.1 hP
    obtain ⟨hname', hentry', hrest'⟩ := every_cons.1 hQ
    exact every_cons.2 ⟨himp name hname hname',
      fun inside heq => ihinside inside heq (hentry inside heq) (hentry' inside heq),
      ih hrest hrest'⟩

theorem Every.of_get? {P : String → Prop} {f : Folder} (h : f.Every P) {name : String}
    {entry : Entry} (hget : f.get? name = some entry) :
    P name ∧ ∀ inside, entry = .folder inside → inside.Every P := by
  induction f using cons_induction with
  | empty => exact absurd hget nofun
  | cons first e rest _ ih =>
    obtain ⟨hfirst, he, hrest⟩ := every_cons.1 h
    by_cases hname : first = name
    · rw [hname, get?_cons_self] at hget
      rw [← Option.some.inj hget, ← hname]
      exact ⟨hfirst, he⟩
    · rw [get?_cons_of_ne hname] at hget
      exact ih hrest hget

theorem Distinct.of_get? {f : Folder} (h : f.Distinct) {name : String} {inside : Folder}
    (hget : f.get? name = some (.folder inside)) : inside.Distinct := by
  induction f using cons_induction with
  | empty => exact absurd hget nofun
  | cons first e rest _ ih =>
    obtain ⟨-, he, hrest⟩ := distinct_cons.1 h
    by_cases hname : first = name
    · rw [hname, get?_cons_self] at hget
      exact he inside (Option.some.inj hget)
    · rw [get?_cons_of_ne hname] at hget
      exact ih hrest hget

theorem at?_cons_of_folder {f inside : Folder} {name : String}
    (h : f.get? name = some (.folder inside)) (way : List String) :
    f.at? (name :: way) = inside.at? way := by
  cases way with
  | nil => exact h
  | cons n way => simp only [at?, h]

/-- A way of more than one name passes through a folder. -/
theorem exists_folder_of_at? {f : Folder} {name : String} {way : List String} (hway : way ≠ [])
    {entry : Entry} (h : f.at? (name :: way) = some entry) :
    ∃ inside, f.get? name = some (.folder inside) ∧ inside.at? way = some entry := by
  obtain ⟨n, way, rfl⟩ := List.exists_cons_of_ne_nil hway
  simp only [at?] at h
  split at h
  · exact ⟨_, ‹_›, h⟩
  · exact absurd h nofun

theorem Every.of_at? {P : String → Prop} {f : Folder} (h : f.Every P) {way : List String}
    {entry : Entry} (hat : f.at? way = some entry) : ∀ name ∈ way, P name := by
  induction way generalizing f with
  | nil => exact fun name hname => absurd hname List.not_mem_nil
  | cons first way ih =>
    by_cases hway : way = []
    · rw [hway] at hat ⊢
      intro name hname
      rw [List.mem_singleton.1 hname]
      exact (h.of_get? hat).1
    · obtain ⟨inside, hget, hinside⟩ := exists_folder_of_at? hway hat
      obtain ⟨hfirst, hevery⟩ := h.of_get? hget
      intro name hname
      rcases List.mem_cons.1 hname with rfl | hname
      · exact hfirst
      · exact ih (hevery inside rfl) hinside name hname

end SuiteLint.Files.Folder
