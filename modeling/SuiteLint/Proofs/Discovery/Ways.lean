import Mathlib.Data.List.Nodup
import SuiteLint.Discovery
import SuiteLint.Proofs.Files.Tree

/-!
# The ways a search takes

A search is followed by the names that lead from its target to what it comes upon. The paths it
lists and the depth it reaches are both read off such ways, which are told by the entries at their
ends and by the directories that they pass.
-/

namespace SuiteLint.Discovery.Search

open Files

variable (s : Search) (picks : String → List String → String → Entry → Bool)

/-- The ways to the entries of a folder, and below it, that are picked. `directory` is the path of
the folder, and `names` lead to it from the target. -/
def ways (directory : String) (names : List String) : Folder → List (List String)
  | .empty => []
  | .file name bytes rest =>
    (if picks directory names name (.file bytes) then [[name]] else []) ++
      ways directory names rest
  | .link name target rest =>
    (if picks directory names name (.link target) then [[name]] else []) ++
      ways directory names rest
  | .folder name inside rest =>
    ((if picks directory names name (.folder inside) then [[name]] else []) ++
      if s.enters names name && fits (Path.join directory name) then
        (ways (Path.join directory name) (names ++ [name]) inside).map (name :: ·) else []) ++
      ways directory names rest

/-- Whether all directories on a way are entered and opened. -/
def passes (directory : String) (names : List String) : List String → Bool
  | [] => true
  | name :: way =>
    (s.enters names name && fits (Path.join directory name)) &&
      passes (Path.join directory name) (names ++ [name]) way

/-- A way leads through directories that are entered and opened to an entry that is picked. -/
def Reaches (directory : String) (names : List String) (f : Folder) (way : List String) : Prop :=
  ∃ front name entry, way = front ++ [name] ∧ f.at? way = some entry ∧
    s.passes directory names front = true ∧
    picks (front.foldl Path.join directory) (names ++ front) name entry = true

variable {s picks} {directory : String} {names : List String}

theorem not_reaches_nil {f : Folder} : ¬ s.Reaches picks directory names f [] := by
  intro hreaches
  obtain ⟨front, name, entry, hway, -⟩ := hreaches
  exact absurd hway (by simp)

/-- The first step of a way. -/
theorem reaches_cons {f : Folder} {name : String} {way : List String} :
    s.Reaches picks directory names f (name :: way) ↔
      (way = [] ∧ ∃ entry, f.get? name = some entry ∧ picks directory names name entry = true) ∨
      ∃ inside, f.get? name = some (.folder inside) ∧
        (s.enters names name && fits (Path.join directory name)) = true ∧
        s.Reaches picks (Path.join directory name) (names ++ [name]) inside way := by
  constructor
  · intro hreaches
    obtain ⟨front, last, entry, hway, hat, hpasses, hpicks⟩ := hreaches
    cases front with
    | nil =>
      obtain ⟨rfl, rfl⟩ := List.cons.inj hway
      rw [List.append_nil] at hpicks
      exact Or.inl ⟨rfl, entry, hat, hpicks⟩
    | cons first front =>
      obtain ⟨rfl, rfl⟩ := List.cons.inj hway
      obtain ⟨inside, hget, hinside⟩ := Folder.exists_folder_of_at? (by simp) hat
      rw [passes, Bool.and_eq_true] at hpasses
      refine Or.inr ⟨inside, hget, hpasses.1, front, last, entry, rfl, hinside, hpasses.2, ?_⟩
      rwa [List.append_assoc, List.singleton_append]
  · rintro (⟨rfl, entry, hget, hpicks⟩ | ⟨inside, hget, henters, front, last, entry, rfl, hat,
      hpasses, hpicks⟩)
    · refine ⟨[], name, entry, rfl, hget, rfl, ?_⟩
      rwa [List.append_nil]
    · refine ⟨name :: front, last, entry, rfl, ?_, ?_, ?_⟩
      · rw [Folder.at?_cons_of_folder hget, hat]
      · rw [passes, henters, hpasses, Bool.and_self]
      · rwa [List.append_assoc, List.singleton_append] at hpicks

/-- The ways that start with a given entry. -/
def waysInto (s : Search) (picks : String → List String → String → Entry → Bool)
    (directory : String) (names : List String) (name : String) (entry : Entry) :
    List (List String) :=
  (if picks directory names name entry then [[name]] else []) ++
    match entry with
    | .folder inside =>
      if s.enters names name && fits (Path.join directory name) then
        (s.ways picks (Path.join directory name) (names ++ [name]) inside).map (name :: ·) else []
    | _ => []

theorem ways_cons (name : String) (entry : Entry) (rest : Folder) :
    s.ways picks directory names (rest.cons name entry) =
      s.waysInto picks directory names name entry ++ s.ways picks directory names rest := by
  cases entry <;> simp [Folder.cons, ways, waysInto]

theorem mem_waysInto {name : String} {entry : Entry} {way : List String} :
    way ∈ s.waysInto picks directory names name entry ↔
      ∃ tail, way = name :: tail ∧ ((tail = [] ∧ picks directory names name entry = true) ∨
        ∃ inside, entry = .folder inside ∧
          (s.enters names name && fits (Path.join directory name)) = true ∧
          tail ∈ s.ways picks (Path.join directory name) (names ++ [name]) inside) := by
  unfold waysInto
  rw [List.mem_append]
  constructor
  · rintro (h | h)
    · split at h
      · exact ⟨[], List.mem_singleton.1 h, Or.inl ⟨rfl, ‹_›⟩⟩
      · exact absurd h List.not_mem_nil
    · split at h
      · split at h
        · obtain ⟨tail, htail, rfl⟩ := List.mem_map.1 h
          exact ⟨tail, rfl, Or.inr ⟨_, rfl, ‹_›, htail⟩⟩
        · exact absurd h List.not_mem_nil
      · exact absurd h List.not_mem_nil
  · rintro ⟨tail, rfl, ⟨rfl, hpicks⟩ | ⟨inside, rfl, henters, htail⟩⟩
    · rw [if_pos hpicks]
      exact Or.inl List.mem_cons_self
    · refine Or.inr ?_
      simp only [henters, ↓reduceIte]
      exact List.mem_map_of_mem htail

/-- Where names tell entries apart, the ways are those that reach an entry. -/
theorem mem_ways {f : Folder} (hf : f.Distinct) {way : List String} :
    way ∈ s.ways picks directory names f ↔ s.Reaches picks directory names f way := by
  induction f using Folder.cons_induction generalizing directory names way with
  | empty =>
    refine ⟨fun h => absurd h List.not_mem_nil, ?_⟩
    cases way with
    | nil => exact fun h => absurd h not_reaches_nil
    | cons name way =>
      rw [reaches_cons]
      rintro (⟨-, entry, hget, -⟩ | ⟨inside, hget, -⟩) <;> exact absurd hget nofun
  | cons first entry rest ihinside ih =>
    obtain ⟨hfirst, hentry, hrest⟩ := Folder.distinct_cons.1 hf
    rw [ways_cons, List.mem_append, mem_waysInto, ih hrest]
    cases way with
    | nil => simp [not_reaches_nil]
    | cons name way =>
      rw [reaches_cons, reaches_cons]
      by_cases hname : first = name
      -- The rest of the folder has no other entry of this name.
      · subst hname
        rw [Folder.get?_cons_self, hfirst]
        constructor
        · rintro (⟨tail, htail, ⟨rfl, hpicks⟩ | ⟨inside, rfl, henters, hmem⟩⟩ | hnone)
          · obtain ⟨-, rfl⟩ := List.cons.inj htail
            exact Or.inl ⟨rfl, entry, rfl, hpicks⟩
          · obtain ⟨-, rfl⟩ := List.cons.inj htail
            exact Or.inr ⟨inside, rfl, henters,
              (ihinside inside rfl (hentry inside rfl)).1 hmem⟩
          · rcases hnone with ⟨-, e, hget, -⟩ | ⟨inside, hget, -⟩ <;> exact absurd hget nofun
        · rintro (⟨rfl, e, hget, hpicks⟩ | ⟨inside, hget, henters, hreaches⟩)
          · obtain rfl := Option.some.inj hget
            exact Or.inl ⟨[], rfl, Or.inl ⟨rfl, hpicks⟩⟩
          · obtain rfl := Option.some.inj hget
            exact Or.inl ⟨way, rfl, Or.inr ⟨inside, rfl, henters,
              (ihinside inside rfl (hentry inside rfl)).2 hreaches⟩⟩
      · rw [Folder.get?_cons_of_ne hname]
        refine ⟨?_, Or.inr⟩
        rintro (⟨tail, htail, -⟩ | h)
        · exact absurd (List.cons.inj htail).1.symm hname
        · exact h

theorem nodup_waysInto {name : String} {entry : Entry}
    (hentry : ∀ inside, entry = .folder inside → inside.Distinct)
    (h : ∀ inside, entry = .folder inside →
      (s.ways picks (Path.join directory name) (names ++ [name]) inside).Nodup) :
    (s.waysInto picks directory names name entry).Nodup := by
  unfold waysInto
  refine List.Nodup.append ?_ ?_ ?_
  · split
    · exact List.nodup_singleton _
    · exact List.nodup_nil
  · split
    · split
      · exact (h _ rfl).map List.cons_injective
      · exact List.nodup_nil
    · exact List.nodup_nil
  -- The way to the folder itself is shorter than those into it.
  · rw [List.disjoint_left]
    intro way hhere hbelow
    split at hhere
    · obtain rfl := List.mem_singleton.1 hhere
      split at hbelow
      · split at hbelow
        · obtain ⟨tail, htail, heq⟩ := List.mem_map.1 hbelow
          obtain ⟨-, rfl⟩ := List.cons.inj heq
          exact not_reaches_nil ((mem_ways (hentry _ rfl)).1 htail)
        · exact absurd hbelow List.not_mem_nil
      · exact absurd hbelow List.not_mem_nil
    · exact absurd hhere List.not_mem_nil

theorem nodup_ways {f : Folder} (hf : f.Distinct) : (s.ways picks directory names f).Nodup := by
  induction f using Folder.cons_induction generalizing directory names with
  | empty => exact List.nodup_nil
  | cons first entry rest ihinside ih =>
    obtain ⟨hfirst, hentry, hrest⟩ := Folder.distinct_cons.1 hf
    have hinto : (s.waysInto picks directory names first entry).Nodup :=
      nodup_waysInto hentry fun inside heq => ihinside inside heq (hentry inside heq)
    rw [ways_cons]
    refine hinto.append (ih hrest) ?_
    -- A way into the rest starts with another name.
    rw [List.disjoint_left]
    intro way hinto hmem
    obtain ⟨tail, rfl, -⟩ := mem_waysInto.1 hinto
    rcases reaches_cons.1 ((mem_ways hrest).1 hmem) with ⟨-, e, hget, -⟩ | ⟨inside, hget, -⟩
    · rw [hfirst] at hget
      exact absurd hget nofun
    · rw [hfirst] at hget
      exact absurd hget nofun

/-! ## Files and directories -/

/-- Whether an entry at a path counts as a file: it is one, or a link that leads to no directory. -/
def countsAsFile (fs : FileSystem) (path : String) : Entry → Bool
  | .file _ => true
  | .link _ => !leadsToFolder fs path
  | .folder _ => false

def picksFile (s : Search) (fs : FileSystem) (directory : String) (names : List String)
    (name : String) (entry : Entry) : Bool :=
  countsAsFile fs (Path.join directory name) entry && s.lists names name

/-- What is no file is a directory or a link to one. It counts for the depth when it is not
excluded, opened or not. -/
def picksFolder (s : Search) (fs : FileSystem) (directory : String) (names : List String)
    (name : String) (entry : Entry) : Bool :=
  !countsAsFile fs (Path.join directory name) entry && s.enters names name

theorem walk_eq_map_ways (fs : FileSystem) (f : Folder) :
    s.walk fs directory names f =
      (s.ways (s.picksFile fs) directory names f).map fun way =>
        Path.normalize (way.foldl Path.join directory) := by
  induction f generalizing directory names with
  | empty => rfl
  | file name bytes rest ih =>
    rw [walk, ways, List.map_append, ih, picksFile, countsAsFile, Bool.true_and]
    split <;> rfl
  | link name target rest ih =>
    rw [walk, ways, List.map_append, ih, picksFile, countsAsFile]
    split <;> rfl
  | folder name inside rest ihinside ih =>
    rw [walk, ways, List.map_append, ih, ihinside, picksFile, countsAsFile, Bool.false_and]
    split <;> simp

theorem depth_le_iff (fs : FileSystem) (f : Folder) (bound : Nat) :
    s.depth fs directory names f ≤ bound ↔
      ∀ way ∈ s.ways (s.picksFolder fs) directory names f, way.length ≤ bound := by
  induction f generalizing directory names bound with
  | empty => simp [depth, ways]
  | file name bytes rest ih => simp [depth, ways, picksFolder, countsAsFile, ih]
  | link name target rest ih =>
    rw [depth, ways, Nat.max_le, ih, List.forall_mem_append, picksFolder, countsAsFile,
      Bool.not_not, Bool.and_comm]
    split <;> simp
  | folder name inside rest ihinside ih =>
    rw [depth, ways, Nat.max_le, ih, List.forall_mem_append, List.forall_mem_append, picksFolder,
      countsAsFile, Bool.not_false, Bool.true_and]
    refine and_congr_left fun _ => ?_
    cases henters : s.enters names name with
    | false => simp
    | true =>
      cases hfits : fits (Path.join directory name) with
      | false => simp
      | true =>
        have hinside : s.depth fs (Path.join directory name) (names ++ [name]) inside ≤ bound - 1 ↔
            ∀ way ∈ s.ways (s.picksFolder fs) (Path.join directory name) (names ++ [name]) inside,
              way.length ≤ bound - 1 := ihinside (bound - 1)
        simp only [Bool.not_true, Bool.false_eq_true, ↓reduceIte, Bool.and_self,
          List.forall_mem_map, List.mem_singleton, forall_eq, List.length_cons, List.length_nil]
        constructor
        · intro h
          refine ⟨by omega, fun way hway => ?_⟩
          have := hinside.1 (by omega) way hway
          omega
        · intro hall
          obtain ⟨hone, hbelow⟩ := hall
          have := hinside.2 fun way hway => by have := hbelow way hway; omega
          omega

end SuiteLint.Discovery.Search
