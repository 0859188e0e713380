import SuiteLint.Proofs.Discovery.Find

/-!
# The limits of a search

Plain filtering knows no limits, but a search has three. It finds nothing below a target that
cannot be told from the top of the tree, nothing in directories whose paths are too long, and it
ends without an answer when directories lie too deep. Each time files that pass the filter are
missed.
-/

namespace SuiteLint.Discovery

open Files

/-- The files that are found are those that pass the filter, with no regard to limits. -/
def FindsSelected [Room] (fs : FileSystem) (target : String) (includeJs : Bool)
    (exclusions : List String) : Prop :=
  ∀ t, PlainDirectory fs target t →
    ∃ files notes, find fs target includeJs exclusions = .ok (files, notes) ∧
      ∀ path, path ∈ files ↔
        ∃ way, Selected fs target includeJs exclusions t.here way ∧
          path = Path.normalize (Path.join target (Path.unsplit way))

section

variable [Room] {fs : FileSystem} {target : String} {t : Trail} {includeJs : Bool}
  {exclusions way : List String} (h : PlainDirectory fs target t)

include h

theorem not_findsSelected_of_not_locates (hlocates : fs.locates target = false)
    (hselected : Selected fs target includeJs exclusions t.here way) :
    ¬ FindsSelected fs target includeJs exclusions := by
  intro hfinds
  obtain ⟨files, notes, hfind, hmem⟩ := hfinds t h
  simp only [find, h.noNull, Bool.false_eq_true, ↓reduceIte, h.lookup, hlocates, Except.ok.injEq,
    Prod.mk.injEq] at hfind
  have hpath := (hmem _).2 ⟨way, hselected, rfl⟩
  rw [← hfind.1] at hpath
  exact absurd hpath List.not_mem_nil

theorem not_findsSelected_of_not_opens (hlocates : fs.locates target = true)
    (hselected : Selected fs target includeJs exclusions t.here way) (hopens : ¬ Opens target way) :
    ¬ FindsSelected fs target includeJs exclusions := by
  intro hfinds
  obtain ⟨files, notes, hfind, hmem⟩ := hfinds t h
  obtain ⟨hdistinct, hplain⟩ := h.here
  rw [find_eq_below h hlocates, Search.below] at hfind
  split at hfind
  · cases hfind
  · have hpath := (hmem _).2 ⟨way, hselected, rfl⟩
    rw [← (Prod.mk.inj (Except.ok.inj hfind)).1, sorted, List.mem_mergeSort,
      mem_walk_iff hdistinct hplain] at hpath
    obtain ⟨way', hselected', hopens', heq⟩ := hpath
    obtain ⟨hne, hnames⟩ := hselected.names hplain
    obtain ⟨hne', hnames'⟩ := hselected'.names hplain
    rw [Path.normalize_join_unsplit_inj hne hne' hnames hnames' h.noBackslash heq] at hopens
    exact hopens hopens'

theorem lt_depth_of_visited (hvisited : Visited fs target exclusions t.here way)
    (hdeep : Room.folders < way.length) :
    Room.folders < Search.depth ⟨endings includeJs, exclusions⟩ fs target [] t.here := by
  obtain ⟨hdistinct, hplain⟩ := h.here
  by_contra hle
  have := (depth_le_iff_visited hdistinct hplain Room.folders).1 (Nat.not_lt.1 hle) way hvisited
  omega

theorem find_of_deep (hlocates : fs.locates target = true)
    (hvisited : Visited fs target exclusions t.here way) (hdeep : Room.folders < way.length) :
    find fs target includeJs exclusions = .error .deepNesting := by
  rw [find_eq_below h hlocates, Search.below, if_pos (lt_depth_of_visited h hvisited hdeep)]

theorem not_findsSelected_of_deep (hlocates : fs.locates target = true)
    (hvisited : Visited fs target exclusions t.here way) (hdeep : Room.folders < way.length) :
    ¬ FindsSelected fs target includeJs exclusions := by
  intro hfinds
  obtain ⟨files, notes, hfind, -⟩ := hfinds t h
  rw [find_of_deep h hlocates hvisited hdeep] at hfind
  cases hfind

end

/-! ## Trees at the limits -/

/-- Folders inside each other, with the given one in the innermost. -/
def nested (names : List String) (inside : Folder) : Folder :=
  names.foldr (fun name f => .folder name f .empty) inside

theorem distinct_nested {inside : Folder} (h : inside.Distinct) (names : List String) :
    (nested names inside).Distinct := by
  induction names with
  | nil => exact h
  | cons name names ih => exact ⟨rfl, ih, trivial⟩

theorem every_nested {P : String → Prop} {inside : Folder} (h : inside.Every P)
    {names : List String} (hnames : ∀ name ∈ names, P name) : (nested names inside).Every P := by
  induction names with
  | nil => exact h
  | cons name names ih =>
    exact ⟨hnames name List.mem_cons_self,
      ih fun n hn => hnames n (List.mem_cons_of_mem name hn), trivial⟩

theorem at?_nested (names : List String) (inside : Folder) :
    (nested names inside).at? names = some (.folder inside) := by
  induction names with
  | nil => rfl
  | cons name names ih =>
    have hget : (nested (name :: names) inside).get? name = some (.folder (nested names inside)) :=
      if_pos rfl
    rw [Folder.at?_cons_of_folder hget, ih]

theorem utf8ByteSize_unsplit_le {names : List String} {size : Nat}
    (h : ∀ name ∈ names, name.utf8ByteSize ≤ size) :
    (Path.unsplit names).utf8ByteSize ≤ names.length * (size + 1) := by
  induction names with
  | nil => exact Nat.zero_le _
  | cons name names ih =>
    have hname := h name List.mem_cons_self
    have hnames := ih fun n hn => h n (List.mem_cons_of_mem name hn)
    rw [List.length_cons, Nat.succ_mul]
    by_cases hne : names = []
    · rw [hne, Path.unsplit_singleton]
      omega
    · have hslash : "/".utf8ByteSize = 1 := rfl
      rw [Path.unsplit_cons hne, String.utf8ByteSize_append, String.utf8ByteSize_append, hslash]
      omega

/-- A current directory that has been removed from the directory of a test. -/
def removedDirectory : FileSystem where
  top := .folder "a" (.file "x.spec.ts" [] .empty) .empty
  cwd := ["a"]
  gone := 1

theorem plainDirectory_removed :
    PlainDirectory removedDirectory ".." ⟨.file "x.spec.ts" [] .empty, [removedDirectory.top], 0⟩ :=
  ⟨by decide, by decide, by decide, by decide, rfl⟩

/-- A test inside directories of the name `d`, in the current directory. -/
def chain (length : Nat) : FileSystem where
  top := nested (List.replicate length "d") (.file "x.spec.ts" [] .empty)
  cwd := []

theorem distinct_chain (length : Nat) : (chain length).top.Distinct :=
  distinct_nested (by decide) _

theorem every_chain (length : Nat) : (chain length).top.Every Path.IsPlain :=
  every_nested (by decide) fun n hn => List.eq_of_mem_replicate hn ▸ (by decide)

theorem plainDirectory_chain (length : Nat) :
    PlainDirectory (chain length) "." (.atTop (chain length).top) :=
  ⟨distinct_chain length, every_chain length, by decide, by decide, rfl⟩

theorem visited_chain {length : Nat} (hne : length ≠ 0) (hlength : 2 * length ≤ maxPathBytes) :
    Visited (chain length) "." [] (chain length).top (List.replicate length "d") := by
  refine ⟨by simpa using hne, ⟨_, at?_nested _ _, rfl⟩, fun n hn => ?_, nofun,
    fun directory hdirectory hstart => decide_eq_true ?_⟩
  · rw [List.eq_of_mem_replicate hn]
    decide
  · have hnames : ∀ n ∈ directory, n = "d" := fun n hn =>
      List.eq_of_mem_replicate ((List.dropLast_sublist _).subset (hstart.subset hn))
    have hshort := hstart.length_le
    rw [List.length_dropLast, List.length_replicate] at hshort
    have hsize : (Path.unsplit directory).utf8ByteSize ≤ directory.length * 2 :=
      utf8ByteSize_unsplit_le fun n hn => (hnames n hn).symm ▸ (by decide)
    have hbase : ("." ++ Path.gap ".").utf8ByteSize = 2 := rfl
    rw [Path.join_eq (Path.not_isAbsolute_unsplit hdirectory fun n hn =>
      (hnames n hn).symm ▸ (by decide)), String.utf8ByteSize_append, hbase]
    omega

/-- The current directory, with as many slashes after it as given and one more. -/
def slashed (slashes : Nat) : String :=
  "." ++ "/" ++ String.ofList (List.replicate slashes '/')

theorem utf8ByteSize_slashed (slashes : Nat) : (slashed slashes).utf8ByteSize = slashes + 2 := by
  have hreplicate : (String.ofList (List.replicate slashes '/')).utf8ByteSize = slashes := by
    induction slashes with
    | zero => rfl
    | succ n ih =>
      have hslash : '/'.utf8Size = 1 := rfl
      rw [List.replicate_succ, String.ofList_cons, String.utf8ByteSize_append,
        String.utf8ByteSize_singleton, ih, hslash, Nat.add_comm]
  rw [slashed, String.utf8ByteSize_append, hreplicate, Nat.add_comm]
  rfl

theorem mem_slashed {slashes : Nat} {c : Char} (h : c ∈ (slashed slashes).toList) :
    c = '.' ∨ c = '/' := by
  rw [slashed, String.toList_append, List.mem_append, String.toList_ofList] at h
  rcases h with h | h
  · simpa using h
  · exact Or.inr (List.eq_of_mem_replicate h)

theorem mem_split_slashed {slashes : Nat} {name : String}
    (h : name ∈ Path.split (slashed slashes)) : name = "" ∨ name = "." := by
  rw [slashed, Path.split_append_slash, List.mem_append] at h
  rcases h with h | h
  · exact Or.inr (List.mem_singleton.1 h)
  -- Between slashes only, every name is empty.
  · refine Or.inl (String.toList_eq_nil_iff.1 (List.eq_nil_iff_forall_not_mem.2 fun c hc => ?_))
    have hslash := Path.mem_toList_of_mem_split h hc
    rw [String.toList_ofList] at hslash
    exact Path.no_slash_of_mem_split h (List.eq_of_mem_replicate hslash ▸ hc)

theorem follow_of_here {onLink : Trail → List String → Except Cause Found} {t : Trail}
    {names : List String} (h : ∀ name ∈ names, name = "" ∨ name = ".") :
    follow onLink t names = .ok (.folder t) := by
  induction names with
  | nil => rfl
  | cons name names ih =>
    rw [follow, if_pos (h name List.mem_cons_self)]
    exact ih fun n hn => h n (List.mem_cons_of_mem name hn)

theorem lookup_slashed {slashes : Nat} (hslashes : slashes + 2 ≤ maxPathBytes) (length : Nat) :
    (chain length).lookup (slashed slashes) = .ok (.folder (.atTop (chain length).top)) := by
  have hne : slashed slashes ≠ "" := by
    intro heq
    have hsize := utf8ByteSize_slashed slashes
    rw [heq, String.utf8ByteSize_empty] at hsize
    omega
  have hfits : fits (slashed slashes) = true := by
    rw [fits, utf8ByteSize_slashed]
    exact decide_eq_true hslashes
  have habsolute : Path.isAbsolute (slashed slashes) = false := by
    rw [← Bool.not_eq_true, Path.isAbsolute_iff, slashed]
    simp
  have hstart : (chain length).start? false = some (.atTop (chain length).top) := rfl
  rw [FileSystem.lookup, if_neg hne, hfits, habsolute, hstart]
  exact follow_of_here fun name hname => mem_split_slashed hname

theorem plainDirectory_slashed {slashes : Nat} (hslashes : slashes + 2 ≤ maxPathBytes)
    (length : Nat) :
    PlainDirectory (chain length) (slashed slashes) (.atTop (chain length).top) := by
  refine ⟨distinct_chain length, every_chain length, fun hmem => ?_, ?_,
    lookup_slashed hslashes length⟩
  · rcases mem_slashed hmem with heq | heq <;> exact absurd heq (by decide)
  · rw [hasNull, ← Bool.not_eq_true, List.contains_iff_mem]
    intro hmem
    rcases mem_slashed hmem with heq | heq <;> exact absurd heq (by decide)

theorem not_opens_slashed {slashes : Nat} (hslashes : maxPathBytes < slashes + 3)
    (name : String) : ¬ Opens (slashed slashes) ["d", name] := by
  intro hopens
  have hfits := of_decide_eq_true (hopens ["d"] (by simp) List.prefix_rfl)
  have hname : (Path.unsplit ["d"]).utf8ByteSize = 1 := rfl
  rw [Path.join_eq (by decide), String.utf8ByteSize_append, String.utf8ByteSize_append,
    utf8ByteSize_slashed, hname] at hfits
  omega

/-- A removed current directory, a spelling of it as long as a path can be, and deep directories
each make a search miss a file that passes the filter. -/
theorem not_findsSelected_limits :
    ¬ FindsSelected removedDirectory ".." false [] ∧
      ¬ FindsSelected (chain 1) (slashed 4093) false [] ∧
      ¬ FindsSelected (chain 1050) "." false [] := by
  refine ⟨?_, ?_, ?_⟩
  · have hselected : Selected removedDirectory ".." false []
        (.file "x.spec.ts" [] .empty) ["x.spec.ts"] :=
      ⟨⟨_, rfl, rfl⟩, ⟨".spec.ts", by decide, "x.spec.ts", rfl, by decide⟩, by decide, nofun⟩
    exact not_findsSelected_of_not_locates plainDirectory_removed rfl hselected
  · have hselected : Selected (chain 1) (slashed 4093) false []
        (chain 1).top ["d", "x.spec.ts"] :=
      ⟨⟨.file [], rfl, rfl⟩, ⟨".spec.ts", by decide, "x.spec.ts", rfl, by decide⟩, by decide, nofun⟩
    exact not_findsSelected_of_not_opens (plainDirectory_slashed (by decide) 1) (Bool.or_true _)
      hselected (not_opens_slashed (by decide) "x.spec.ts")
  · have hdeep : Room.folders < (List.replicate 1050 "d").length := by
      rw [List.length_replicate]
      decide
    exact not_findsSelected_of_deep (plainDirectory_chain 1050) rfl
      (visited_chain (by decide) (by decide)) hdeep

end SuiteLint.Discovery
