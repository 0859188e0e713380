import SuiteLint.Proofs.Discovery.Filter
import SuiteLint.Proofs.Files.Order

/-!
# The files that are found

The files below a target are those that plain filtering selects, each once and in the order of
their paths. So neither the order in which folders list their entries nor the order of the
exclusions has a part in them. Three limits are stated beside: a target that cannot be told from
the top of the tree, directories whose paths are too long, and directories that lie too deep.
-/

namespace SuiteLint.Discovery

open Files

theorem pairwise_lt_sorted {paths : List String} (h : paths.Nodup) :
    (sorted paths).Pairwise (· < ·) := by
  have htrans : ∀ a b c : String, decide (a ≤ b) = true → decide (b ≤ c) = true →
      decide (a ≤ c) = true := fun a b c hab hbc =>
    decide_eq_true (String.le_trans (of_decide_eq_true hab) (of_decide_eq_true hbc))
  have htotal : ∀ a b : String, (decide (a ≤ b) || decide (b ≤ a)) = true :=
    fun a b => by simpa using String.le_total a b
  have hle : (sorted paths).Pairwise (· ≤ ·) :=
    (List.pairwise_mergeSort htrans htotal paths).imp of_decide_eq_true
  have hnodup : (sorted paths).Nodup := (List.mergeSort_perm paths _).nodup_iff.2 h
  exact hle.imp₂ (fun a b hab hne => String.not_le.1 fun hba => hne (String.le_antisymm hab hba))
    hnodup

theorem eq_of_mem_iff {files files' : List String} (h : files.Pairwise (· < ·))
    (h' : files'.Pairwise (· < ·)) (hmem : ∀ path, path ∈ files ↔ path ∈ files') :
    files = files' := by
  have hnodup : ∀ {paths : List String}, paths.Pairwise (· < ·) → paths.Nodup :=
    fun hpaths => hpaths.imp String.ne_of_lt
  refine ((List.perm_ext_iff_of_nodup (hnodup h) (hnodup h')).2 hmem).eq_of_pairwise ?_ h h'
  exact fun a b _ _ hab hba => absurd hba (String.lt_asymm hab)

/-- A target that is a directory, in a tree whose entries have proper names and no two of one folder
the same. Neither the target nor a name has a backslash. -/
structure PlainDirectory (fs : FileSystem) (target : String) (t : Trail) : Prop where
  distinct : fs.top.Distinct
  names : fs.top.Every Path.IsPlain
  noBackslash : '\\' ∉ target.toList
  noNull : hasNull target = false
  lookup : fs.lookup target = .ok (.folder t)

/-- In another order the target is still a directory, and it holds the same. -/
theorem PlainDirectory.reordered {fs : FileSystem} {target : String} {t : Trail}
    (h : PlainDirectory fs target t) {top : Folder} (htop : fs.top.Reordered top) :
    ∃ t', PlainDirectory { fs with top := top } target t' ∧
      t.here.SameTree Path.IsPlain t'.here := by
  have hlike := FileSystem.lookup_like (Folder.agreement_sameTree Path.IsPlain)
    ⟨htop, h.distinct, h.names⟩ target
  rw [h.lookup] at hlike
  generalize hlookup : FileSystem.lookup { fs with top := top } target = answer at hlike
  cases hlike with
  | folder htrail =>
    exact ⟨_, ⟨(htop.get? h.distinct).1, htop.every h.names, h.noBackslash, h.noNull, hlookup⟩,
      htrail.here⟩

theorem PlainDirectory.here {fs : FileSystem} {target : String} {t : Trail}
    (h : PlainDirectory fs target t) : t.here.Distinct ∧ t.here.Every Path.IsPlain := by
  obtain ⟨t', -, hhere⟩ := h.reordered (.refl fs.top)
  exact ⟨hhere.distinct, hhere.every⟩

theorem find_of_lookup [Room] {fs : FileSystem} {target : String} {t : Trail}
    (hnull : hasNull target = false) (hlookup : fs.lookup target = .ok (.folder t))
    (hlocates : fs.locates target = true) (includeJs : Bool) (exclusions : List String) :
    find fs target includeJs exclusions =
      Search.below ⟨endings includeJs, exclusions⟩ fs t.here target := by
  simp only [find, hnull, Bool.false_eq_true, ↓reduceIte, hlookup, hlocates]

theorem find_of_shallow [Room] {fs : FileSystem} {target : String} {t : Trail} {includeJs : Bool}
    {exclusions : List String} (hnull : hasNull target = false)
    (hlookup : fs.lookup target = .ok (.folder t)) (hlocates : fs.locates target = true)
    (hdepth : Search.depth ⟨endings includeJs, exclusions⟩ fs target [] t.here ≤ Room.folders) :
    ∃ notes, find fs target includeJs exclusions =
      .ok (sorted (Search.walk ⟨endings includeJs, exclusions⟩ fs target [] t.here), notes) := by
  rw [find_of_lookup hnull hlookup hlocates, Search.below, if_neg (Nat.not_lt.2 hdepth)]
  exact ⟨_, rfl⟩

theorem find_eq_below [Room] {fs : FileSystem} {target : String} {t : Trail}
    (h : PlainDirectory fs target t) (hlocates : fs.locates target = true) (includeJs : Bool)
    (exclusions : List String) :
    find fs target includeJs exclusions =
      Search.below ⟨endings includeJs, exclusions⟩ fs t.here target :=
  find_of_lookup h.noNull h.lookup hlocates includeJs exclusions

/-- The files of a search that is not too deep are those that pass the filter. -/
theorem find_of_directory [Room] {fs : FileSystem} {target : String} {t : Trail}
    {exclusions : List String} (includeJs : Bool) (h : PlainDirectory fs target t)
    (hlocates : fs.locates target = true)
    (hdepth : ∀ way, Visited fs target exclusions t.here way → way.length ≤ Room.folders) :
    ∃ files notes, find fs target includeJs exclusions = .ok (files, notes) ∧
      files.Pairwise (· < ·) ∧
      ∀ path, path ∈ files ↔
        ∃ way, Selected fs target includeJs exclusions t.here way ∧ Opens target way ∧
          path = Path.normalize (Path.join target (Path.unsplit way)) := by
  obtain ⟨hdistinct, hplain⟩ := h.here
  have hbound : Search.depth ⟨endings includeJs, exclusions⟩ fs target [] t.here ≤ Room.folders :=
    (depth_le_iff_visited hdistinct hplain Room.folders).2 hdepth
  rw [find_eq_below h hlocates, Search.below, if_neg (Nat.not_lt.2 hbound)]
  refine ⟨_, _, rfl, pairwise_lt_sorted (nodup_walk hdistinct hplain h.noBackslash), fun path => ?_⟩
  rw [sorted, List.mem_mergeSort, mem_walk_iff hdistinct hplain]

/-! ## The order of entries and of exclusions -/

theorem leadsToFolder_congr {P : String → Prop} {fs : FileSystem} {top : Folder}
    (h : fs.top.SameTree P top) (path : String) :
    leadsToFolder { fs with top := top } path = leadsToFolder fs path := by
  have hlike := FileSystem.lookup_like (Folder.agreement_sameTree P) h path
  unfold leadsToFolder
  generalize fs.lookup path = a, FileSystem.lookup { fs with top := top } path = b at hlike
  cases hlike <;> rfl

theorem map_countsAsFile_congr {P : String → Prop} {fs : FileSystem} {top : Folder}
    (htop : fs.top.SameTree P top) {f g : Folder} (h : f.SameTree P g) (way : List String)
    (path : String) :
    (g.at? way).map (Search.countsAsFile { fs with top := top } path) =
      (f.at? way).map (Search.countsAsFile fs path) := by
  have hat := (Folder.agreement_sameTree P).at? h way
  generalize f.at? way = a, g.at? way = b at hat
  cases hat with
  | none => rfl
  | some hlike =>
    cases hlike with
    | file bytes => rfl
    | link target => simp [Search.countsAsFile, leadsToFolder_congr htop]
    | folder hfg => rfl

section

variable {P : String → Prop} {fs : FileSystem} {top : Folder} (htop : fs.top.SameTree P top)
  {f g : Folder} (h : f.SameTree P g) {exclusions exclusions' : List String}
  (hexclusions : ∀ exclusion, exclusion ∈ exclusions' ↔ exclusion ∈ exclusions)
  {target : String} {way : List String}

include htop h hexclusions

theorem selected_congr {includeJs : Bool} :
    Selected { fs with top := top } target includeJs exclusions' g way ↔
      Selected fs target includeJs exclusions f way := by
  have hat := map_countsAsFile_congr htop h way (Path.join target (Path.unsplit way))
  constructor
  · intro hselected
    obtain ⟨hfile, hending, hdefaults, hcovers⟩ := hselected
    rw [← Option.map_eq_some_iff, hat, Option.map_eq_some_iff] at hfile
    exact ⟨hfile, hending, hdefaults, fun e he => hcovers e ((hexclusions e).2 he)⟩
  · intro hselected
    obtain ⟨hfile, hending, hdefaults, hcovers⟩ := hselected
    rw [← Option.map_eq_some_iff, ← hat, Option.map_eq_some_iff] at hfile
    exact ⟨hfile, hending, hdefaults, fun e he => hcovers e ((hexclusions e).1 he)⟩

theorem visited_of_visited
    (hvisited : Visited { fs with top := top } target exclusions' g way) :
    Visited fs target exclusions f way := by
  have hat := map_countsAsFile_congr htop h way (Path.join target (Path.unsplit way))
  obtain ⟨hne, hfolder, hdefaults, hcovers, hopens⟩ := hvisited
  rw [← Option.map_eq_some_iff, hat, Option.map_eq_some_iff] at hfolder
  exact ⟨hne, hfolder, hdefaults, fun e he => hcovers e ((hexclusions e).2 he), hopens⟩

end

/-- A search that leaves out directories on its way finds the files that pass the filter, strictly
in order. It makes no difference how folders list their entries, nor how exclusions are listed. -/
theorem find_eq_filter [StartRoom] {fs : FileSystem} {target : String} {t : Trail}
    {includeJs : Bool} {exclusions : List String} (h : PlainDirectory fs target t)
    (hlocates : fs.locates target = true)
    (hdepth : ∀ way, Visited fs target exclusions t.here way → way.length ≤ leastFolders) :
    ∃ files notes, find fs target includeJs exclusions = .ok (files, notes) ∧
      files.Pairwise (· < ·) ∧
      (∀ path, path ∈ files ↔
        ∃ way, Selected fs target includeJs exclusions t.here way ∧ Opens target way ∧
          path = Path.normalize (Path.join target (Path.unsplit way))) ∧
      ∀ top exclusions', fs.top.Reordered top →
        (∀ exclusion, exclusion ∈ exclusions' ↔ exclusion ∈ exclusions) →
        ∃ notes', find { fs with top := top } target includeJs exclusions' =
          .ok (files, notes') := by
  have hroom : ∀ way, Visited fs target exclusions t.here way → way.length ≤ Room.folders :=
    fun way hway => Nat.le_trans (hdepth way hway) StartRoom.leastFolders_le
  obtain ⟨files, notes, hfind, hsorted, hmem⟩ :=
    find_of_directory includeJs h hlocates hroom
  refine ⟨files, notes, hfind, hsorted, hmem, fun top exclusions' hreordered hexclusions => ?_⟩
  have htop : fs.top.SameTree Path.IsPlain top := ⟨hreordered, h.distinct, h.names⟩
  obtain ⟨t', h', hhere⟩ := h.reordered hreordered
  obtain ⟨files', notes', hfind', hsorted', hmem'⟩ :=
    find_of_directory includeJs h' hlocates
      fun way hway => hroom way (visited_of_visited htop hhere hexclusions hway)
  -- Both lists are strictly sorted, so it is enough that they have the same members.
  have heq : files' = files := by
    refine eq_of_mem_iff hsorted' hsorted fun path => ?_
    rw [hmem, hmem']
    exact exists_congr fun way => and_congr_left fun _ => selected_congr htop hhere hexclusions
  rw [heq] at hfind'
  exact ⟨notes', hfind'⟩

/-- A test, an older name for it and an unfinished one. -/
def cartTests : Folder :=
  .file "cart.spec.ts" [] (.folder "wip" (.file "pay.spec.ts" [] .empty)
    (.link "old.spec.ts" "cart.spec.ts" .empty))

def cartPackages : Folder :=
  .file "lib.spec.ts" [] .empty

def cart : FileSystem where
  top := .folder "tests" cartTests (.folder "node_modules" cartPackages .empty)
  cwd := []

theorem find_eq_filter_cart :
    ∃ files notes, find cart "./tests/.." false ["wip"] = .ok (files, notes) ∧
      files.Pairwise (· < ·) ∧ "tests/cart.spec.ts" ∈ files ∧
      ∃ notes', find { cart with
        top := .folder "node_modules" cartPackages (.folder "tests" cartTests .empty) }
          "./tests/.." false ["wip", "wip"] = .ok (files, notes') := by
  have hdirectory : PlainDirectory cart "./tests/.." (.atTop cart.top) :=
    ⟨by decide, by decide, by decide, by decide, rfl⟩
  have hdepth : Search.depth ⟨endings false, ["wip"]⟩ cart "./tests/.." [] cart.top ≤
      leastFolders := by
    decide
  obtain ⟨files, notes, hfind, hsorted, hmem, hsame⟩ := find_eq_filter hdirectory rfl
    ((depth_le_iff_visited hdirectory.distinct hdirectory.names leastFolders).1 hdepth)
  refine ⟨files, notes, hfind, hsorted, ?_, ?_⟩
  · have hselected : Selected cart "./tests/.." false ["wip"] cart.top ["tests", "cart.spec.ts"] :=
      ⟨⟨.file [], rfl, rfl⟩, ⟨".spec.ts", by decide, "cart.spec.ts", rfl, by decide⟩, by decide,
        by decide⟩
    refine (hmem _).2 ⟨_, hselected, fun directory hne hstart => ?_, rfl⟩
    rcases List.prefix_cons_iff.1 hstart with hnil | ⟨tail, rfl, htail⟩
    · exact absurd hnil hne
    · rw [List.prefix_nil.1 htail]
      decide
  · exact hsame _ _ (.swap "tests" "node_modules" (.folder cartTests) (.folder cartPackages) .empty)
      (by simp)

end SuiteLint.Discovery
