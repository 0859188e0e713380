import SuiteLint.Proofs.Discovery.Ways
import SuiteLint.Proofs.Exclusion
import SuiteLint.Proofs.Path.Relative

/-!
# Pruning and filtering

A search leaves out excluded directories as it meets them, by a test of its own. What it lists is
told here by plain filtering: each file is looked at alone, by its name, by the directories on the
way to it and by its path below the target. Exclusions reach downwards, so the two agree. Two
things that are not asked for by a filter stay visible: a directory whose path is too long is not
opened, and directories that are not excluded can lie too deep.
-/

namespace SuiteLint.Discovery

open Files

/-- The directories between the target and the end of a way have paths that can be opened. -/
def Opens (target : String) (way : List String) : Prop :=
  ∀ directory, directory ≠ [] → directory <+: way.dropLast →
    fits (Path.join target (Path.unsplit directory)) = true

/-- A file that passes the filter: by its ending, by the directories on the way to it, and by its
path below the target. -/
structure Selected (fs : FileSystem) (target : String) (includeJs : Bool)
    (exclusions : List String) (folder : Folder) (way : List String) : Prop where
  file : ∃ entry, folder.at? way = some entry ∧
    Search.countsAsFile fs (Path.join target (Path.unsplit way)) entry = true
  ending : ∃ ending ∈ endings includeJs, ∃ name ∈ way.getLast?, Path.hasEnding ending name = true
  defaults : ∀ name ∈ way.dropLast, name ∉ Exclusion.defaults
  exclusions : ∀ exclusion ∈ exclusions, Exclusion.covers exclusion (Path.unsplit way) = false

/-- A directory, or a link to one, that a search comes upon and that is not excluded. -/
structure Visited (fs : FileSystem) (target : String) (exclusions : List String)
    (folder : Folder) (way : List String) : Prop where
  ne_nil : way ≠ []
  noFile : ∃ entry, folder.at? way = some entry ∧
    Search.countsAsFile fs (Path.join target (Path.unsplit way)) entry = false
  defaults : ∀ name ∈ way, name ∉ Exclusion.defaults
  exclusions : ∀ exclusion ∈ exclusions, Exclusion.covers exclusion (Path.unsplit way) = false
  opens : Opens target way

/-- The names that lead to a directory tell it from the target, in whatever way the target is
spelled. -/
theorem relativePath_eq_relative {cwd : String} (hcwd : Path.isAbsolute cwd = true)
    {names : List String} (h : ∀ n ∈ names, Path.IsName n) (target name : String) :
    relativePath names name =
      Path.normalize (Path.toSlashes (Path.relative cwd target (names.foldl Path.join target)) ++
        "/" ++ name) := by
  rw [Path.relative_foldl_join hcwd h, relativePath]
  by_cases hnames : names = []
  · subst hnames
    rfl
  · have hempty : names.isEmpty = false := by simpa using hnames
    have hsome : Path.unsplit names ≠ "" := by
      intro hunsplit
      exact Path.toList_unsplit_ne_nil hnames h (String.toList_eq_nil_iff.2 hunsplit)
    rw [hempty, if_neg Bool.false_ne_true, Path.orHere, if_neg hsome]

theorem relativePath_eq {names : List String} {name : String}
    (h : ∀ n ∈ names ++ [name], Path.IsPlain n) :
    relativePath names name = Path.unsplit (names ++ [name]) := by
  by_cases hnames : names = []
  · subst hnames
    have hjoin : "." ++ "/" ++ name = Path.join "." (Path.unsplit [name]) := by
      rw [Path.join_eq (Path.not_isAbsolute_unsplit (List.cons_ne_nil name [])
        fun n hn => (h n hn).1), Path.unsplit_singleton]
      rfl
    have hnormal := Path.normalize_join_unsplit (List.cons_ne_nil name []) h "." (by decide)
    rw [relativePath, List.isEmpty_nil, if_pos rfl, hjoin, hnormal]
    exact String.empty_append
  · have hplain : '\\' ∉ (Path.unsplit names).toList :=
      Path.no_backslash_unsplit fun n hn => (h n (List.mem_append_left [name] hn)).2
    have hempty : names.isEmpty = false := by simpa using hnames
    have hslash : Path.unsplit names ++ "/" ++ name = Path.unsplit (names ++ [name]) := by
      rw [Path.unsplit_append hnames (List.cons_ne_nil name []), Path.unsplit_singleton]
    rw [relativePath, hempty, if_neg Bool.false_ne_true, Path.toSlashes_eq_self hplain, hslash,
      Path.normalize_unsplit (by simp) h]

namespace Search

variable {s : Search}

/-- A name that is an exclusion itself is a name of its path, so the path is covered as well. -/
theorem enters_iff {names : List String} {name : String}
    (h : ∀ n ∈ names ++ [name], Path.IsPlain n) :
    s.enters names name = true ↔ name ∉ Exclusion.defaults ∧
      ∀ exclusion ∈ s.exclusions,
        Exclusion.covers exclusion (Path.unsplit (names ++ [name])) = false := by
  have hself : Exclusion.covers name (Path.unsplit (names ++ [name])) = true := by
    refine Exclusion.covers_of_mem_split ?_
    rw [Path.split_unsplit (by simp) fun n hn => (h n hn).1.no_slash]
    exact List.mem_append_right names List.mem_cons_self
  rw [enters, relativePath_eq h, Bool.and_eq_true, Bool.not_eq_true', List.all_eq_true,
    ← Bool.not_eq_true, List.contains_iff_mem]
  refine and_congr_right fun _ => forall₂_congr fun exclusion _ => ?_
  rw [Bool.and_eq_true, Bool.not_eq_true', bne_iff_ne]
  refine ⟨fun hboth => hboth.1, fun hfree => ⟨hfree, ?_⟩⟩
  rintro rfl
  rw [hself] at hfree
  exact Bool.noConfusion hfree

theorem lists_iff {names : List String} {name : String}
    (h : ∀ n ∈ names ++ [name], Path.IsPlain n) :
    s.lists names name = true ↔ (∃ ending ∈ s.endings, Path.hasEnding ending name = true) ∧
      ∀ exclusion ∈ s.exclusions,
        Exclusion.covers exclusion (Path.unsplit (names ++ [name])) = false := by
  rw [lists, relativePath_eq h, Bool.and_eq_true, List.any_eq_true, Bool.not_eq_true',
    List.any_eq_false]
  simp only [Bool.not_eq_true]

theorem passes_snoc (directory : String) (names way : List String) (name : String) :
    s.passes directory names (way ++ [name]) =
      (s.passes directory names way && (s.enters (names ++ way) name &&
        fits ((way ++ [name]).foldl Path.join directory))) := by
  induction way generalizing directory names with
  | nil => simp [passes]
  | cons first way ih =>
    simp only [List.cons_append, passes, ih, List.foldl_cons, List.append_assoc,
      List.nil_append, Bool.and_assoc]

/-- An exclusion that leaves out a directory on a way leaves out the way, so it is enough to look at
the last directory. -/
theorem passes_iff {target : String} {front : List String} (h : ∀ n ∈ front, Path.IsPlain n) :
    s.passes target [] front = true ↔
      (∀ name ∈ front, name ∉ Exclusion.defaults) ∧
      (front ≠ [] → ∀ exclusion ∈ s.exclusions,
        Exclusion.covers exclusion (Path.unsplit front) = false) ∧
      ∀ directory, directory ≠ [] → directory <+: front →
        fits (Path.join target (Path.unsplit directory)) = true := by
  induction front using List.reverseRecOn with
  | nil =>
    refine ⟨fun _ => ⟨nofun, fun hne => absurd rfl hne, fun d hne hd => ?_⟩, fun _ => rfl⟩
    exact absurd (List.prefix_nil.1 hd) hne
  | append_singleton front name ih =>
    have hfront : ∀ n ∈ front, Path.IsPlain n := fun n hn => h n (List.mem_append_left [name] hn)
    rw [passes_snoc, Bool.and_eq_true, Bool.and_eq_true, List.nil_append, enters_iff h,
      Path.foldl_join (by simp) fun n hn => (h n hn).1, ih hfront]
    constructor
    · intro hsteps
      obtain ⟨⟨hdefaults, -, hfits⟩, ⟨hname, hcovers⟩, hlast⟩ := hsteps
      refine ⟨fun n hn => ?_, fun _ => hcovers, fun d hne hd => ?_⟩
      · rcases List.mem_append.1 hn with hn | hn
        · exact hdefaults n hn
        · rwa [List.mem_singleton.1 hn]
      · rcases List.prefix_concat_iff.1 hd with rfl | hd
        · exact hlast
        · exact hfits d hne hd
    -- No exclusion covers the whole way, so none covers a directory on it.
    · intro hfree
      obtain ⟨hdefaults, hcovers, hfits⟩ := hfree
      have hall := hcovers (by simp)
      refine ⟨⟨fun n hn => hdefaults n (List.mem_append_left [name] hn), fun hne => ?_, ?_⟩,
        ⟨hdefaults name (by simp), hall⟩, hfits _ (by simp) List.prefix_rfl⟩
      · exact fun exclusion hmem => Exclusion.not_covers_front hne (hall exclusion hmem)
      · exact fun d hne hd => hfits d hne (hd.trans (List.prefix_append front [name]))

end Search

theorem join_foldl_join {front : List String} {name : String}
    (h : ∀ n ∈ front ++ [name], Path.IsPlain n) (target : String) :
    Path.join (front.foldl Path.join target) name =
      Path.join target (Path.unsplit (front ++ [name])) := by
  rw [← Path.foldl_join (by simp) fun n hn => (h n hn).1, List.foldl_append, List.foldl_cons,
    List.foldl_nil]

/-- The ways to entries of some kind that pass a test by name, told by the entry at the end and by
the directories on the way. -/
theorem reaches_iff {s : Search} (kind : String → Entry → Bool)
    (test : List String → String → Bool) {target : String} {f : Folder}
    (hf : f.Every Path.IsPlain) {way : List String} :
    s.Reaches (fun directory names name entry =>
        kind (Path.join directory name) entry && test names name) target [] f way ↔
      ∃ front name, way = front ++ [name] ∧
        (∃ entry, f.at? way = some entry ∧
          kind (Path.join target (Path.unsplit way)) entry = true) ∧
        test front name = true ∧ (∀ n ∈ front, n ∉ Exclusion.defaults) ∧
        (front ≠ [] → ∀ exclusion ∈ s.exclusions,
          Exclusion.covers exclusion (Path.unsplit front) = false) ∧
        Opens target way := by
  refine exists_congr fun front => exists_congr fun name => ?_
  have hopens : Opens target (front ++ [name]) ↔ ∀ directory, directory ≠ [] →
      directory <+: front → fits (Path.join target (Path.unsplit directory)) = true := by
    rw [Opens, List.dropLast_concat]
  constructor
  · intro hreaches
    obtain ⟨entry, rfl, hat, hpasses, hpicks⟩ := hreaches
    have hplain := hf.of_at? hat
    have hfront := fun n hn => hplain n (List.mem_append_left [name] hn)
    rw [Bool.and_eq_true, List.nil_append, join_foldl_join hplain] at hpicks
    obtain ⟨hdefaults, hcovers, hfits⟩ := (Search.passes_iff hfront).1 hpasses
    exact ⟨rfl, ⟨entry, hat, hpicks.1⟩, hpicks.2, hdefaults, hcovers, hopens.2 hfits⟩
  · intro hway
    obtain ⟨rfl, ⟨entry, hat, hkind⟩, htest, hdefaults, hcovers, hfits⟩ := hway
    have hplain := hf.of_at? hat
    have hfront := fun n hn => hplain n (List.mem_append_left [name] hn)
    refine ⟨entry, rfl, hat, (Search.passes_iff hfront).2 ⟨hdefaults, hcovers, hopens.1 hfits⟩, ?_⟩
    show (kind (Path.join (front.foldl Path.join target) name) entry && test front name) = true
    rw [join_foldl_join hplain, hkind, htest, Bool.and_self]

/-- The ways to files are those that plain filtering selects, as far as their directories can be
opened. -/
theorem reaches_picksFile_iff {fs : FileSystem} {target : String} {includeJs : Bool}
    {exclusions : List String} {f : Folder} (hf : f.Every Path.IsPlain) {way : List String} :
    Search.Reaches ⟨endings includeJs, exclusions⟩
        (Search.picksFile ⟨endings includeJs, exclusions⟩ fs) target [] f way ↔
      Selected fs target includeJs exclusions f way ∧ Opens target way := by
  refine (reaches_iff (Search.countsAsFile fs) _ hf).trans ⟨?_, ?_⟩
  · intro hway
    obtain ⟨front, name, rfl, ⟨entry, hat, hfile⟩, hlists, hdefaults, -, hopens⟩ := hway
    obtain ⟨⟨ending, hending, hname⟩, hcovers⟩ := (Search.lists_iff (hf.of_at? hat)).1 hlists
    refine ⟨⟨⟨entry, hat, hfile⟩, ⟨ending, hending, name, by simp, hname⟩, ?_, hcovers⟩, hopens⟩
    rwa [List.dropLast_concat]
  · intro hselected
    obtain ⟨⟨⟨entry, hat, hfile⟩, ⟨ending, hending, name, hlast, hname⟩, hdefaults, hcovers⟩,
      hopens⟩ := hselected
    obtain ⟨front, rfl⟩ := List.getLast?_eq_some_iff.1 hlast
    rw [List.dropLast_concat] at hdefaults
    refine ⟨front, name, rfl, ⟨entry, hat, hfile⟩, ?_, hdefaults, fun hne exclusion hmem => ?_,
      hopens⟩
    · exact (Search.lists_iff (hf.of_at? hat)).2 ⟨⟨ending, hending, hname⟩, hcovers⟩
    · exact Exclusion.not_covers_front hne (hcovers exclusion hmem)

/-- The ways to directories that count for the depth of a search. -/
theorem reaches_picksFolder_iff {fs : FileSystem} {target : String} {s : Search} {f : Folder}
    (hf : f.Every Path.IsPlain) {way : List String} :
    s.Reaches (s.picksFolder fs) target [] f way ↔ Visited fs target s.exclusions f way := by
  refine (reaches_iff (fun path entry => !Search.countsAsFile fs path entry) _ hf).trans ⟨?_, ?_⟩
  · intro hway
    obtain ⟨front, name, rfl, ⟨entry, hat, hfolder⟩, henters, hdefaults, -, hopens⟩ := hway
    obtain ⟨hname, hcovers⟩ := (Search.enters_iff (hf.of_at? hat)).1 henters
    refine ⟨by simp, ⟨entry, hat, by simpa using hfolder⟩, fun n hn => ?_, hcovers, hopens⟩
    rcases List.mem_append.1 hn with hn | hn
    · exact hdefaults n hn
    · rwa [List.mem_singleton.1 hn]
  · intro hvisited
    obtain ⟨hne, ⟨entry, hat, hfolder⟩, hdefaults, hcovers, hopens⟩ := hvisited
    obtain ⟨front, name, rfl⟩ : ∃ front name, way = front ++ [name] :=
      ⟨_, _, (List.dropLast_concat_getLast hne).symm⟩
    refine ⟨front, name, rfl, ⟨entry, hat, by simpa using hfolder⟩, ?_,
      fun n hn => hdefaults n (List.mem_append_left [name] hn), fun hne exclusion hmem => ?_,
      hopens⟩
    · exact (Search.enters_iff (hf.of_at? hat)).2 ⟨hdefaults name (by simp), hcovers⟩
    · exact Exclusion.not_covers_front hne (hcovers exclusion hmem)

theorem Selected.names {fs : FileSystem} {target : String} {includeJs : Bool}
    {exclusions : List String} {f : Folder} {way : List String}
    (h : Selected fs target includeJs exclusions f way) (hplain : f.Every Path.IsPlain) :
    way ≠ [] ∧ ∀ n ∈ way, Path.IsPlain n := by
  obtain ⟨entry, hat, -⟩ := h.file
  obtain ⟨-, -, name, hname, -⟩ := h.ending
  exact ⟨List.ne_nil_of_mem (List.mem_of_getLast? hname), hplain.of_at? hat⟩

theorem mem_walk_iff {fs : FileSystem} {target : String} {includeJs : Bool}
    {exclusions : List String} {f : Folder} (hdistinct : f.Distinct)
    (hplain : f.Every Path.IsPlain) {path : String} :
    path ∈ Search.walk ⟨endings includeJs, exclusions⟩ fs target [] f ↔
      ∃ way, Selected fs target includeJs exclusions f way ∧ Opens target way ∧
        path = Path.normalize (Path.join target (Path.unsplit way)) := by
  rw [Search.walk_eq_map_ways, List.mem_map]
  refine exists_congr fun way => ?_
  rw [Search.mem_ways hdistinct, reaches_picksFile_iff hplain, and_assoc]
  refine and_congr_right fun hselected => and_congr_right fun _ => ?_
  obtain ⟨hne, hnames⟩ := hselected.names hplain
  rw [Path.foldl_join hne fun n hn => (hnames n hn).1]
  exact eq_comm

theorem nodup_walk {fs : FileSystem} {target : String} {includeJs : Bool}
    {exclusions : List String} {f : Folder} (hdistinct : f.Distinct)
    (hplain : f.Every Path.IsPlain) (htarget : '\\' ∉ target.toList) :
    (Search.walk ⟨endings includeJs, exclusions⟩ fs target [] f).Nodup := by
  rw [Search.walk_eq_map_ways]
  refine List.Nodup.map_on ?_ (Search.nodup_ways hdistinct)
  intro way hway way' hway' heq
  rw [Search.mem_ways hdistinct, reaches_picksFile_iff hplain] at hway hway'
  obtain ⟨hne, hnames⟩ := hway.1.names hplain
  obtain ⟨hne', hnames'⟩ := hway'.1.names hplain
  rw [Path.foldl_join hne fun n hn => (hnames n hn).1,
    Path.foldl_join hne' fun n hn => (hnames' n hn).1] at heq
  exact Path.normalize_join_unsplit_inj hne hne' hnames hnames' htarget heq

theorem depth_le_iff_visited {s : Search} {fs : FileSystem} {target : String} {f : Folder}
    (hdistinct : f.Distinct) (hplain : f.Every Path.IsPlain) (bound : Nat) :
    s.depth fs target [] f ≤ bound ↔
      ∀ way, Visited fs target s.exclusions f way → way.length ≤ bound := by
  rw [Search.depth_le_iff]
  refine forall_congr' fun way => ?_
  rw [Search.mem_ways hdistinct, reaches_picksFolder_iff hplain]

end SuiteLint.Discovery
