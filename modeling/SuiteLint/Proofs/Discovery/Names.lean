import SuiteLint.Proofs.Discovery.Find
import SuiteLint.Proofs.Files.Naming
import SuiteLint.Proofs.Path.Characters
import SuiteLint.Proofs.Source.Reading

/-!
# The paths of the files that are found

A search names what it finds by a path in normal form, and a file is reviewed by this path. The
path leads back to the entry that the search came upon, under two conditions: neither the target nor
a name below it has a backslash, and no `..` of the target takes back a link. Without them a path
can name another file or none, and two files can have the same path.
-/

namespace SuiteLint.Discovery

open Files

/-- A path stands for the entry at a place. It names this entry and no other, it leads where the
entry leads, a review of it reads the file that is there, and nothing is missing but what a link
leads to. -/
structure Denotes (fs : FileSystem) (path : String) (place : List String) : Prop where
  names : ∀ p, fs.Names path p ↔ p = place
  leads : fits path = true → fs.lookup path ≠ .error .tooManyLinks →
    fs.lookup path = followLinks maxLinks (.atTop fs.top) place
  reads : ∀ bytes, fs.top.at? place = some (.file bytes) → fits path = true →
    Source.review fs path =
      .ok (.report (Review.content fs.cwdPath path (Source.decode bytes)), [])
  missing : ∀ notes,
    Source.review fs path = .ok (.failure ⟨path, Cause.notFound.message path⟩, notes) →
      ∃ target, fs.top.at? place = some (.link target) ∧
        followLinks maxLinks (.atTop fs.top) place = .error .notFound

/-- A target that is a directory, in a tree whose entries have names that a file system allows, and
no two of one folder the same. -/
structure Directory (fs : FileSystem) (target : String) (t : Trail) : Prop where
  distinct : fs.top.Distinct
  names : fs.top.Every IsEntryName
  noNull : hasNull target = false
  lookup : fs.lookup target = .ok (.folder t)

/-- Each path that is found stands for the entry that the search came upon, and no path is found
twice. -/
def NamesEntries [Room] (fs : FileSystem) (target : String) (t : Trail) (includeJs : Bool)
    (exclusions : List String) : Prop :=
  ∀ files notes, find fs target includeJs exclusions = .ok (files, notes) →
    files.Nodup ∧ ∀ path ∈ files, ∃ base way, fs.Leads target base ∧
      Search.Reaches ⟨endings includeJs, exclusions⟩
        (Search.picksFile ⟨endings includeJs, exclusions⟩ fs) target [] t.here way ∧
      path = Path.normalize (Path.join target (Path.unsplit way)) ∧
      Denotes fs path (base ++ way)

/-! ## Reviews of named entries -/

theorem message_inj {cause cause' : Cause} {path : String}
    (h : cause.message path = cause'.message path) : cause = cause' := by
  rw [Cause.message, Cause.message, String.append_left_inj, String.append_left_inj] at h
  cases cause <;> cases cause' <;> first | rfl | exact absurd h (by decide)

section

variable {fs : FileSystem} {path : String}

/-- A review tells that a file is missing only if the lookup does. -/
theorem lookup_of_missing (htidy : Path.tidy path = path) (hnull : hasNull path = false)
    {notes : List Note}
    (h : Source.review fs path = .ok (.failure ⟨path, Cause.notFound.message path⟩, notes)) :
    fs.lookup path = .error .notFound := by
  have hfailure : ∀ {cause}, fs.read (Path.tidy path) = .error cause → cause = .notFound := by
    intro cause hread
    obtain ⟨notes', hreview⟩ := Source.review_of_unread hnull hread
    rw [hreview, htidy] at h
    simp only [Except.ok.injEq, Prod.mk.injEq, Outcome.failure.injEq, ReadFailure.mk.injEq,
      true_and] at h
    exact message_inj h.1
  cases hlookup : fs.lookup path with
  | error cause =>
    have hread : fs.read (Path.tidy path) = .error cause := by
      rw [htidy, FileSystem.read, hlookup]
    rw [hfailure hread]
  | ok found =>
    cases found with
    | file bytes =>
      have hread : fs.read (Path.tidy path) = .ok bytes := by
        rw [htidy, FileSystem.read, hlookup]
      rw [Source.review_of_read hnull hread, Source.reviewText] at h
      split at h <;> cases h
    | folder t =>
      have hread : fs.read (Path.tidy path) = .error .isFolder := by
        rw [htidy, FileSystem.read, hlookup]
      cases hfailure hread

theorem fits_of_missing (h : fs.lookup path = .error .notFound) (hne : path ≠ "") :
    fits path = true := by
  by_contra hfits
  rw [Bool.not_eq_true] at hfits
  rw [FileSystem.lookup, if_neg hne, hfits] at h
  cases h

theorem denotes_of_names {place : List String} (hnames : fs.Names path place)
    (hplace : ∀ n ∈ place, Sought n) (hne : path ≠ "") (htidy : Path.tidy path = path)
    (hnull : hasNull path = false) (hlocates : fs.locates path = true) {t : Trail}
    (hstart : fs.start? (Path.isAbsolute path) = some t) : Denotes fs path place where
  names := by
    intro p
    constructor
    · exact fun hp => hp.unique hnames
    · rintro rfl
      exact hnames
  leads := fun hfits hmany => hnames.lookup_eq_entry hlocates hfits hstart hplace hmany
  reads := by
    intro bytes hat hfits
    have hread : fs.read (Path.tidy path) = .ok bytes := by
      rw [htidy, FileSystem.read, hnames.lookup_of_file hlocates hfits hstart hat]
    have hrole : Source.hasRole fs path = true := by rw [Source.hasRole, hlocates, Bool.true_or]
    rw [Source.review_of_read hnull hread, Source.reviewText, if_pos hrole]
  missing := by
    intro notes hreview
    have hlookup := lookup_of_missing htidy hnull hreview
    have hfits := fits_of_missing hlookup hne
    have hentry := hnames.lookup_eq_entry hlocates hfits hstart hplace
      (by rw [hlookup]; simp)
    obtain ⟨folder, name, links, u, rfl, hname, -, hu, hlast⟩ :=
      hnames.lookup_eq_last hlocates hfits hstart
    have hgone := Trail.gone_of_along hu
    obtain ⟨-, -, -, -, -, -, -, -, -, hsome⟩ := hnames
    obtain ⟨entry, hat⟩ := Option.isSome_iff_exists.1 hsome
    have hget := (Trail.at?_concat_of_along hu name).symm.trans hat
    -- A file or a folder that is named is not missing, so the entry is a link.
    cases entry with
    | file bytes =>
      rw [hlookup, followLinks_file hname hgone hget] at hlast
      cases hlast
    | folder inside =>
      rw [hlookup, followLinks_folder hname hgone hget, followLinks_nil] at hlast
      cases hlast
    | link target => exact ⟨target, hat, hentry.symm.trans hlookup⟩

end

/-! ## Paths that are found -/

section

variable {fs : FileSystem} {target : String} {t : Trail}

theorem Directory.below (h : Directory fs target t) {base : List String}
    (hbase : (Trail.atTop fs.top).along base = some t) :
    t.here.Distinct ∧ t.here.Every IsEntryName := by
  have hat := Trail.at?_of_along hbase
  exact ⟨Folder.of_at?_folder (fun hf hget => hf.of_get? hget) h.distinct hat,
    Folder.of_at?_folder (fun hf hget => (hf.of_get? hget).2 _ rfl) h.names hat⟩

/-- The path of an entry below a target stands for the entry. -/
theorem Directory.denotes (h : Directory fs target t) (htarget : '\\' ∉ target.toList)
    (hkeeps : ¬ fs.TakesBackLink target) (hlocates : fs.locates target = true)
    {base way : List String} (hleads : fs.Leads target base) (hne : way ≠ [])
    (hway : ∀ name ∈ way, '\\' ∉ name.toList) {entry : Entry}
    (hat : fs.top.at? (base ++ way) = some entry) :
    Denotes fs (Path.normalize (Path.join target (Path.unsplit way))) (base ++ way) := by
  have hplace : ∀ name ∈ base ++ way, IsEntryName name := h.names.of_at? hat
  have hnames : ∀ name ∈ way, IsEntryName name :=
    fun name hname => hplace name (List.mem_append_right base hname)
  set kept := Path.collapse (Path.isAbsolute target) (Path.split target) with hkept
  have hproper : ∀ n ∈ kept ++ way, Path.IsKept n :=
    Path.isKept_collapse_append (fun n hn => (hnames n hn).1) _ target
  have hkne : kept ++ way ≠ [] := by simp [hne]
  have hnull : hasNull (Path.normalize (Path.join target (Path.unsplit way))) = false :=
    hasNull_normalize (hasNull_join h.noNull (hasNull_unsplit fun n hn => (hnames n hn).2.1))
  rw [Path.normalize_join_unsplit hne (fun n hn => ⟨(hnames n hn).1, hway n hn⟩) target htarget]
    at hnull ⊢
  set path := (Path.root target).text ++ Path.unsplit (kept ++ way) with hpath
  have hrooted : Path.isAbsolute path = Path.isAbsolute target := by
    rw [Path.isAbsolute, Path.root_text_unsplit hkne hproper, ← Path.isAbsolute]
  have htidy : Path.tidy path = path := Path.tidy_text_unsplit hkne hproper _
  obtain ⟨u, hstart, -⟩ := FileSystem.lookup_ok h.lookup
  refine denotes_of_names (FileSystem.names_normal hleads hkeeps hne hnames hat)
    (fun n hn => (hplace n hn).sought) ?_ htidy hnull ?_ (hrooted ▸ hstart)
  · intro hempty
    rw [hempty] at htidy
    exact absurd htidy (by decide)
  · rw [FileSystem.locates, hrooted]
    exact hlocates

/-- The files that are found have different paths, and each path stands for the entry that the
search came upon. This holds where no name below the target and not the target itself has a
backslash, and where no `..` of the target takes back a link. -/
theorem find_namesEntries [Room] {includeJs : Bool} {exclusions : List String}
    (h : Directory fs target t) (htarget : '\\' ∉ target.toList)
    (hbelow : t.here.Every fun name => '\\' ∉ name.toList)
    (hkeeps : ¬ fs.TakesBackLink target) : NamesEntries fs target t includeJs exclusions := by
  intro files notes hfind
  by_cases hlocates : fs.locates target = true
  · rw [find_of_lookup h.noNull h.lookup hlocates, Search.below] at hfind
    split at hfind
    · cases hfind
    obtain ⟨rfl, -⟩ := Prod.mk.inj (Except.ok.inj hfind)
    obtain ⟨base, hleads, hbase⟩ := FileSystem.leads_of_lookup hlocates h.lookup
    obtain ⟨hdistinct, hnames⟩ := h.below hbase
    have hplain : t.here.Every Path.IsPlain :=
      hnames.imp₂ (fun name hname hback => ⟨hname.1, hback⟩) hbelow
    refine ⟨(List.mergeSort_perm _ _).nodup_iff.2 (nodup_walk hdistinct hplain htarget),
      fun path hpath => ?_⟩
    rw [sorted, List.mem_mergeSort, Search.walk_eq_map_ways, List.mem_map] at hpath
    obtain ⟨way, hway, rfl⟩ := hpath
    obtain ⟨front, name, entry, hsplit, hat, hpicked⟩ := (Search.mem_ways hdistinct).1 hway
    have hne : way ≠ [] := by
      rw [hsplit]
      simp
    have hentry : fs.top.at? (base ++ way) = some entry := by
      rw [Folder.at?_append (Trail.at?_of_along hbase), hat]
    rw [Path.foldl_join hne fun n hn => (hnames.of_at? hat n hn).1]
    exact ⟨base, way, hleads, ⟨front, name, entry, hsplit, hat, hpicked⟩, rfl,
      h.denotes htarget hkeeps hlocates hleads hne (hbelow.of_at? hat) hentry⟩
  · have hnone : find fs target includeJs exclusions =
        .ok ([], [findFailure target Abort.lostDirectory.message]) := by
      simp only [find, h.noNull, Bool.false_eq_true, ↓reduceIte, h.lookup, hlocates]
    obtain ⟨rfl, -⟩ := Prod.mk.inj (Except.ok.inj (hfind.symm.trans hnone))
    exact ⟨List.nodup_nil, fun path hpath => absurd hpath List.not_mem_nil⟩

end

/-- A suite of tests that is reached by a link, with a directory in it. -/
def linkedSuite : FileSystem where
  top := .folder "tests" (.file "cart.spec.ts" [120] (.folder "sub" .empty .empty))
    (.link "suite" "tests" .empty)
  cwd := []

def linkedTests : Trail :=
  ⟨.file "cart.spec.ts" [120] (.folder "sub" .empty .empty), [linkedSuite.top], 0⟩

theorem arrives_suite : Arrives linkedSuite.top 1 [] ["suite"] ["tests"] :=
  .link (IsEntryName.sought (by decide)) rfl
    (.folder (IsEntryName.sought (by decide)) rfl (.done ["tests"]))

theorem directory_suite : Directory linkedSuite "suite/sub/.." linkedTests := by
  have hback : Arrives linkedSuite.top 0 ["tests"] ["sub", ".."] ["tests"] :=
    .folder (IsEntryName.sought (by decide)) rfl (.above (.done _))
  refine ⟨by decide, by decide, by decide, ?_⟩
  exact FileSystem.lookup_of_leads (by decide) (by decide) rfl rfl
    ⟨1, by decide, arrives_suite.append hback⟩ rfl

theorem not_takesBackLink_suite : ¬ linkedSuite.TakesBackLink "suite/sub/.." := by
  rintro ⟨front, back, name, below, links, place, target, hsplit, hfold, -, harrives, hat⟩
  obtain rfl : front = ["suite", "sub"] := by
    have hnames : ["suite", "sub", ".."] = front ++ ".." :: back := hsplit
    rcases front with _ | ⟨a, _ | ⟨b, _ | ⟨c, front⟩⟩⟩ <;> simp_all
  obtain ⟨rfl, rfl⟩ := List.cons.inj (show ["sub", "suite"] = name :: below from hfold)
  obtain ⟨-, rfl⟩ := harrives.unique arrives_suite
  exact absurd hat nofun

theorem find_namesEntries_suite :
    Directory linkedSuite "suite/sub/.." linkedTests ∧
      NamesEntries linkedSuite "suite/sub/.." linkedTests false [] ∧
      Search.walk ⟨endings false, []⟩ linkedSuite "suite/sub/.." [] linkedTests.here =
        ["suite/cart.spec.ts"] := by
  have hnames : NamesEntries linkedSuite "suite/sub/.." linkedTests false [] :=
    find_namesEntries directory_suite (by decide) (by decide) not_takesBackLink_suite
  exact ⟨directory_suite, hnames, by decide⟩

/-! ## Paths that name nothing, or two files -/

section

variable [Room] {fs : FileSystem} {target : String} {t : Trail} {includeJs : Bool}
  {exclusions : List String} (h : Directory fs target t) (hlocates : fs.locates target = true)
  (hdepth : Search.depth ⟨endings includeJs, exclusions⟩ fs target [] t.here ≤ Room.folders)

include h hlocates hdepth

theorem not_namesEntries_of_duplicate
    (hwalk : ¬ (Search.walk ⟨endings includeJs, exclusions⟩ fs target [] t.here).Nodup) :
    ¬ NamesEntries fs target t includeJs exclusions := by
  intro hnames
  obtain ⟨notes, hfind⟩ := find_of_shallow h.noNull h.lookup hlocates hdepth
  obtain ⟨hnodup, -⟩ := hnames _ _ hfind
  exact hwalk ((List.mergeSort_perm _ _).nodup_iff.1 hnodup)

/-- The path of the only file that is found has to be read as this file. -/
theorem not_namesEntries_of_unread (base way : List String) (bytes : List UInt8) (path : String)
    (hleads : fs.Leads target base)
    (hways : Search.ways ⟨endings includeJs, exclusions⟩
      (Search.picksFile ⟨endings includeJs, exclusions⟩ fs) target [] t.here = [way])
    (hat : fs.top.at? (base ++ way) = some (.file bytes))
    (hpath : Path.normalize (way.foldl Path.join target) = path) (hfits : fits path = true)
    (hread : fs.read (Path.tidy path) = .error .notFound) (hnull : hasNull path = false) :
    ¬ NamesEntries fs target t includeJs exclusions := by
  intro hnames
  obtain ⟨notes, hfind⟩ := find_of_shallow h.noNull h.lookup hlocates hdepth
  obtain ⟨-, hdenotes⟩ := hnames _ _ hfind
  have hmem : path ∈ Search.walk ⟨endings includeJs, exclusions⟩ fs target [] t.here := by
    rw [Search.walk_eq_map_ways, hways, List.map_singleton, hpath]
    exact List.mem_cons_self
  obtain ⟨base', way', hleads', hreaches, -, hpath'⟩ := hdenotes path (List.mem_mergeSort.2 hmem)
  obtain ⟨_, -, hbase⟩ := FileSystem.leads_of_lookup hlocates h.lookup
  rw [← Search.mem_ways (h.below hbase).1, hways, List.mem_singleton] at hreaches
  rw [hleads'.unique hleads, hreaches] at hpath'
  have hreview := hpath'.reads bytes hat hfits
  obtain ⟨notes', hfailure⟩ := Source.review_of_unread hnull hread
  rw [hfailure] at hreview
  exact absurd hreview nofun

end

/-- A test whose name has a backslash. -/
def backslashName : FileSystem where
  top := .file "a\\b.spec.ts" [] .empty
  cwd := []

/-- The same, beside a test whose path has a slash in the place of the backslash. -/
def backslashTwins : FileSystem where
  top := .file "a\\b.spec.ts" [] (.folder "a" (.file "b.spec.ts" [] .empty) .empty)
  cwd := []

/-- A test in a directory that is the parent of what a link leads to, but not of the link. -/
def linkAside : FileSystem where
  top := .link "l" "d/sub" (.folder "d" (.file "x.spec.ts" [] (.folder "sub" .empty .empty)) .empty)
  cwd := []

def linkAsideTrail : Trail :=
  ⟨.file "x.spec.ts" [] (.folder "sub" .empty .empty), [linkAside.top], 0⟩

theorem leads_linkAside : linkAside.Leads "l/.." ["d"] :=
  ⟨1, by decide, .link (IsEntryName.sought (by decide)) rfl
    (.folder (IsEntryName.sought (by decide)) rfl
      (.folder (IsEntryName.sought (by decide)) rfl (.above (.done _))))⟩

/-- A test is found under the path of no file when its name has a backslash, and under that of
another test if there is one. A test is found under the path of no file when `..` takes back a
link. -/
theorem not_namesEntries_backslash_link :
    (Directory backslashName "." (.atTop backslashName.top) ∧
      ¬ NamesEntries backslashName "." (.atTop backslashName.top) false []) ∧
    (Directory backslashTwins "." (.atTop backslashTwins.top) ∧
      ¬ NamesEntries backslashTwins "." (.atTop backslashTwins.top) false []) ∧
    (Directory linkAside "l/.." linkAsideTrail ∧
      ¬ NamesEntries linkAside "l/.." linkAsideTrail false []) := by
  have hname : Directory backslashName "." (.atTop backslashName.top) :=
    ⟨by decide, by decide, by decide, rfl⟩
  have htwins : Directory backslashTwins "." (.atTop backslashTwins.top) :=
    ⟨by decide, by decide, by decide, rfl⟩
  have hlink : Directory linkAside "l/.." linkAsideTrail :=
    ⟨by decide, by decide, by decide,
      FileSystem.lookup_of_leads (by decide) (by decide) rfl rfl leads_linkAside rfl⟩
  refine ⟨⟨hname, ?_⟩, ⟨htwins, ?_⟩, ⟨hlink, ?_⟩⟩
  · exact not_namesEntries_of_unread hname rfl (by decide) [] ["a\\b.spec.ts"] [] "a/b.spec.ts"
      ⟨0, by decide, .here (Or.inr rfl) (.done [])⟩ (by decide) rfl (by decide) (by decide)
      (by decide +kernel) (by decide)
  · exact not_namesEntries_of_duplicate htwins rfl (by decide) (by decide +kernel)
  · exact not_namesEntries_of_unread hlink rfl (by decide) ["d"] ["x.spec.ts"] [] "x.spec.ts"
      leads_linkAside (by decide) rfl (by decide) (by decide) (by decide +kernel) (by decide)

end SuiteLint.Discovery
