import SuiteLint.Proofs.Discovery.Find
import SuiteLint.Proofs.Files.Naming
import SuiteLint.Proofs.Path.Characters
import SuiteLint.Proofs.Score
import SuiteLint.Proofs.Source.Reading

/-!
# The outcomes of a run

As long as the current directory is there and no name has the null character, nothing about single
files ends a run: a search gives its files unless directories lie too deep, and each file gives a
report or a failure. Only reports have scores, and no score is negative.
-/

namespace SuiteLint

open Files

/-! ## Files that are found -/

namespace Discovery

theorem hasNull_of_listed {directory name path : String} {listed : Bool}
    (hdirectory : hasNull directory = false) (hname : hasNull name = false)
    (h : path ∈ if listed then [Path.normalize (Path.join directory name)] else []) :
    hasNull path = false := by
  split at h
  · rw [List.mem_singleton.1 h]
    exact hasNull_normalize (hasNull_join hdirectory hname)
  · exact absurd h List.not_mem_nil

/-- The paths of a search are made of its target and of names in the tree. -/
theorem hasNull_of_mem_walk {s : Search} {fs : FileSystem} {f : Folder} {directory path : String}
    {names : List String} (hdirectory : hasNull directory = false)
    (hf : f.Every (hasNull · = false)) (h : path ∈ s.walk fs directory names f) :
    hasNull path = false := by
  induction f generalizing directory names with
  | empty => exact absurd h List.not_mem_nil
  | file name bytes rest ih =>
    obtain ⟨hname, hrest⟩ := hf
    rcases List.mem_append.1 h with h | h
    · exact hasNull_of_listed hdirectory hname h
    · exact ih hdirectory hrest h
  | link name target rest ih =>
    obtain ⟨hname, hrest⟩ := hf
    rcases List.mem_append.1 h with h | h
    · exact hasNull_of_listed hdirectory hname h
    · exact ih hdirectory hrest h
  | folder name inside rest ihinside ih =>
    obtain ⟨hname, hinside, hrest⟩ := hf
    rcases List.mem_append.1 h with h | h
    · split at h
      · exact ihinside (hasNull_join hdirectory hname) hinside h
      · exact absurd h List.not_mem_nil
    · exact ih hdirectory hrest h

theorem find_of_file [Room] {fs : FileSystem} {target : String} {bytes : List UInt8}
    (hnull : hasNull target = false) (hlookup : fs.lookup target = .ok (.file bytes))
    (includeJs : Bool) (exclusions : List String) :
    find fs target includeJs exclusions = .ok ([target], []) := by
  simp only [find, hnull, hlookup, Bool.false_eq_true, ↓reduceIte]

/-- A search that is not too deep ends with files, and their paths can be opened. -/
theorem find_ok [Room] {fs : FileSystem} {target : String} {includeJs : Bool}
    {exclusions : List String} (hgone : fs.gone = 0) (hnames : fs.top.Every (hasNull · = false))
    (hnull : hasNull target = false)
    (hdepth : ∀ t, fs.lookup target = .ok (.folder t) →
      Search.depth ⟨endings includeJs, exclusions⟩ fs target [] t.here ≤ Room.folders) :
    ∃ files notes, find fs target includeJs exclusions = .ok (files, notes) ∧
      ∀ path ∈ files, hasNull path = false := by
  have hlocates : fs.locates target = true := by simp [FileSystem.locates, hgone]
  cases hlookup : fs.lookup target with
  | error cause =>
    refine ⟨[], [findFailure target (cause.message target)], ?_, by simp⟩
    simp only [find, hnull, hlookup, Bool.false_eq_true, ↓reduceIte]
  | ok found =>
    cases found with
    | file bytes =>
      exact ⟨[target], [], find_of_file hnull hlookup includeJs exclusions, by simpa using hnull⟩
    | folder t =>
      obtain ⟨base, -, hbase⟩ := FileSystem.leads_of_lookup hlocates hlookup
      have hbelow : t.here.Every (hasNull · = false) :=
        Folder.of_at?_folder (fun hf hget => (hf.of_get? hget).2 _ rfl) hnames
          (Trail.at?_of_along hbase)
      obtain ⟨notes, hfind⟩ := find_of_shallow hnull hlookup hlocates (hdepth t hlookup)
      refine ⟨_, notes, hfind, fun path hpath => ?_⟩
      rw [sorted, List.mem_mergeSort] at hpath
      exact hasNull_of_mem_walk hnull hbelow hpath

end Discovery

/-! ## Outcomes of files -/

namespace Source

variable {fs : FileSystem}

/-- The outcome of a file, whatever is noted beside it. -/
def Gives (fs : FileSystem) (path : String) (outcome : Outcome) : Prop :=
  ∃ notes, review fs path = .ok (outcome, notes)

/-- A file that has an outcome: its path has no null character, and if it can be read, its role can
be told. -/
structure Reviewable (fs : FileSystem) (path : String) : Prop where
  noNull : hasNull path = false
  role : ∀ bytes, fs.read (Path.tidy path) = .ok bytes → hasRole fs path = true

theorem reviewable_of_present (hgone : fs.gone = 0) {path : String} (hnull : hasNull path = false) :
    Reviewable fs path :=
  ⟨hnull, fun _ _ => by simp [hasRole, FileSystem.locates, hgone]⟩

theorem Reviewable.gives_report {path : String} {bytes : List UInt8} (h : Reviewable fs path)
    (hread : fs.read (Path.tidy path) = .ok bytes) :
    Gives fs path (.report (Review.content fs.cwdPath path (decode bytes))) := by
  refine ⟨[], ?_⟩
  rw [review_of_read h.noNull hread, reviewText, if_pos (h.role bytes hread)]

theorem Reviewable.gives_failure {path : String} {cause : Cause} (h : Reviewable fs path)
    (hread : fs.read (Path.tidy path) = .error cause) :
    Gives fs path (.failure ⟨path, cause.message (Path.tidy path)⟩) :=
  review_of_unread h.noNull hread

theorem Reviewable.exists_gives {path : String} (h : Reviewable fs path) :
    ∃ outcome, Gives fs path outcome := by
  cases hread : fs.read (Path.tidy path) with
  | ok bytes => exact ⟨_, h.gives_report hread⟩
  | error cause => exact ⟨_, h.gives_failure hread⟩

theorem Gives.unique {path : String} {o o' : Outcome} (h : Gives fs path o)
    (h' : Gives fs path o') : o = o' := by
  obtain ⟨notes, hreview⟩ := h
  obtain ⟨notes', hreview'⟩ := h'
  exact (Prod.mk.inj (Except.ok.inj (hreview.symm.trans hreview'))).1

theorem Gives.path_eq {path : String} {o : Outcome} (h : Gives fs path o) : o.path = path := by
  obtain ⟨notes, hreview⟩ := h
  unfold review at hreview
  split at hreview
  · split at hreview
    · obtain ⟨rfl, -⟩ := Prod.mk.inj (Except.ok.inj hreview)
      rfl
    · exact absurd hreview nofun
  · obtain ⟨rfl, -⟩ := Prod.mk.inj (Except.ok.inj hreview)
    rfl
  · exact absurd hreview nofun

theorem Gives.score_nonneg {path : String} {r : Report} (h : Gives fs path (.report r)) :
    0 ≤ r.score := by
  obtain ⟨notes, hreview⟩ := h
  unfold review at hreview
  split at hreview
  · split at hreview
    · obtain ⟨hreport, -⟩ := Prod.mk.inj (Except.ok.inj hreview)
      rw [← Outcome.report.inj hreport]
      exact SuiteLint.score_nonneg _
    · exact absurd hreview nofun
  · exact absurd hreview nofun
  · exact absurd hreview nofun

/-- Each file of a run has its outcome, in order. -/
theorem reviewAll_ok {files : List String} (h : ∀ path ∈ files, Reviewable fs path) :
    ∃ outcomes notes, reviewAll fs files = .ok (outcomes, notes) ∧
      List.Forall₂ (Gives fs) files outcomes := by
  induction files with
  | nil => exact ⟨[], [], rfl, .nil⟩
  | cons path files ih =>
    obtain ⟨outcome, notes, hreview⟩ := (h path List.mem_cons_self).exists_gives
    obtain ⟨outcomes, more, hall, houtcomes⟩ := ih fun p hp => h p (List.mem_cons_of_mem path hp)
    refine ⟨outcome :: outcomes, notes ++ more, ?_, .cons ⟨notes, hreview⟩ houtcomes⟩
    rw [reviewAll, hreview, hall]
    rfl

end Source

end SuiteLint
