import SuiteLint.Proofs.Config.Members
import SuiteLint.Proofs.Discovery.Limits
import SuiteLint.Proofs.Options.Path
import SuiteLint.Proofs.Run.Outcomes
import SuiteLint.Run

/-!
# The exit status

A run ends with status 2 when a number on the command line is out of range, with status 1 when a
file that was reviewed scored below the threshold, and with status 0 otherwise. Files that could
not be read have no part in it, and neither has the way the result is printed. Two things keep a
run from ending with a status at all: a switch for a number that was left blank, and directories
that lie too deep.
-/

namespace SuiteLint

open Files

/-! ## Scores below a threshold -/

namespace Summary

theorem lowest_lt_iff (s : Summary) (n : Int) :
    (∃ low, s.lowestScore? = some low ∧ low < n) ↔ ∃ r ∈ s.reports, r.score < n := by
  constructor
  · rintro ⟨low, hlow, hlt⟩
    obtain ⟨r, hr, rfl⟩ := List.mem_map.1 (List.min?_mem hlow)
    exact ⟨r, hr, hlt⟩
  · rintro ⟨r, hr, hlt⟩
    have hmem : r.score ∈ s.reports.map Report.score := List.mem_map_of_mem hr
    cases hlow : (s.reports.map Report.score).min? with
    | none =>
      rw [List.min?_eq_none_iff.1 hlow] at hmem
      exact absurd hmem List.not_mem_nil
    | some low =>
      have hle : low ≤ r.score := (List.min?_eq_some_iff.1 hlow).2 _ hmem
      exact ⟨low, hlow, by omega⟩

end Summary

namespace Run

theorem gate_eq (n : Int) (s : Summary) : gate n s = 1 ∨ gate n s = 0 := by
  unfold gate
  split
  · exact Or.inl rfl
  · exact Or.inr rfl

end Run

/-- A run comes to a review: the current directory exists, the command line and the settings of the
project are read, and nothing interrupts it. No name has the null character. -/
structure Starts [Room] (fs : FileSystem) (around : Surroundings) (argv : List String)
    (options : Options) (config : Config) : Prop where
  names : fs.top.Every (hasNull · = false)
  present : fs.gone = 0
  arguments : ∀ argument ∈ argv, hasNull argument = false
  parsed : Options.parse argv = .ok options
  loaded : ∃ path notes, Config.projectPath fs around.projectRoot = .ok path ∧
    Config.load fs path = .ok (config, notes)
  uninterrupted : around.interrupted = false

/-- The search of settings comes upon no directory that lies deeper than there is always room
for. -/
def Settings.Shallow (s : Settings) (fs : FileSystem) : Prop :=
  ∀ t, fs.lookup s.path = .ok (.folder t) →
    Discovery.Search.depth ⟨Discovery.endings s.includeJs, s.exclusions⟩ fs s.path [] t.here ≤
      leastFolders

namespace Run

variable {fs : FileSystem} {s : Settings} {jobs n : Int}

/-- A review that takes place finds its files and has their outcomes. It ends with a notice if there
are none, and else with the status that the gate gives to the outcomes. -/
theorem exists_review [StartRoom] (hthreshold : threshold s = .ok n) (hgone : fs.gone = 0)
    (hnames : fs.top.Every (hasNull · = false)) (hpath : hasNull s.path = false)
    (hshallow : s.Shallow fs) (console : Console) :
    ∃ files notes outcomes more result,
      Discovery.find fs s.path s.includeJs s.exclusions =
        .ok (files, notes) ∧
      Source.reviewAll fs files = .ok (outcomes, more) ∧
      List.Forall₂ (Source.Gives fs) files outcomes ∧
      review fs console s = .ok result ∧ result.status = gate n ⟨outcomes⟩ ∧
      result.output = if files = [] then console.render Render.noFiles
        else output console s.json ⟨outcomes⟩ := by
  obtain ⟨files, notes, hfind, hfiles⟩ := Discovery.find_ok hgone hnames hpath
    fun t ht => Nat.le_trans (hshallow t ht) StartRoom.leastFolders_le
  obtain ⟨outcomes, more, hall, houtcomes⟩ :=
    Source.reviewAll_ok fun path hp => Source.reviewable_of_present hgone (hfiles path hp)
  have hreview : review fs console s = reviewFound fs console s n files notes := by
    rw [review, hthreshold]
    simp only [hfind]
  cases houtcomes with
  | nil =>
    refine ⟨[], notes, [], more, _, hfind, hall, .nil, hreview, ?_, rfl⟩
    simp [gate, Summary.below, Summary.reports]
  | cons hgives htail =>
    rw [reviewFound, hall] at hreview
    exact ⟨_, notes, _, more, _, hfind, hall, .cons hgives htail, hreview, rfl,
      (if_neg (List.cons_ne_nil _ _)).symm⟩

end Run

section

variable {fs : FileSystem} {around : Surroundings} {argv : List String} {options : Options}
  {config : Config}

theorem Starts.noNull_path [Room] (h : Starts fs around argv options config) :
    hasNull options.path = false := by
  rcases Options.parse_path h.parsed with hpath | hpath
  · rw [hpath]
    decide
  · exact h.arguments _ hpath

/-- A run that comes to a review ends as the review does. -/
theorem Starts.execute_eq [Room] (h : Starts fs around argv options config) :
    ∃ notes, Run.execute fs around argv =
      (Run.review fs around.console (options.resolve config)).map fun r => ⟨r.status, r.output,
        Note.renderAll around.console options.debug (notes ++ r.notes)⟩ := by
  obtain ⟨path, notes, hproject, hload⟩ := h.loaded
  refine ⟨notes, ?_⟩
  simp only [Run.execute, hproject, h.parsed, Run.withConfig, hload, h.uninterrupted,
    Bool.false_eq_true, ↓reduceIte]

theorem Starts.execute_of_review [Room] (h : Starts fs around argv options config)
    {result : Run.Result}
    (hreview : Run.review fs around.console (options.resolve config) = .ok result) :
    ∃ stderr, Run.execute fs around argv = .ok ⟨result.status, result.output, stderr⟩ := by
  obtain ⟨notes, hexecute⟩ := h.execute_eq
  rw [hexecute, hreview]
  exact ⟨_, rfl⟩

variable {jobs n : Int}

end

/-! ## Two runs of one search -/

section

variable {fs : FileSystem} {s s' : Settings} {jobs jobs' n n' : Int} {ending ending' : Ending}

end

/-- A run that prints plain text, in a project whose root is the current directory. -/
def plainRun : Surroundings :=
  ⟨false, true, none, false⟩

/-- A directory without entries. -/
def bareDirectory : FileSystem where
  top := .empty
  cwd := []

theorem starts_bare {argv : List String} {options : Options}
    (harguments : ∀ argument ∈ argv, hasNull argument = false)
    (hparsed : Options.parse argv = .ok options) :
    Starts bareDirectory plainRun argv options Config.default :=
  ⟨by decide, rfl, harguments, hparsed,
    ⟨"/.playwright-review/config.json", [], by decide +kernel, by decide +kernel⟩, rfl⟩

end SuiteLint
