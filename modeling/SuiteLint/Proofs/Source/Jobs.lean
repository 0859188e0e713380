import SuiteLint.Proofs.Discovery.Limits
import SuiteLint.Proofs.Pool
import SuiteLint.Proofs.Run.Outcomes

/-!
# Files reviewed by several jobs

With more than one job, more than one file is reviewed by a pool of workers. The files come to what
they come to one after another, in whatever order they are taken and finished: each file has the
outcome it has alone, in its own place, and one that cannot be read is a failure there. This is as
far as each file has an outcome. A file whose role depends on a current directory that was removed
has none, and ends the review of all files.
-/

namespace SuiteLint.Source

open Files

variable {fs : FileSystem}

/-- The outcome of one file, without the notes about it. -/
def outcome (fs : FileSystem) (path : String) : Except Abort Outcome :=
  (review fs path).map Prod.fst

theorem mapM_outcome (fs : FileSystem) (paths : List String) :
    paths.mapM (outcome fs) = (reviewAll fs paths).map Prod.fst := by
  induction paths with
  | nil => rfl
  | cons path paths ih =>
    rw [List.mapM_cons, ih, reviewAll, outcome]
    cases review fs path with
    | error abort => rfl
    | ok reviewed => cases reviewAll fs paths <;> rfl

/-- What a review of files may come to with a number of jobs. A single job needs no pool, and
neither does a single file. -/
def ComesTo (fs : FileSystem) (jobs : Nat) (paths : List String)
    (r : Except Abort (List Outcome)) : Prop :=
  if 1 < jobs ∧ 1 < paths.length then
    ∃ p, Relation.ReflTransGen (Pool.Step (outcome fs) jobs) (Pool.start paths) p ∧
      p.answer? 0 paths.length = some r
  else r = (reviewAll fs paths).map Prod.fst

/-- However many jobs there are, files come to what they come to one after another. -/
theorem comesTo_iff (fs : FileSystem) (jobs : Nat) (paths : List String)
    (r : Except Abort (List Outcome)) :
    ComesTo fs jobs paths r ↔ r = (reviewAll fs paths).map Prod.fst := by
  unfold ComesTo
  split
  · rename_i hpool
    rw [← mapM_outcome]
    exact Pool.reaches_answer_iff (by omega)
  · rfl

/-- What a file comes to in its place: the outcome that it has alone, under its own path. It is a
report if the file can be read, and a failure otherwise. -/
structure InPlace (fs : FileSystem) (path : String) (o : Outcome) : Prop where
  alone : Gives fs path o
  path_eq : o.path = path
  report : ∀ bytes, fs.read (Path.tidy path) = .ok bytes →
    o = .report (Review.content fs.cwdPath path (decode bytes))
  failure : ∀ cause, fs.read (Path.tidy path) = .error cause →
    o = .failure ⟨path, cause.message (Path.tidy path)⟩

theorem Reviewable.inPlace {path : String} {o : Outcome} (h : Reviewable fs path)
    (hgives : Gives fs path o) : InPlace fs path o :=
  ⟨hgives, hgives.path_eq, fun _ hread => hgives.unique (h.gives_report hread),
    fun _ hread => hgives.unique (h.gives_failure hread)⟩

/-- Files that each have an outcome come to these outcomes, in their places. -/
theorem mapM_outcome_ok {paths : List String} (h : ∀ path ∈ paths, Reviewable fs path) :
    ∃ outcomes, paths.mapM (outcome fs) = .ok outcomes ∧
      List.Forall₂ (InPlace fs) paths outcomes := by
  obtain ⟨outcomes, notes, hall, hgives⟩ := reviewAll_ok h
  refine ⟨outcomes, ?_, ?_⟩
  · rw [mapM_outcome, hall]
    rfl
  · exact ((List.forall₂_and_left _ _).2 ⟨h, hgives⟩).imp fun path o hpath =>
      hpath.1.inPlace hpath.2

/-- However many jobs there are and in whatever order they take and finish files, the files come to
what they come to one after another, and nothing else. Each file with an outcome has the one that
it has alone, in its own place. The jobs are never stuck and come to an end. -/
theorem comesTo_outcomes (fs : FileSystem) {jobs : Nat} (hjobs : 1 ≤ jobs) (paths : List String) :
    (∀ r, ComesTo fs jobs paths r ↔ r = paths.mapM (outcome fs)) ∧
      ((∀ path ∈ paths, Reviewable fs path) →
        ∃ outcomes, paths.mapM (outcome fs) = .ok outcomes ∧
          List.Forall₂ (InPlace fs) paths outcomes) ∧
      (∀ p, Relation.ReflTransGen (Pool.Step (outcome fs) jobs) (Pool.start paths) p →
        p.answer? 0 paths.length = some (paths.mapM (outcome fs)) ∨
          ∃ next, Pool.Step (outcome fs) jobs p next) ∧
      WellFounded fun next p => Pool.Step (outcome fs) jobs p next := by
  refine ⟨fun r => ?_, mapM_outcome_ok, fun p hp => ?_, Pool.wellFounded_step _ jobs⟩
  · rw [mapM_outcome]
    exact comesTo_iff fs jobs paths r
  · have haccounts := Pool.accounts_of_reaches hp
    cases hanswer : p.answer? 0 paths.length with
    | none => exact Or.inr (haccounts.exists_step hjobs hanswer)
    | some r =>
      rw [haccounts.answer?_eq [] rfl hanswer]
      exact Or.inl rfl

/-- Two jobs review a file with a wait in it, a missing file, and the first one again. -/
theorem comesTo_outcomes_repeated :
    (∀ path ∈ ["a.ts", "b.ts", "a.ts"], Reviewable (waitAfter "\n") path) ∧
      ∃ outcomes, ComesTo (waitAfter "\n") 2 ["a.ts", "b.ts", "a.ts"] (.ok outcomes) ∧
        List.Forall₂ (InPlace (waitAfter "\n")) ["a.ts", "b.ts", "a.ts"] outcomes ∧
        outcomes = [.report (Review.content "/" "a.ts" "x\nwaitForTimeout(1)"),
          .failure ⟨"b.ts", "[Errno 2] No such file or directory: 'b.ts'"⟩,
          .report (Review.content "/" "a.ts" "x\nwaitForTimeout(1)")] := by
  obtain ⟨hcomes, hok, -⟩ :=
    comesTo_outcomes (waitAfter "\n") (show 1 ≤ 2 by decide) ["a.ts", "b.ts", "a.ts"]
  have hpaths : ∀ path ∈ ["a.ts", "b.ts", "a.ts"], Reviewable (waitAfter "\n") path := by
    intro path hpath
    exact reviewable_of_present rfl ((by decide : ∀ path ∈ ["a.ts", "b.ts", "a.ts"],
      hasNull path = false) path hpath)
  obtain ⟨outcomes, houtcomes, hplaces⟩ := hok hpaths
  refine ⟨hpaths, outcomes, (hcomes _).2 houtcomes.symm, hplaces, ?_⟩
  exact Except.ok.inj (houtcomes.symm.trans (by decide +kernel))

/-- Files without the null character in their paths come to one outcome each, wherever the current
directory is. -/
def ComesToOutcomes (fs : FileSystem) (jobs : Nat) (paths : List String) : Prop :=
  (∀ path ∈ paths, hasNull path = false) →
    ∃ outcomes, ComesTo fs jobs paths (.ok outcomes) ∧ outcomes.length = paths.length

/-- In a current directory that was removed, a spec above it can be read but has no role, and the
failure before it is lost too. -/
theorem not_comesToOutcomes_removed :
    ¬ ComesToOutcomes Discovery.removedDirectory 2 ["..", "../x.spec.ts"] := by
  intro hcomes
  obtain ⟨outcomes, hok, -⟩ := hcomes (by decide)
  have hlost : (reviewAll Discovery.removedDirectory ["..", "../x.spec.ts"]).map Prod.fst =
      .error .lostDirectory := by decide +kernel
  rw [comesTo_iff, hlost] at hok
  exact absurd hok nofun

end SuiteLint.Source
