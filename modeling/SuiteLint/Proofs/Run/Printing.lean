import SuiteLint.Proofs.Json.Grammar
import SuiteLint.Proofs.Options.Switches
import SuiteLint.Proofs.Render.Document
import SuiteLint.Proofs.Run.Status

/-!
# The document that a run prints

A run that is asked for a document prints one and nothing else, with an entry for each file in the
order of the search. There is one exception: a run that finds no files prints a notice instead,
which is no document.
-/

namespace SuiteLint

open Files

/-! ## Documents of runs -/

theorem Render.document_json (s : Summary) : Json.Document s.toJson (json s).toList := by
  rw [toList_json]
  exact s.plain.writes.document fun c hc => List.mem_singleton.1 hc ▸ rfl

/-! ## Entries -/

theorem Outcome.get?_path (o : Outcome) : o.toJson.get? "path" = some (.string o.path) := by
  cases o with
  | report r => simp [Outcome.toJson, Report.toJson, Json.get?_record, Outcome.path]
  | failure f => simp [Outcome.toJson, ReadFailure.toJson, Json.get?_record, Outcome.path]

theorem Summary.get?_files (s : Summary) :
    s.toJson.get? "files" = some (.array (s.outcomes.map Outcome.toJson)) := by
  simp [Summary.toJson, Json.get?_record]

/-- A document has one entry for each file, in order. -/
def Lists (v : Json.Value) (files : List String) : Prop :=
  ∃ entries, v.get? "files" = some (.array entries) ∧
    List.Forall₂ (fun path entry => entry.get? "path" = some (.string path)) files entries

theorem lists_toJson {fs : FileSystem} {files : List String} {outcomes : List Outcome}
    (h : List.Forall₂ (Source.Gives fs) files outcomes) :
    Lists (Summary.mk outcomes).toJson files := by
  refine ⟨_, Summary.get?_files _, List.forall₂_map_right_iff.2 (h.imp fun path o hgives => ?_)⟩
  rw [o.get?_path, hgives.path_eq]

/-! ## Runs that are asked for a document -/

theorem not_document_notice (console : Console) (v : Json.Value) :
    ¬ Json.Document v (console.render Render.noFiles).toList := by
  intro hdocument
  obtain ⟨c, cs, hcons, hc⟩ := hdocument.startsAscii
  have hhead : (console.render Render.noFiles).toList.head? = some '🔍' := by
    show "🔍 No Playwright test files found.\n".toList.head? = some '🔍'
    decide
  rw [hcons] at hhead
  obtain rfl : c = '🔍' := Option.some.inj hhead
  exact absurd hc (by decide)

/-- A run that is asked for a document prints it and nothing else: it holds the outcomes of the
files that were found, one after the other, and is read back if its integers can be read. Where no
files are found, a notice is printed that is no document. -/
theorem execute_document [StartRoom] {fs : FileSystem} {around : Surroundings} {argv : List String}
    {options : Options} {config : Config} {n : Int} (h : Starts fs around argv options config)
    (hjson : "--json" ∈ argv.takeWhile (· ≠ "--"))
    (hthreshold : Run.threshold (options.resolve config) = .ok n)
    (hshallow : (options.resolve config).Shallow fs) :
    ∃ ending files notes, Run.execute fs around argv = .ok ending ∧
      Discovery.find fs options.path (options.resolve config).includeJs
        (options.resolve config).exclusions = .ok (files, notes) ∧
      (files ≠ [] → ∃ s : Summary, List.Forall₂ (Source.Gives fs) files s.outcomes ∧
        Json.Document s.toJson ending.stdout.toList ∧ Lists s.toJson files ∧
        (s.Readable → Json.parse ending.stdout.toList = .ok s.toJson)) ∧
      (files = [] → ending.stdout = "🔍 No Playwright test files found.\n" ∧
        ∀ v, ¬ Json.Document v ending.stdout.toList) := by
  obtain ⟨files, notes, outcomes, more, result, hfind, -, houtcomes, hreview, -, houtput⟩ :=
    Run.exists_review hthreshold h.present h.names h.noNull_path hshallow around.console
  obtain ⟨stderr, hexecute⟩ := h.execute_of_review hreview
  refine ⟨_, files, notes, hexecute, hfind, fun hfiles => ?_, fun hnone => ?_⟩
  · have hasked : options.json = true := (Options.parse_json h.parsed).2 hjson
    have hprinted : result.output = Render.json ⟨outcomes⟩ := by
      rw [houtput, if_neg hfiles, Run.output, Options.resolve, hasked, if_pos rfl]
    refine ⟨⟨outcomes⟩, houtcomes, ?_, lists_toJson houtcomes, fun hreadable => ?_⟩
    · rw [hprinted]
      exact Render.document_json _
    · rw [hprinted]
      exact Render.parse_json hreadable
  · rw [if_pos hnone] at houtput
    refine ⟨houtput, fun v hdocument => ?_⟩
    rw [houtput] at hdocument
    exact not_document_notice around.console v hdocument

/-- The document of one file with a wait in it. -/
theorem execute_document_wait :
    ∃ ending v, Run.execute (Source.waitAfter "\n") plainRun ["a.ts", "--json"] = .ok ending ∧
      Json.Document v ending.stdout.toList ∧ Lists v ["a.ts"] := by
  have hstarts : Starts (Source.waitAfter "\n") plainRun ["a.ts", "--json"]
      ⟨"a.ts", false, true, [], none, none, false⟩ Config.default :=
    ⟨by decide, rfl, by decide, by decide +kernel,
      ⟨"/.playwright-review/config.json", [], by decide +kernel, by decide +kernel⟩, rfl⟩
  have hfile : (Source.waitAfter "\n").lookup "a.ts" =
      .ok (.file ("x\nwaitForTimeout(1)".toList.map fun c => c.toNat.toUInt8)) := rfl
  obtain ⟨ending, files, notes, hexecute, hfind, hprinted, -⟩ :=
    execute_document hstarts (by decide) rfl fun t ht => absurd (hfile.symm.trans ht) nofun
  have hfiles := Discovery.find_of_file (by decide) hfile false []
  obtain ⟨rfl, -⟩ := Prod.mk.inj (Except.ok.inj (hfind.symm.trans hfiles))
  obtain ⟨s, -, hdocument, hlists, -⟩ := hprinted (by simp)
  exact ⟨ending, s.toJson, hexecute, hdocument, hlists⟩

/-- A run that is asked for a document prints one, whatever it finds. -/
def PrintsDocument [Room] (fs : FileSystem) (around : Surroundings) (argv : List String) : Prop :=
  ∀ options config n, Starts fs around argv options config →
    "--json" ∈ argv.takeWhile (· ≠ "--") → Run.threshold (options.resolve config) = .ok n →
    ∃ ending files notes v, Run.execute fs around argv = .ok ending ∧
      Discovery.find fs options.path (options.resolve config).includeJs
        (options.resolve config).exclusions = .ok (files, notes) ∧
      Json.Document v ending.stdout.toList ∧ Lists v files

/-- Where there are no files, no document is printed. -/
theorem not_printsDocument_bare : ¬ PrintsDocument bareDirectory plainRun ["--json"] := by
  intro hprints
  have hparsed : Options.parse ["--json"] = .ok { Options.unset with json := true } := by
    decide +kernel
  obtain ⟨ending, files, notes, v, hexecute, -, hdocument, -⟩ :=
    hprints _ _ 0 (starts_bare (by decide) hparsed) (by decide) rfl
  have hnotice : Run.execute bareDirectory plainRun ["--json"] =
      .ok ⟨0, plainRun.console.render Render.noFiles, ""⟩ := by
    decide +kernel
  obtain rfl := Except.ok.inj (hnotice.symm.trans hexecute)
  exact not_document_notice _ v hdocument

end SuiteLint
