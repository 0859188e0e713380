import SuiteLint.Proofs.Config.Members
import SuiteLint.Proofs.Options.Switches
import SuiteLint.Proofs.Run.Status

/-!
# Runs with the settings of a project

The settings that a project keeps are always in range, so only a number on the command line can be
refused: a command line that names none is followed.
-/

namespace SuiteLint

open Files

/-- A command line whose arguments name no number before any separator. -/
def NamesNoNumber (argv : List String) : Prop :=
  ∀ a ∈ argv.takeWhile (· ≠ "--"),
    ¬ (Switch.setting .jobs).NamedBy a ∧ ¬ (Switch.setting .failUnder).NamedBy a

namespace Run

theorem threshold_of_valid {options : Options} {c : Config} (h : c.Valid)
    (hjobs : options.jobs = none) (hthreshold : options.failUnder = none) :
    threshold (options.resolve c) = .ok c.failUnder := by
  have hsomeJobs : ¬ c.jobs < 1 := by
    have := h.jobs
    omega
  have hrange : Config.isThreshold c.failUnder = true := Config.isThreshold_iff.2 h.failUnder
  simp only [threshold, Options.resolve, hjobs, hthreshold, Option.getD_none, if_neg hsomeJobs,
    hrange, ↓reduceIte]

theorem threshold_of_namesNoNumber {argv : List String} {options : Options} {c : Config}
    (h : c.Valid) (hparsed : Options.parse argv = .ok options) (hargv : NamesNoNumber argv) :
    threshold (options.resolve c) = .ok c.failUnder :=
  threshold_of_valid h (Options.parse_number? hparsed fun a ha => (hargv a ha).1)
    (Options.parse_number? hparsed fun a ha => (hargv a ha).2)

theorem status_ne_two [Room] {fs : FileSystem} {console : Console} {s : Settings} {n : Int}
    {result : Result} (h : threshold s = .ok n) (hreview : review fs console s = .ok result) :
    result.status ≠ 2 := by
  rw [review, h] at hreview
  simp only at hreview
  split at hreview
  · cases hreview
  · unfold reviewFound at hreview
    split at hreview
    · obtain rfl := Except.ok.inj hreview
      exact Nat.zero_ne_add_one 1
    · split at hreview
      · cases hreview
      · obtain rfl := Except.ok.inj hreview
        rename_i outcomes more _
        show gate n ⟨outcomes⟩ ≠ 2
        rcases gate_eq n ⟨outcomes⟩ with hgate | hgate <;> rw [hgate] <;> decide

end Run

/-- Settings that are loaded are in range and settled key by key, each by the last member that is
written for it. A command line that names no number is followed with them and never refused. -/
theorem load_settled [Room] {fs : FileSystem} {path : String} {c : Config} {notes : List Note}
    (h : Config.load fs path = .ok (c, notes)) :
    c.Valid ∧
    (∀ bytes, hasNull (Path.tidy path) = false → fs.lookup (Path.tidy path) = .ok (.file bytes) →
      ∀ k, c.value k = k.settle (Config.written? bytes k)) ∧
    ∀ argv options, Options.parse argv = .ok options → NamesNoNumber argv →
      Run.threshold (options.resolve c) = .ok c.failUnder ∧
      ∀ fs console result, Run.review fs console (options.resolve c) = .ok result →
        result.status ≠ 2 := by
  have hvalid := Config.valid_of_load h
  refine ⟨hvalid, fun bytes hnull hlookup k => ?_, fun argv options hparsed hargv => ?_⟩
  · rw [Config.load_of_file hnull hlookup] at h
    exact (Config.settledBy_of_ofBytes h).value k
  · have hthreshold := Run.threshold_of_namesNoNumber hvalid hparsed hargv
    exact ⟨hthreshold, fun _ _ _ hreview => Run.status_ne_two hthreshold hreview⟩

/-- Settings with repeated keys, an unknown one, a truth value for the number of jobs, and half of a
surrogate pair among the exclusions. -/
def repeatedKeys : List UInt8 :=
  ("\x7b\"jobs\": 3, \"fail_under\": 11, \"x\": 0, \"jobs\": true, ".toList ++
    "\"fail_under\": 7, \"exclude\": [1, \"a\\ud800\"]\x7d".toList).map fun c => c.toNat.toUInt8

/-- What they come to. -/
def repeatedConfig : Config :=
  ⟨[[.char '1'], [.char 'a', .half 0xD800]], false, 1, 7⟩

/-- The last of the repeated keys count: a truth value is no number of jobs, and 7 is in range. -/
theorem load_settled_repeated :
    ∃ notes, Config.load (Config.settingsFile repeatedKeys) "c.json" =
        .ok (repeatedConfig, notes) ∧
      (∀ k, repeatedConfig.value k = k.settle (Config.written? repeatedKeys k)) ∧
      Run.threshold (Options.unset.resolve repeatedConfig) = .ok 7 := by
  have hload : Config.load (Config.settingsFile repeatedKeys) "c.json" =
      .ok (repeatedConfig,
        [.warning "Config key 'jobs' should be int; using default",
          .log ⟨"playwright_review.config", "Ignoring unknown config key 'x' in c.json"⟩]) := by
    decide +kernel
  obtain ⟨-, hvalue, hfollowed⟩ := load_settled hload
  exact ⟨_, hload, hvalue repeatedKeys rfl rfl, (hfollowed [] Options.unset rfl nofun).1⟩

end SuiteLint
