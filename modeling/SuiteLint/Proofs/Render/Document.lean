import SuiteLint.Proofs.Json.Printable
import SuiteLint.Render

/-!
# The document of a run

The JSON document of a run is read back as what was written, and the run is recovered from it: its
outcomes in order, each with its findings, and reports told apart from files that could not be
read. So no two runs have the same document. Integers are assumed to have no more digits than a
reader takes; everything else is free.
-/

namespace SuiteLint

namespace Json

/-! ## Values taken apart -/

def Value.string? : Value → Option String
  | .text s => (s.mapM Symbol.char?).map String.ofList
  | _ => none

def Value.int? : Value → Option Int
  | .int n => some n
  | _ => none

def Value.items? : Value → Option (List Value)
  | .array items => some items
  | _ => none

theorem mapM_map_eq_some {α β : Type} {write : α → β} {read : β → Option α}
    (h : ∀ a, read (write a) = some a) (as : List α) : (as.map write).mapM read = some as := by
  induction as with
  | nil => rfl
  | cons a as ih => simp [h, ih]

theorem string?_string (s : String) : (Value.string s).string? = some s := by
  have hchars : (symbols s).mapM Symbol.char? = some s.toList :=
    mapM_map_eq_some (fun c => show Symbol.char? (.char c) = some c from rfl) s.toList
  rw [Value.string, Value.string?, hchars, Option.map_some, String.ofList_toList]

theorem get?_record (members : List (String × Value)) (key : String) :
    (Value.record members).get? key = (members.find? (·.1 = key)).map (·.2) := by
  have hkey : ∀ m : String × Value, decide (symbols m.1 = symbols key) = decide (m.1 = key) :=
    fun m => decide_eq_decide.2 ⟨symbols_injective, fun h => h ▸ rfl⟩
  rw [Value.record, Value.get?, List.find?_map, Option.map_map]
  simp only [Function.comp_def, hkey]

/-- An integer that a reader takes. -/
def Readable (n : Int) : Prop :=
  n.natAbs < 10 ^ Text.maxDigits

end Json

open Json

/-! ## Findings and outcomes recovered -/

def Issue.ofJson? (v : Value) : Option Issue := do
  let rule ← (← v.get? "rule").string?
  let severity ← (← v.get? "severity").string?
  let description ← (← v.get? "description").string?
  let line ← (← v.get? "line").int?
  let suggestion ← (← v.get? "suggestion").string?
  return ⟨rule, severity, description, line, suggestion⟩

def Positive.ofJson? (v : Value) : Option Positive := do
  let description ← (← v.get? "description").string?
  let line ← (← v.get? "line").int?
  return ⟨description, line⟩

def Report.ofJson? (v : Value) : Option Report := do
  let path ← (← v.get? "path").string?
  let role ← (Role.ofLabel (← (← v.get? "role").string?)).toOption
  let issues ← (← (← v.get? "issues").items?).mapM Issue.ofJson?
  let positives ← (← (← v.get? "positives").items?).mapM Positive.ofJson?
  let score ← (← v.get? "score").int?
  return ⟨path, role, issues, positives, score⟩

def ReadFailure.ofJson? (v : Value) : Option ReadFailure := do
  let path ← (← v.get? "path").string?
  let message ← (← v.get? "error").string?
  return ⟨path, message⟩

/-- Only a file that could not be read has an error. -/
def Outcome.ofJson? (v : Value) : Option Outcome :=
  if (v.get? "error").isSome then (ReadFailure.ofJson? v).map .failure
  else (Report.ofJson? v).map .report

def Summary.ofJson? (v : Value) : Option Summary := do
  let outcomes ← (← (← v.get? "files").items?).mapM Outcome.ofJson?
  return ⟨outcomes⟩

theorem Issue.ofJson?_toJson (i : Issue) : Issue.ofJson? i.toJson = some i := by
  simp [Issue.ofJson?, Issue.toJson, get?_record, string?_string, Value.int?]

theorem Positive.ofJson?_toJson (p : Positive) : Positive.ofJson? p.toJson = some p := by
  simp [Positive.ofJson?, Positive.toJson, get?_record, string?_string, Value.int?]

theorem Role.ofLabel_label (role : Role) : Role.ofLabel role.label = .ok role := by
  cases role <;> decide

theorem Report.ofJson?_toJson (r : Report) : Report.ofJson? r.toJson = some r := by
  simp [Report.ofJson?, Report.toJson, get?_record, string?_string, Value.int?, Value.items?,
    Role.ofLabel_label, Except.toOption, mapM_map_eq_some Issue.ofJson?_toJson,
    mapM_map_eq_some Positive.ofJson?_toJson]

theorem Outcome.ofJson?_toJson (o : Outcome) : Outcome.ofJson? o.toJson = some o := by
  cases o with
  | report r =>
    have hnone : (r.toJson.get? "error").isSome = false := by
      simp [Report.toJson, get?_record]
    simp [Outcome.ofJson?, Outcome.toJson, hnone, Report.ofJson?_toJson]
  | failure f =>
    simp [Outcome.ofJson?, Outcome.toJson, ReadFailure.toJson, ReadFailure.ofJson?, get?_record,
      string?_string]

theorem Summary.ofJson?_toJson (s : Summary) : Summary.ofJson? s.toJson = some s := by
  simp [Summary.ofJson?, Summary.toJson, get?_record, Value.items?,
    mapM_map_eq_some Outcome.ofJson?_toJson]

/-! ## What is written -/

theorem Issue.plain (i : Issue) : Plain i.toJson := by
  refine .record (show ["rule", "severity", "description", "line", "suggestion"].Nodup by decide) ?_
  simp only [List.forall_mem_cons, List.not_mem_nil, false_implies, implies_true, and_true]
  exact ⟨.string _, .string _, .string _, .int _, .string _⟩

theorem Positive.plain (p : Positive) : Plain p.toJson := by
  refine .record (show ["description", "line"].Nodup by decide) ?_
  simp only [List.forall_mem_cons, List.not_mem_nil, false_implies, implies_true, and_true]
  exact ⟨.string _, .int _⟩

theorem Report.plain (r : Report) : Plain r.toJson := by
  have hcounts : Plain (.record (Severity.all.map fun severity =>
      (severity.label, .int (r.count severity)))) := by
    refine .record (show ["HIGH", "MEDIUM"].Nodup by decide) ?_
    intro m hm
    obtain ⟨severity, -, rfl⟩ := List.mem_map.1 hm
    exact .int _
  refine .record
    (show ["path", "role", "score", "counts", "issues", "positives"].Nodup by decide) ?_
  simp only [List.forall_mem_cons, List.not_mem_nil, false_implies, implies_true, and_true]
  exact ⟨.string _, .string _, .int _, hcounts, .array (List.forall_mem_map.2 fun i _ => i.plain),
    .array (List.forall_mem_map.2 fun p _ => p.plain)⟩

theorem Outcome.plain (o : Outcome) : Plain o.toJson := by
  cases o with
  | report r => exact r.plain
  | failure f =>
    refine .record (show ["path", "error"].Nodup by decide) ?_
    simp only [List.forall_mem_cons, List.not_mem_nil, false_implies, implies_true, and_true]
    exact ⟨.string _, .string _⟩

theorem Summary.plain (s : Summary) : Plain s.toJson := by
  refine .record (show ["files", "reviewed", "failed", "lowest_score"].Nodup by decide) ?_
  simp only [List.forall_mem_cons, List.not_mem_nil, false_implies, implies_true, and_true]
  refine ⟨.array (List.forall_mem_map.2 fun o _ => o.plain), .int _, .int _, ?_⟩
  cases s.lowestScore? with
  | none => exact .null
  | some score => exact .int score

/-! ## Everything is kept -/

/-- The integers of a report can be read, its numbers of issues included. -/
structure Report.Readable (r : Report) : Prop where
  score : Json.Readable r.score
  issues : ∀ i ∈ r.issues, Json.Readable i.line
  positives : ∀ p ∈ r.positives, Json.Readable p.line
  counts : Json.Readable r.issues.length

/-- The integers of a run can be read, its number of files included. -/
structure Summary.Readable (s : Summary) : Prop where
  reports : ∀ r, .report r ∈ s.outcomes → r.Readable
  files : Json.Readable s.outcomes.length

theorem Json.Readable.of_le {m n : Nat} (h : Json.Readable n) (hle : m ≤ n) : Json.Readable m := by
  have hn : n < 10 ^ Text.maxDigits := h
  show m < 10 ^ Text.maxDigits
  omega

theorem Issue.kept {i : Issue} (h : Json.Readable i.line) (room : Nat) :
    Kept (room + 1) i.toJson := by
  refine .record (show ["rule", "severity", "description", "line", "suggestion"].Nodup by decide) ?_
  simp only [List.forall_mem_cons, List.not_mem_nil, false_implies, implies_true, and_true]
  exact ⟨.string _ _, .string _ _, .string _ _, .int _ h, .string _ _⟩

theorem Positive.kept {p : Positive} (h : Json.Readable p.line) (room : Nat) :
    Kept (room + 1) p.toJson := by
  refine .record (show ["description", "line"].Nodup by decide) ?_
  simp only [List.forall_mem_cons, List.not_mem_nil, false_implies, implies_true, and_true]
  exact ⟨.string _ _, .int _ h⟩

theorem Report.kept {r : Report} (h : r.Readable) (room : Nat) : Kept (room + 3) r.toJson := by
  have hcount : ∀ severity, Json.Readable (r.count severity) :=
    fun severity => h.counts.of_le List.countP_le_length
  have hcounts : Kept (room + 2) (.record (Severity.all.map fun severity =>
      (severity.label, .int (r.count severity)))) := by
    refine .record (show ["HIGH", "MEDIUM"].Nodup by decide) ?_
    intro m hm
    obtain ⟨severity, -, rfl⟩ := List.mem_map.1 hm
    exact .int _ (hcount severity)
  have hissues : Kept (room + 2) (.array (r.issues.map Issue.toJson)) := by
    refine .array fun v hv => ?_
    obtain ⟨i, hi, rfl⟩ := List.mem_map.1 hv
    exact i.kept (h.issues i hi) room
  have hpositives : Kept (room + 2) (.array (r.positives.map Positive.toJson)) := by
    refine .array fun v hv => ?_
    obtain ⟨p, hp, rfl⟩ := List.mem_map.1 hv
    exact p.kept (h.positives p hp) room
  refine .record
    (show ["path", "role", "score", "counts", "issues", "positives"].Nodup by decide) ?_
  simp only [List.forall_mem_cons, List.not_mem_nil, false_implies, implies_true, and_true]
  exact ⟨.string _ _, .string _ _, .int _ h.score, hcounts, hissues, hpositives⟩

theorem ReadFailure.kept (f : ReadFailure) (room : Nat) : Kept (room + 1) f.toJson := by
  refine .record (show ["path", "error"].Nodup by decide) ?_
  simp only [List.forall_mem_cons, List.not_mem_nil, false_implies, implies_true, and_true]
  exact ⟨.string _ _, .string _ _⟩

/-- The least score is the score of a report. -/
theorem Summary.exists_report_of_lowestScore? {s : Summary} {score : Int}
    (h : s.lowestScore? = some score) : ∃ r, .report r ∈ s.outcomes ∧ r.score = score := by
  obtain ⟨r, hr, hscore⟩ := List.mem_map.1 (List.min?_mem h)
  obtain ⟨o, ho, hreport⟩ := List.mem_filterMap.1 hr
  cases o with
  | report r' =>
    obtain rfl : r' = r := Option.some.inj hreport
    exact ⟨r', ho, hscore⟩
  | failure f => exact absurd hreport nofun

theorem Summary.kept {s : Summary} (h : s.Readable) (room : Nat) : Kept (room + 5) s.toJson := by
  have hfiles : Kept (room + 4) (.array (s.outcomes.map Outcome.toJson)) := by
    refine .array fun v hv => ?_
    obtain ⟨o, ho, rfl⟩ := List.mem_map.1 hv
    cases o with
    | report r => exact r.kept (h.reports r ho) room
    | failure f => exact f.kept (room + 2)
  have hreviewed : Json.Readable s.reports.length := h.files.of_le (List.length_filterMap_le _ _)
  have hfailed : Json.Readable s.failures.length := h.files.of_le (List.length_filterMap_le _ _)
  refine .record (show ["files", "reviewed", "failed", "lowest_score"].Nodup by decide) ?_
  simp only [List.forall_mem_cons, List.not_mem_nil, false_implies, implies_true, and_true]
  refine ⟨hfiles, .int _ hreviewed, .int _ hfailed, ?_⟩
  cases hscore : s.lowestScore? with
  | none => exact .null _
  | some score =>
    obtain ⟨r, hr, rfl⟩ := Summary.exists_report_of_lowestScore? hscore
    exact .int _ (h.reports r hr).score

namespace Render

theorem toList_json (s : Summary) : (json s).toList = write 0 s.toJson ++ ['\n'] := by
  rw [json, Json.render, String.toList_append, String.toList_ofList]
  rfl

theorem isInk_json (s : Summary) : ∀ c ∈ (json s).toList, Json.IsInk c := by
  rw [toList_json, List.forall_mem_append]
  exact ⟨s.plain.isInk 0, Json.isInk_of_all (by decide)⟩

theorem parse_json [StartRoom] {s : Summary} (h : s.Readable) :
    Json.parse (json s).toList = .ok s.toJson := by
  -- Five containers lie inside each other, and at the start there is room for many more.
  have hkept : Kept Room.containers s.toJson := by
    obtain ⟨more, hmore⟩ := Nat.exists_eq_add_of_le StartRoom.leastContainers_le
    have hroom : Room.containers = (984 + more) + 5 := by
      rw [hmore, leastContainers]
      omega
    rw [hroom]
    exact Summary.kept h (984 + more)
  rw [toList_json]
  exact hkept.parse_write fun c hc => List.mem_singleton.1 hc

/-- The document of a run is ASCII text that is read back as what was written. It holds the whole
run, so no other run has the same document. -/
theorem json_recoverable [StartRoom] {s : Summary} (h : s.Readable) :
    (∀ c ∈ (json s).toList, Json.IsInk c) ∧ Json.parse (json s).toList = .ok s.toJson ∧
      Summary.ofJson? s.toJson = some s ∧
      ∀ s' : Summary, s'.Readable → json s' = json s → s' = s := by
  refine ⟨?_, parse_json h, Summary.ofJson?_toJson s, fun s' h' heq => ?_⟩
  · rw [toList_json, List.forall_mem_append]
    exact ⟨(Summary.kept h 0).isInk 0, Json.isInk_of_all (by decide)⟩
  · have hparse := parse_json h'
    rw [heq, parse_json h] at hparse
    have hjson : s.toJson = s'.toJson := Except.ok.inj hparse
    have hsome := Summary.ofJson?_toJson s'
    rw [← hjson, Summary.ofJson?_toJson s] at hsome
    exact (Option.some.inj hsome).symm

/-- A run with a text that needs every form of escape, and a file that could not be read. -/
def mixedRun : Summary where
  outcomes := [
    .report ⟨"tests/\"a\\b\".spec.ts", .testSpec,
      [⟨"xpath", "MEDIUM", "tab\tand é and 😀", -3, ""⟩], [⟨"line\nend", 0⟩], 9⟩,
    .failure ⟨"gone\x00", "[Errno 2]"⟩]

theorem json_recoverable_mixedRun :
    mixedRun.Readable ∧ Json.parse (json mixedRun).toList = .ok mixedRun.toJson := by
  have hsmall : ∀ n : Int, n.natAbs < 10 → Json.Readable n := fun n hn =>
    Nat.lt_of_lt_of_le hn (Nat.le_self_pow (by decide) 10)
  have hreadable : mixedRun.Readable := by
    refine ⟨fun r hr => ?_, hsmall _ (by decide)⟩
    rcases List.mem_cons.1 hr with heq | hr
    · obtain rfl := Outcome.report.inj heq
      refine ⟨hsmall _ (by decide), ?_, ?_, hsmall _ (by decide)⟩
      · intro i hi
        rw [List.mem_singleton.1 hi]
        exact hsmall _ (by decide)
      · intro p hp
        rw [List.mem_singleton.1 hp]
        exact hsmall _ (by decide)
    · exact absurd (List.mem_singleton.1 hr) nofun
  exact ⟨hreadable, (json_recoverable hreadable).2.1⟩

end Render

end SuiteLint
