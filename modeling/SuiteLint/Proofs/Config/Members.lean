import SuiteLint.Config
import SuiteLint.Proofs.Json.Members

/-!
# Settings key by key

Whatever a document holds, the settings read from it are in range, and each of them depends on one
member alone: the last that is written for its key. A value of the declared kind is taken, with
numbers brought into range; any other leaves the default.
-/

namespace SuiteLint

open Files

namespace Config

/-- The value of a setting. -/
def value (c : Config) : Key → Json.Value
  | .exclude => .array (c.exclude.map .text)
  | .includeJs => .bool c.includeJs
  | .jobs => .int c.jobs
  | .failUnder => .int c.failUnder

/-- The value that a setting takes from the member that is written for it. -/
def Key.settle : Key → Option Json.Value → Json.Value
  | .exclude, some (.array vs) => .array (vs.map fun v => .text (Json.spell v))
  | .includeJs, some (.bool b) => .bool b
  | .jobs, some (.int n) => .int (if n < 1 then 1 else n)
  | .failUnder, some (.int n) => .int (if 0 ≤ n ∧ n ≤ 10 then n else 0)
  | k, _ => default.value k

/-- Settings that can be followed. -/
structure Valid (c : Config) : Prop where
  jobs : 1 ≤ c.jobs
  failUnder : 0 ≤ c.failUnder ∧ c.failUnder ≤ 10

/-- The members of the object in a document, as they are written. -/
def writtenMembers [Room] (bytes : List UInt8) : List (List Json.Symbol × Json.Value) :=
  match Text.Utf8.decode bytes with
  | .error _ => []
  | .ok text =>
    match Json.parse (Text.unifyNewlines text) with
    | .ok (.object _) => Json.writtenMembers (Text.unifyNewlines text)
    | _ => []

/-- What the members that are written say about a key: the last of them counts. -/
def written? [Room] (bytes : List UInt8) (k : Key) : Option Json.Value :=
  Json.last? (writtenMembers bytes) (Json.symbols k.name)

theorem Key.ofSymbols?_eq_some_iff {key : List Json.Symbol} {k : Key} :
    ofSymbols? key = some k ↔ key = Json.symbols k.name := by
  constructor
  · intro h
    simpa [eq_comm] using List.find?_some h
  · rintro rfl
    cases k <;> decide

/-! ## Members in order -/

/-- A value of the kind that a key declares, as a setting holds it. -/
def Key.accept? : Key → Json.Value → Option Json.Value
  | .exclude, .array vs => some (.array (vs.map fun v => .text (Json.spell v)))
  | .includeJs, .bool b => some (.bool b)
  | .jobs, .int n => some (.int n)
  | .failUnder, .int n => some (.int n)
  | _, _ => none

/-- A member sets its own key, if its value is accepted, and no other. -/
theorem value_take (path : String) (c : Config) (key : List Json.Symbol) (v : Json.Value)
    (k : Key) : (take path c key v).1.value k =
      if key = Json.symbols k.name then (k.accept? v).getD (c.value k) else c.value k := by
  have hkey : (key = Json.symbols k.name) = (Key.ofSymbols? key = some k) :=
    propext Key.ofSymbols?_eq_some_iff.symm
  simp only [hkey, take]
  cases Key.ofSymbols? key with
  | none => rfl
  | some k' =>
    cases k' with
    | exclude => cases v <;> cases k <;> simp [value, Key.accept?]
    | includeJs => cases v <;> cases k <;> rfl
    | jobs => cases v <;> cases k <;> rfl
    | failUnder => cases v <;> cases k <;> rfl

theorem value_takeAll (path : String) (c : Config) {ms : List (List Json.Symbol × Json.Value)}
    (h : (ms.map Prod.fst).Nodup) (k : Key) : (takeAll path c ms).1.value k =
      ((Json.lookup ms (Json.symbols k.name)).bind k.accept?).getD (c.value k) := by
  induction ms generalizing c with
  | nil => rfl
  | cons m ms ih =>
    obtain ⟨key, v⟩ := m
    obtain ⟨hkey, hms⟩ := List.nodup_cons.1 h
    rw [takeAll, ih _ hms, value_take, Json.lookup_cons]
    by_cases hk : key = Json.symbols k.name
    · have hnone : Json.lookup ms (Json.symbols k.name) = none := Json.lookup_eq_none (hk ▸ hkey)
      rw [if_pos hk, if_pos hk, hnone]
      rfl
    · rw [if_neg hk, if_neg hk]

/-! ## Numbers in range -/

theorem isThreshold_iff {n : Int} : isThreshold n = true ↔ 0 ≤ n ∧ n ≤ 10 := by
  rw [isThreshold, Bool.and_eq_true, decide_eq_true_iff, decide_eq_true_iff]
  rfl

/-- Settings with their numbers brought into range. -/
def settled (c : Config) : Config where
  exclude := c.exclude
  includeJs := c.includeJs
  jobs := if c.jobs < 1 then 1 else c.jobs
  failUnder := if 0 ≤ c.failUnder ∧ c.failUnder ≤ 10 then c.failUnder else 0

theorem coerceThreshold_int (n : Int) : coerceThreshold (.int n) = .ok (n, isThreshold n) := rfl

/-- An integer can always be brought into range. -/
theorem settleThreshold_eq (c : Config) : ∃ notes, settleThreshold c =
    .ok ({ c with failUnder := c.settled.failUnder }, notes) := by
  rw [settleThreshold, coerceThreshold_int]
  by_cases h : 0 ≤ c.failUnder ∧ c.failUnder ≤ 10
  · refine ⟨[], ?_⟩
    rw [isThreshold_iff.2 h, settled, if_pos h]
    rfl
  · have hfalse : isThreshold c.failUnder = false := by
      rw [← Bool.not_eq_true, isThreshold_iff]
      exact h
    rw [hfalse, settled, if_neg h]
    exact ⟨_, rfl⟩

theorem settleJobs_eq (c : Config) :
    settleJobs { c with failUnder := c.settled.failUnder } = c.settled := by
  unfold settleJobs settled
  dsimp only
  split <;> rfl

theorem valid_settled (c : Config) : c.settled.Valid := by
  constructor
  · show 1 ≤ if c.jobs < 1 then 1 else c.jobs
    split <;> omega
  · show 0 ≤ (if 0 ≤ c.failUnder ∧ c.failUnder ≤ 10 then c.failUnder else 0) ∧
      (if 0 ≤ c.failUnder ∧ c.failUnder ≤ 10 then c.failUnder else 0) ≤ 10
    split <;> omega

theorem valid_default : default.Valid :=
  ⟨by decide, by decide, by decide⟩

/-- A value brought into the range of its key. -/
def Key.inRange : Key → Json.Value → Json.Value
  | .jobs, .int n => .int (if n < 1 then 1 else n)
  | .failUnder, .int n => .int (if 0 ≤ n ∧ n ≤ 10 then n else 0)
  | _, v => v

theorem value_settled (c : Config) (k : Key) : c.settled.value k = k.inRange (c.value k) := by
  cases k <;> rfl

theorem Key.settle_eq (k : Key) (given : Option Json.Value) :
    k.settle given = k.inRange ((given.bind k.accept?).getD (default.value k)) := by
  cases given with
  | none => cases k <;> rfl
  | some v => cases k <;> cases v <;> rfl

/-- The settings of an object are those that its members leave, with the numbers in range. -/
theorem ofJson_object (path : String) (ms : List (List Json.Symbol × Json.Value)) :
    ∃ notes, ofJson path (.object ms) = .ok ((takeAll path default ms).1.settled, notes) := by
  obtain ⟨notes, hsettle⟩ := settleThreshold_eq (takeAll path default ms).1
  refine ⟨(takeAll path default ms).2 ++ notes, ?_⟩
  simp only [ofJson, hsettle, Except.map, settleJobs_eq]

theorem ofJson_of_ne_object (path : String) {document : Json.Value}
    (h : ∀ ms, document ≠ .object ms) : ∃ notes, ofJson path document = .ok (default, notes) := by
  unfold ofJson
  split
  · exact absurd rfl (h _)
  · exact ⟨_, rfl⟩

/-- The settings of an object are settled key by key. -/
theorem value_settled_takeAll (path : String) {ms : List (List Json.Symbol × Json.Value)}
    (h : (ms.map Prod.fst).Nodup) (k : Key) : (takeAll path default ms).1.settled.value k =
      k.settle (Json.lookup ms (Json.symbols k.name)) := by
  rw [value_settled, value_takeAll path default h, Key.settle_eq]

/-! ## Documents -/

/-- Bytes hold an object: they are text, and the text is a document whose value is an object. -/
def HoldsObject [Room] (bytes : List UInt8) : Prop :=
  ∃ text ms, Text.Utf8.decode bytes = .ok text ∧
    Json.parse (Text.unifyNewlines text) = .ok (.object ms)

/-- Settings that are in range and settled key by key by what is written. -/
structure SettledBy [Room] (bytes : List UInt8) (c : Config) : Prop where
  valid : c.Valid
  value : ∀ k, c.value k = k.settle (written? bytes k)

theorem settledBy_default [Room] {bytes : List UInt8} (h : writtenMembers bytes = []) :
    SettledBy bytes default := by
  refine ⟨valid_default, fun k => ?_⟩
  rw [written?, h]
  cases k <;> rfl

/-- Bytes that are read give the settings of the object that they hold, or the defaults if they
hold none. -/
theorem ofBytes_cases [Room] {path : String} {bytes : List UInt8} {c : Config} {notes : List Note}
    (h : ofBytes path bytes = .ok (c, notes)) :
    (∃ text ms, Text.Utf8.decode bytes = .ok text ∧
      Json.parse (Text.unifyNewlines text) = .ok (.object ms) ∧
      c = (takeAll path default ms).1.settled) ∨ (c = default ∧ ¬ HoldsObject bytes) := by
  unfold ofBytes at h
  split at h
  · rename_i fault hdecode
    obtain ⟨rfl, -⟩ := Prod.mk.inj (Except.ok.inj h)
    refine Or.inr ⟨rfl, fun ⟨text, ms, htext, _⟩ => ?_⟩
    exact absurd (hdecode.symm.trans htext) nofun
  · rename_i text hdecode
    have hunique : ∀ {ms}, (∃ text', Text.Utf8.decode bytes = .ok text' ∧
        Json.parse (Text.unifyNewlines text') = .ok (.object ms)) →
        Json.parse (Text.unifyNewlines text) = .ok (.object ms) := by
      rintro ms ⟨text', htext, hparse⟩
      rw [hdecode] at htext
      exact Except.ok.inj htext ▸ hparse
    split at h
    · exact absurd h nofun
    · exact absurd h nofun
    · rename_i e _ _ hparse
      obtain ⟨rfl, -⟩ := Prod.mk.inj (Except.ok.inj h)
      refine Or.inr ⟨rfl, fun ⟨text', ms, htext⟩ => ?_⟩
      exact absurd (hparse.symm.trans (hunique ⟨text', htext⟩)) nofun
    · rename_i document hparse
      by_cases hobject : ∃ ms, document = .object ms
      · obtain ⟨ms, rfl⟩ := hobject
        obtain ⟨notes', hread⟩ := ofJson_object path ms
        obtain ⟨rfl, -⟩ := Prod.mk.inj (Except.ok.inj (h.symm.trans hread))
        exact Or.inl ⟨text, ms, hdecode, hparse, rfl⟩
      · obtain ⟨notes', hread⟩ := ofJson_of_ne_object path (not_exists.1 hobject)
        obtain ⟨rfl, -⟩ := Prod.mk.inj (Except.ok.inj (h.symm.trans hread))
        refine Or.inr ⟨rfl, fun ⟨text', ms, htext⟩ => ?_⟩
        exact hobject ⟨ms, Except.ok.inj (hparse.symm.trans (hunique ⟨text', htext⟩))⟩

/-- The settings that are read from a document are settled by its members. -/
theorem settledBy_of_ofBytes [Room] {path : String} {bytes : List UInt8} {c : Config}
    {notes : List Note} (h : ofBytes path bytes = .ok (c, notes)) : SettledBy bytes c := by
  rcases ofBytes_cases h with ⟨text, ms, hdecode, hparse, rfl⟩ | ⟨rfl, hobject⟩
  · refine ⟨valid_settled _, fun k => ?_⟩
    simp only [written?, writtenMembers, hdecode, hparse]
    obtain rfl := Json.parse_object hparse
    rw [value_settled_takeAll path (Json.nodup_distinct _), Json.lookup_distinct]
  · refine settledBy_default ?_
    unfold writtenMembers
    split
    · rfl
    · rename_i text hdecode
      split
      · rename_i ms hparse
        exact absurd ⟨text, ms, hdecode, hparse⟩ hobject
      · rfl

theorem load_of_file [Room] {fs : FileSystem} {path : String} {bytes : List UInt8}
    (hnull : hasNull (Path.tidy path) = false)
    (hlookup : fs.lookup (Path.tidy path) = .ok (.file bytes)) :
    load fs path = ofBytes (Path.tidy path) bytes := by
  simp only [load, hnull, hlookup, Bool.false_eq_true, ↓reduceIte]

theorem valid_of_load [Room] {fs : FileSystem} {path : String} {c : Config} {notes : List Note}
    (h : load fs path = .ok (c, notes)) : c.Valid := by
  unfold load at h
  simp only at h
  split at h
  · obtain ⟨rfl, -⟩ := Prod.mk.inj (Except.ok.inj h)
    exact valid_default
  · split at h
    · exact absurd h nofun
    · obtain ⟨rfl, -⟩ := Prod.mk.inj (Except.ok.inj h)
      exact valid_default
    · obtain ⟨rfl, -⟩ := Prod.mk.inj (Except.ok.inj h)
      exact valid_default
    · exact (settledBy_of_ofBytes h).valid

/-- A directory with one file, which keeps settings. -/
def settingsFile (bytes : List UInt8) : FileSystem where
  top := .file "c.json" bytes .empty
  cwd := []

end Config

end SuiteLint
