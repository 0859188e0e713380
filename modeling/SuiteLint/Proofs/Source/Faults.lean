import SuiteLint.Proofs.Files.Spelled
import SuiteLint.Proofs.Source.Jobs

/-!
# What stops a search or a review

Nearly every problem with a path is noted and survived: a target that leads nowhere has no files,
and a file that cannot be read is a failure in its place. Three things are not survived. A path that
cannot be handed over to the system stops a search and a review, directories that lie deeper than
there is room for stop a search, and a file whose role depends on a current directory that was
removed stops a review. Each of them takes the answers for all other paths with it.
-/

namespace SuiteLint

open Files

/-! ## Searches -/

namespace Discovery

variable {fs : FileSystem} {includeJs : Bool} {exclusions : List String}

section

variable {target : String}

/-- There is room for every way that the search below a target takes to a directory. -/
def HasRoom [Room] (fs : FileSystem) (target : String) (includeJs : Bool)
    (exclusions : List String) : Prop :=
  ∀ t, fs.lookup target = .ok (.folder t) → fs.locates target = true →
    ∀ way ∈ Search.ways ⟨endings includeJs, exclusions⟩
      (Search.picksFolder ⟨endings includeJs, exclusions⟩ fs) target [] t.here,
      way.length ≤ Room.folders

theorem find_of_error [Room] {cause : Cause} (hnull : hasNull target = false)
    (hlookup : fs.lookup target = .error cause) (includeJs : Bool) (exclusions : List String) :
    find fs target includeJs exclusions =
      .ok ([], [findFailure target (cause.message target)]) := by
  simp only [find, hnull, hlookup, Bool.false_eq_true, ↓reduceIte]

theorem find_of_removed [Room] {t : Trail} (hnull : hasNull target = false)
    (hlookup : fs.lookup target = .ok (.folder t)) (hlocates : fs.locates target = false)
    (includeJs : Bool) (exclusions : List String) :
    find fs target includeJs exclusions =
      .ok ([], [findFailure target Abort.lostDirectory.message]) := by
  simp only [find, hnull, hlookup, hlocates, Bool.false_eq_true, ↓reduceIte]

/-- A search under a text without the null character gives files exactly when there is room for
it. -/
theorem find_ok_iff [Room] (hnull : hasNull target = false) :
    (∃ files notes, find fs target includeJs exclusions = .ok (files, notes)) ↔
      HasRoom fs target includeJs exclusions := by
  constructor
  · intro hok t hlookup hlocates
    obtain ⟨files, notes, hfind⟩ := hok
    rw [← Search.depth_le_iff]
    by_contra hdeep
    rw [find_of_lookup hnull hlookup hlocates, Search.below,
      if_pos (Nat.lt_of_not_le hdeep)] at hfind
    cases hfind
  · intro hroom
    cases hlookup : fs.lookup target with
    | error cause => exact ⟨_, _, find_of_error hnull hlookup includeJs exclusions⟩
    | ok found =>
      cases found with
      | file bytes => exact ⟨_, _, find_of_file hnull hlookup includeJs exclusions⟩
      | folder t =>
        cases hlocates : fs.locates target with
        | false => exact ⟨_, _, find_of_removed hnull hlookup hlocates includeJs exclusions⟩
        | true =>
          have hdepth := (Search.depth_le_iff fs t.here Room.folders).2 (hroom t hlookup hlocates)
          obtain ⟨notes, hfind⟩ := find_of_shallow hnull hlookup hlocates hdepth
          exact ⟨_, notes, hfind⟩

end

variable {target : List Json.Symbol}

/-- A target whose search comes to an end: it can be handed over, and there is room for the search
under the text that it is taken for. -/
structure Searchable [Room] (fs : FileSystem) (target : List Json.Symbol) (includeJs : Bool)
    (exclusions : List String) : Prop where
  encodable : Encodable target
  hasRoom : ∀ text, handOver target = .ok (some text) → HasRoom fs text includeJs exclusions

theorem findSpelled_of_text [Room] {text : String} (h : handOver target = .ok (some text)) :
    (∃ files, findSpelled fs target includeJs exclusions = .ok files) ↔
      ∃ files notes, find fs text includeJs exclusions = .ok (files, notes) := by
  simp only [findSpelled, h]
  cases find fs text includeJs exclusions with
  | error abort => exact ⟨nofun, nofun⟩
  | ok found => exact ⟨fun _ => ⟨found.1, found.2, rfl⟩, fun _ => ⟨found.1, rfl⟩⟩

/-- A search gives files exactly when its target allows it to come to an end. -/
theorem findSpelled_ok_iff [Room] :
    (∃ files, findSpelled fs target includeJs exclusions = .ok files) ↔
      Searchable fs target includeJs exclusions := by
  cases hhand : handOver target with
  | error abort =>
    simp only [findSpelled, hhand]
    refine ⟨nofun, fun h => ?_⟩
    obtain ⟨taken, htaken⟩ := handOver_ok_iff.2 h.encodable
    exact absurd (hhand.symm.trans htaken) nofun
  | ok taken =>
    have hencodable := handOver_ok_iff.1 ⟨taken, hhand⟩
    cases taken with
    | none =>
      simp only [findSpelled, hhand]
      refine ⟨fun _ => ⟨hencodable, fun text htext => ?_⟩, fun _ => ⟨[], rfl⟩⟩
      exact absurd (hhand.symm.trans htext) nofun
    | some text =>
      rw [findSpelled_of_text hhand, find_ok_iff (hasNull_of_handOver hhand)]
      refine ⟨fun hroom => ⟨hencodable, fun text' htext => ?_⟩, fun h => h.hasRoom text hhand⟩
      obtain rfl := Option.some.inj (Except.ok.inj (hhand.symm.trans htext))
      exact hroom

/-- A target that can be handed over and leads nowhere has no files. -/
theorem findSpelled_of_missing [Room] (h : Encodable target)
    (hmissing : ∀ text, handOver target = .ok (some text) → ∃ cause, fs.lookup text = .error cause)
    (includeJs : Bool) (exclusions : List String) :
    findSpelled fs target includeJs exclusions = .ok [] := by
  obtain ⟨taken, hhand⟩ := handOver_ok_iff.2 h
  cases taken with
  | none => simp only [findSpelled, hhand]
  | some text =>
    obtain ⟨cause, hlookup⟩ := hmissing text hhand
    simp only [findSpelled, hhand,
      find_of_error (hasNull_of_handOver hhand) hlookup includeJs exclusions]
    rfl

end Discovery

/-! ## Reviews -/

namespace Source

variable {fs : FileSystem} {jobs : Nat} {path : String} {paths : List String}

/-- A file that can be read and has no role, since that depends on a current directory that was
removed. -/
structure Lost (fs : FileSystem) (path : String) : Prop where
  readable : ∃ bytes, fs.read (Path.tidy path) = .ok bytes
  removed : fs.gone ≠ 0
  relative : Path.isAbsolute path = false
  depends : Role.dependsOnCwd path = true

theorem hasRole_eq_false_iff :
    hasRole fs path = false ↔
      fs.gone ≠ 0 ∧ Path.isAbsolute path = false ∧ Role.dependsOnCwd path = true := by
  simp only [hasRole, FileSystem.locates, Bool.or_eq_false_iff, Bool.not_eq_false',
    beq_eq_false_iff_ne]
  tauto

theorem reviewable_iff : Reviewable fs path ↔ hasNull path = false ∧ ¬ Lost fs path := by
  constructor
  · intro h
    refine ⟨h.noNull, fun hlost => ?_⟩
    obtain ⟨bytes, hread⟩ := hlost.readable
    have hrole := hasRole_eq_false_iff.2 ⟨hlost.removed, hlost.relative, hlost.depends⟩
    rw [h.role bytes hread] at hrole
    exact absurd hrole nofun
  · rintro ⟨hnull, hlost⟩
    refine ⟨hnull, fun bytes hread => ?_⟩
    rw [← Bool.not_eq_false, hasRole_eq_false_iff]
    rintro ⟨hremoved, hrelative, hdepends⟩
    exact hlost ⟨⟨bytes, hread⟩, hremoved, hrelative, hdepends⟩

theorem outcome_of_null (h : hasNull path = true) : outcome fs path = .error .nullCharacter := by
  simp only [outcome, review, read, h, ↓reduceIte]
  rfl

theorem outcome_of_lost (hnull : hasNull path = false) (h : Lost fs path) :
    outcome fs path = .error .lostDirectory := by
  obtain ⟨bytes, hread⟩ := h.readable
  have hrole := hasRole_eq_false_iff.2 ⟨h.removed, h.relative, h.depends⟩
  rw [outcome, review_of_read hnull hread, reviewText, hrole]
  rfl

/-- What a review of one file comes to: an outcome in its place, or one of two problems. -/
theorem outcome_cases (fs : FileSystem) (path : String) :
    (Reviewable fs path ∧ ∃ o, outcome fs path = .ok o) ∨
      (hasNull path = true ∧ outcome fs path = .error .nullCharacter) ∨
      (hasNull path = false ∧ Lost fs path ∧ outcome fs path = .error .lostDirectory) := by
  cases hnull : hasNull path with
  | true => exact .inr (.inl ⟨rfl, outcome_of_null hnull⟩)
  | false =>
    by_cases hlost : Lost fs path
    · exact .inr (.inr ⟨rfl, hlost, outcome_of_lost hnull hlost⟩)
    · have hreviewable := reviewable_iff.2 ⟨hnull, hlost⟩
      obtain ⟨o, notes, hreview⟩ := hreviewable.exists_gives
      refine .inl ⟨hreviewable, o, ?_⟩
      rw [outcome, hreview]
      rfl

/-- Tasks come to results one after another exactly when each of them does, in its place. -/
theorem mapM_eq_ok_iff {α ε β : Type} {f : α → Except ε β} {as : List α} {bs : List β} :
    as.mapM f = .ok bs ↔ List.Forall₂ (fun a b => f a = .ok b) as bs := by
  induction as generalizing bs with
  | nil =>
    rw [List.mapM_nil, List.forall₂_nil_left_iff]
    exact ⟨fun h => (Except.ok.inj h).symm, fun h => h ▸ rfl⟩
  | cons a as ih =>
    rw [List.mapM_cons]
    cases hf : f a with
    | error e =>
      refine ⟨nofun, fun h => ?_⟩
      obtain ⟨b, bs', hb, -, -⟩ := List.forall₂_cons_left_iff.1 h
      exact absurd (hf.symm.trans hb) nofun
    | ok b =>
      cases hfs : as.mapM f with
      | error e =>
        refine ⟨nofun, fun h => ?_⟩
        obtain ⟨b', bs', -, hbs, -⟩ := List.forall₂_cons_left_iff.1 h
        exact absurd (hfs.symm.trans (ih.2 hbs)) nofun
      | ok bs' =>
        constructor
        · intro h
          obtain rfl := Except.ok.inj h
          exact .cons hf (ih.1 hfs)
        · intro h
          obtain ⟨b', bs'', hb, hbs, rfl⟩ := List.forall₂_cons_left_iff.1 h
          obtain rfl := Except.ok.inj (hf.symm.trans hb)
          obtain rfl := Except.ok.inj (hfs.symm.trans (ih.2 hbs))
          rfl

theorem exists_ok_of_mem {α ε β : Type} {f : α → Except ε β} {as : List α} {bs : List β}
    (h : as.mapM f = .ok bs) {a : α} (ha : a ∈ as) : ∃ b, f a = .ok b := by
  have hall := mapM_eq_ok_iff.1 h
  obtain ⟨i, hi, rfl⟩ := List.getElem_of_mem ha
  exact ⟨_, hall.get hi (hall.length_eq ▸ hi)⟩

theorem exists_mapM_ok {α ε β : Type} {f : α → Except ε β} {as : List α}
    (h : ∀ a ∈ as, ∃ b, f a = .ok b) : ∃ bs, as.mapM f = .ok bs := by
  simp only [mapM_eq_ok_iff]
  induction as with
  | nil => exact ⟨[], .nil⟩
  | cons a as ih =>
    obtain ⟨ha, has⟩ := List.forall_mem_cons.1 h
    obtain ⟨b, hb⟩ := ha
    obtain ⟨bs, hbs⟩ := ih has
    exact ⟨b :: bs, .cons hb hbs⟩

/-- Files that come to outcomes can all be reviewed. -/
theorem reviewable_of_mapM {outcomes : List Outcome} (h : paths.mapM (outcome fs) = .ok outcomes) :
    ∀ path ∈ paths, Reviewable fs path := by
  intro path hpath
  obtain ⟨o, ho⟩ := exists_ok_of_mem h hpath
  rcases outcome_cases fs path with ⟨hreviewable, -⟩ | ⟨-, habort⟩ | ⟨-, -, habort⟩
  · exact hreviewable
  · exact absurd (habort.symm.trans ho) nofun
  · exact absurd (habort.symm.trans ho) nofun

/-- One file without a role takes the outcomes of all others with it. -/
theorem mapM_outcome_of_lost (hnull : ∀ path ∈ paths, hasNull path = false)
    (hlost : ∃ path ∈ paths, Lost fs path) :
    paths.mapM (outcome fs) = .error .lostDirectory := by
  induction paths with
  | nil =>
    obtain ⟨path, hpath, -⟩ := hlost
    exact absurd hpath List.not_mem_nil
  | cons path paths ih =>
    obtain ⟨hfirst, hrest⟩ := List.forall_mem_cons.1 hnull
    rw [List.mapM_cons]
    rcases outcome_cases fs path with ⟨hpath, o, ho⟩ | ⟨htrue, -⟩ | ⟨-, -, ho⟩
    · obtain ⟨p, hp, hlost⟩ := hlost
      rcases List.mem_cons.1 hp with rfl | hp
      · exact absurd hlost (reviewable_iff.1 hpath).2
      · rw [ho, ih hrest ⟨p, hp, hlost⟩]
        rfl
    · rw [hfirst] at htrue
      exact absurd htrue nofun
    · rw [ho]
      rfl

theorem comesTo_iff_mapM {r : Except Abort (List Outcome)} :
    ComesTo fs jobs paths r ↔ paths.mapM (outcome fs) = r := by
  rw [comesTo_iff, mapM_outcome, eq_comm]

/-- Files come to outcomes exactly when each of them can be reviewed. -/
theorem comesTo_ok_iff :
    (∃ outcomes, ComesTo fs jobs paths (.ok outcomes)) ↔ ∀ path ∈ paths, Reviewable fs path := by
  constructor
  · rintro ⟨outcomes, hcomes⟩
    exact reviewable_of_mapM (comesTo_iff_mapM.1 hcomes)
  · intro h
    obtain ⟨outcomes, hall, -⟩ := mapM_outcome_ok h
    exact ⟨outcomes, comesTo_iff_mapM.2 hall⟩

/-- A spec above a current directory that was removed has no role. -/
theorem lost_removedDirectory : Lost Discovery.removedDirectory "../x.spec.ts" :=
  ⟨⟨[], by decide +kernel⟩, by decide, by decide, by decide⟩

/-! ## Reviews of paths as callers spell them -/

/-- A path that comes to something: it can be handed over, and no role is missing under the text
that it is taken for. -/
structure Answerable (fs : FileSystem) (path : List Json.Symbol) : Prop where
  encodable : Encodable path
  kept : ∀ text, handOver path = .ok (some text) → ¬ Lost fs text

/-- What a path comes to in its place: the outcome of the text that it is taken for, or a failure to
open it when its bytes are no text. -/
inductive SpelledInPlace (fs : FileSystem) (path : List Json.Symbol) : Spelled → Prop
  | text {text : String} {o : Outcome} (taken : handOver path = .ok (some text))
    (inPlace : InPlace fs text o) : SpelledInPlace fs path (.outcome o)
  | bytes (taken : handOver path = .ok none) : SpelledInPlace fs path (.unopened path)

theorem reviewSpelled_of_fault {path : List Json.Symbol} {fault : Abort}
    (h : encodingFault? (openedAs path) = some fault) : reviewSpelled fs path = .error fault := by
  simp only [reviewSpelled, h]

theorem reviewSpelled_of_abort {path : List Json.Symbol} {abort : Abort}
    (hopened : encodingFault? (openedAs path) = none) (h : handOver path = .error abort) :
    reviewSpelled fs path = .error abort := by
  simp only [reviewSpelled, hopened, h]

theorem reviewSpelled_of_bytes {path : List Json.Symbol}
    (hopened : encodingFault? (openedAs path) = none) (h : handOver path = .ok none) :
    reviewSpelled fs path = .ok (.unopened path) := by
  simp only [reviewSpelled, hopened, h]

theorem reviewSpelled_of_text {path : List Json.Symbol} {text : String}
    (hopened : encodingFault? (openedAs path) = none) (h : handOver path = .ok (some text)) :
    reviewSpelled fs path = (outcome fs text).map .outcome := by
  simp only [reviewSpelled, hopened, h, outcome]
  cases review fs text <;> rfl

/-- What a review of one path comes to. -/
theorem reviewSpelled_cases (fs : FileSystem) (path : List Json.Symbol) :
    (Answerable fs path ∧ ∃ o, reviewSpelled fs path = .ok o ∧ SpelledInPlace fs path o) ∨
      (¬ Answerable fs path ∧ ∃ abort, reviewSpelled fs path = .error abort) := by
  by_cases hencodable : Encodable path
  · have hopened := encodingFault?_openedAs hencodable.bytes
    obtain ⟨taken, hhand⟩ := handOver_ok_iff.2 hencodable
    cases taken with
    | none =>
      have hkept : ∀ text, handOver path = .ok (some text) → ¬ Lost fs text := fun text htext =>
        absurd (hhand.symm.trans htext) nofun
      exact .inl ⟨⟨hencodable, hkept⟩, _, reviewSpelled_of_bytes hopened hhand, .bytes hhand⟩
    | some text =>
      have hnull := hasNull_of_handOver hhand
      rw [reviewSpelled_of_text hopened hhand]
      by_cases hlost : Lost fs text
      · rw [outcome_of_lost hnull hlost]
        exact .inr ⟨fun h => h.kept text hhand hlost, _, rfl⟩
      · have hreviewable := reviewable_iff.2 ⟨hnull, hlost⟩
        obtain ⟨o, notes, hreview⟩ := hreviewable.exists_gives
        have hkept : ∀ text', handOver path = .ok (some text') → ¬ Lost fs text' := by
          intro text' htext
          obtain rfl := Option.some.inj (Except.ok.inj (hhand.symm.trans htext))
          exact hlost
        rw [outcome, hreview]
        exact .inl ⟨⟨hencodable, hkept⟩, _, rfl,
          .text hhand (hreviewable.inPlace ⟨notes, hreview⟩)⟩
  · refine .inr ⟨fun h => hencodable h.encodable, ?_⟩
    cases hopened : encodingFault? (openedAs path) with
    | some fault => exact ⟨fault, reviewSpelled_of_fault hopened⟩
    | none =>
      cases hhand : handOver path with
      | error abort => exact ⟨abort, reviewSpelled_of_abort hopened hhand⟩
      | ok taken => exact absurd (handOver_ok_iff.1 ⟨taken, hhand⟩) hencodable

/-- What a review of paths may come to with a number of jobs. -/
def SpelledComesTo (fs : FileSystem) (jobs : Nat) (paths : List (List Json.Symbol))
    (r : Except Abort (List Spelled)) : Prop :=
  if 1 < jobs ∧ 1 < paths.length then
    ∃ p, Relation.ReflTransGen (Pool.Step (reviewSpelled fs) jobs) (Pool.start paths) p ∧
      p.answer? 0 paths.length = some r
  else r = paths.mapM (reviewSpelled fs)

theorem spelledComesTo_iff {paths : List (List Json.Symbol)} {r : Except Abort (List Spelled)} :
    SpelledComesTo fs jobs paths r ↔ r = paths.mapM (reviewSpelled fs) := by
  unfold SpelledComesTo
  split
  · rename_i hpool
    exact Pool.reaches_answer_iff (by omega)
  · rfl

theorem answerable_of_ok {path : List Json.Symbol} {o : Spelled}
    (h : reviewSpelled fs path = .ok o) : Answerable fs path ∧ SpelledInPlace fs path o := by
  rcases reviewSpelled_cases fs path with ⟨hanswerable, o', ho, hplace⟩ | ⟨-, abort, habort⟩
  · obtain rfl := Except.ok.inj (ho.symm.trans h)
    exact ⟨hanswerable, hplace⟩
  · exact absurd (habort.symm.trans h) nofun

theorem Answerable.exists_ok {path : List Json.Symbol} (h : Answerable fs path) :
    ∃ o, reviewSpelled fs path = .ok o := by
  rcases reviewSpelled_cases fs path with ⟨-, o, ho, -⟩ | ⟨hnot, -⟩
  · exact ⟨o, ho⟩
  · exact absurd h hnot

/-- Paths come to one thing each exactly when every one of them comes to something. -/
theorem spelledComesTo_ok_iff {paths : List (List Json.Symbol)} :
    (∃ outcomes, SpelledComesTo fs jobs paths (.ok outcomes)) ↔
      ∀ path ∈ paths, Answerable fs path := by
  simp only [spelledComesTo_iff]
  constructor
  · intro hok path hpath
    obtain ⟨outcomes, hall⟩ := hok
    obtain ⟨o, ho⟩ := exists_ok_of_mem hall.symm hpath
    exact (answerable_of_ok ho).1
  · intro h
    obtain ⟨outcomes, hall⟩ := exists_mapM_ok fun path hpath => (h path hpath).exists_ok
    exact ⟨outcomes, hall.symm⟩

theorem spelledInPlace_of_comesTo {paths : List (List Json.Symbol)} {outcomes : List Spelled}
    (h : SpelledComesTo fs jobs paths (.ok outcomes)) :
    List.Forall₂ (SpelledInPlace fs) paths outcomes :=
  (mapM_eq_ok_iff.1 (spelledComesTo_iff.1 h).symm).imp fun _ _ ho => (answerable_of_ok ho).2

end Source

/-! ## Both -/

open Discovery Source

/-- A search gives files and a review gives outcomes exactly when nothing that cannot be survived is
in their way, however their paths are spelled and however much room there is. A target that can be
handed over and leads nowhere has no files. Outcomes stand in the places of their paths, and those
that cannot be read are failures. -/
theorem search_and_review_answer [Room] (fs : FileSystem) (target : List Json.Symbol)
    (includeJs : Bool) (exclusions : List String) (jobs : Nat) (paths : List (List Json.Symbol)) :
    ((∃ files, findSpelled fs target includeJs exclusions = .ok files) ↔
      Searchable fs target includeJs exclusions) ∧
    (Encodable target →
      (∀ text, handOver target = .ok (some text) → ∃ cause, fs.lookup text = .error cause) →
      findSpelled fs target includeJs exclusions = .ok []) ∧
    ((∃ outcomes, SpelledComesTo fs jobs paths (.ok outcomes)) ↔
      ∀ path ∈ paths, Answerable fs path) ∧
    ∀ outcomes, SpelledComesTo fs jobs paths (.ok outcomes) →
      List.Forall₂ (SpelledInPlace fs) paths outcomes :=
  ⟨findSpelled_ok_iff, fun h hmissing => findSpelled_of_missing h hmissing includeJs exclusions,
    spelledComesTo_ok_iff, fun _ => spelledInPlace_of_comesTo⟩

/-- A search gives files and a review gives one outcome for each path, however they are spelled. -/
def AlwaysAnswers [Room] (fs : FileSystem) (target : List Json.Symbol)
    (paths : List (List Json.Symbol)) : Prop :=
  (∃ files, findSpelled fs target false [] = .ok files) ∧
    ∃ outcomes, SpelledComesTo fs 1 paths (.ok outcomes) ∧ outcomes.length = paths.length

theorem not_alwaysAnswers_of_target [Room] {fs : FileSystem} {target : List Json.Symbol}
    (h : ¬ Searchable fs target false []) (paths : List (List Json.Symbol)) :
    ¬ AlwaysAnswers fs target paths :=
  fun hanswers => h (findSpelled_ok_iff.1 hanswers.1)

theorem not_alwaysAnswers_of_path [Room] {fs : FileSystem} {paths : List (List Json.Symbol)}
    {path : List Json.Symbol} (hpath : path ∈ paths) (h : ¬ Answerable fs path)
    (target : List Json.Symbol) : ¬ AlwaysAnswers fs target paths := by
  intro hanswers
  obtain ⟨-, outcomes, hcomes, -⟩ := hanswers
  exact h (spelledComesTo_ok_iff.1 ⟨outcomes, hcomes⟩ path hpath)

theorem not_encodable_null : ¬ Encodable [.char '\x00'] :=
  fun h => h.noNull List.mem_cons_self

theorem not_encodable_half : ¬ Encodable [.half 0xD800] :=
  fun h => absurd (h.bytes _ List.mem_cons_self) (by decide)

/-- A null character and half of a surrogate pair, in the target or in one of the paths, a file
without a role, and deep directories each leave a search or a review without an answer. -/
theorem not_alwaysAnswers_null_half_removed_deep :
    ¬ AlwaysAnswers (waitAfter "\n") [.char '\x00'] [] ∧
      ¬ AlwaysAnswers (waitAfter "\n") [.half 0xD800] [] ∧
      ¬ AlwaysAnswers (waitAfter "\n") (Json.symbols "a.ts")
        [Json.symbols "a.ts", [.char '\x00']] ∧
      ¬ AlwaysAnswers (waitAfter "\n") (Json.symbols "a.ts")
        [Json.symbols "a.ts", [.half 0xD800]] ∧
      ¬ AlwaysAnswers removedDirectory (Json.symbols "..")
        [Json.symbols "..", Json.symbols "../x.spec.ts"] ∧
      ¬ AlwaysAnswers (chain 1050) (Json.symbols ".") [] := by
  refine ⟨?_, ?_, ?_, ?_, ?_, ?_⟩
  · exact not_alwaysAnswers_of_target (fun h => not_encodable_null h.encodable) _
  · exact not_alwaysAnswers_of_target (fun h => not_encodable_half h.encodable) _
  · exact not_alwaysAnswers_of_path (by simp) (fun h => not_encodable_null h.encodable) _
  · exact not_alwaysAnswers_of_path (by simp) (fun h => not_encodable_half h.encodable) _
  · have hlost : ¬ Answerable removedDirectory (Json.symbols "../x.spec.ts") :=
      fun h => h.kept _ (handOver_symbols _) lost_removedDirectory
    exact not_alwaysAnswers_of_path (by simp) hlost _
  · refine not_alwaysAnswers_of_target (fun h => ?_) _
    have hdeep : Room.folders < (List.replicate 1050 "d").length := by
      rw [List.length_replicate]
      decide
    obtain ⟨files, notes, hfind⟩ := (find_ok_iff (by decide)).2 (h.hasRoom _ (handOver_symbols _))
    rw [find_of_deep (plainDirectory_chain 1050) rfl (visited_chain (by decide) (by decide))
      hdeep] at hfind
    exact absurd hfind nofun

end SuiteLint
