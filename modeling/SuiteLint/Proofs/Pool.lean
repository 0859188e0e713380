import Mathlib.Data.List.Basic
import Mathlib.Logic.Relation

/-!
# A pool of workers

Tasks are worked on by a pool of workers. A free worker takes any task that is pending and later
delivers what came of it; results are handed over by the places of their tasks, up to the first
that is an error. The order in which tasks are taken and results are delivered is left open. In
every order the pool hands over what the tasks come to one after another, it is never stuck before
that, and it does not go on for ever.
-/

namespace SuiteLint

/-- A pool of workers between two steps. Each task comes with its place in the order of all. -/
structure Pool (α β : Type) where
  pending : List (α × Nat)
  taken : List (α × Nat)
  delivered : List (β × Nat)

namespace Pool

variable {α β ε γ : Type}

/-- A pool that has all tasks before it. -/
def start (tasks : List α) : Pool α β :=
  ⟨tasks.zipIdx, [], []⟩

/-- What a pool may do next: a free worker takes a task, or a worker delivers what came of one. -/
inductive Step (work : α → β) (workers : Nat) : Pool α β → Pool α β → Prop
  | take (before after : List (α × Nat)) {task : α × Nat} {taken : List (α × Nat)}
    {delivered : List (β × Nat)} (free : taken.length < workers) :
    Step work workers ⟨before ++ task :: after, taken, delivered⟩
      ⟨before ++ after, task :: taken, delivered⟩
  | deliver (before after : List (α × Nat)) {pending : List (α × Nat)} {a : α} {place : Nat}
    {delivered : List (β × Nat)} :
    Step work workers ⟨pending, before ++ (a, place) :: after, delivered⟩
      ⟨pending, before ++ after, (work a, place) :: delivered⟩

/-- What was delivered for a place. -/
def deliveredAt? (p : Pool α β) (place : Nat) : Option β :=
  (p.delivered.find? (·.2 = place)).map (·.1)

/-- What is handed over from a place on: the results in order, up to the first error. There is none
as long as a result on the way is missing. -/
def answer? (p : Pool α (Except ε γ)) : (place count : Nat) → Option (Except ε (List γ))
  | _, 0 => some (.ok [])
  | place, count + 1 =>
    match p.deliveredAt? place with
    | none => none
    | some (.error e) => some (.error e)
    | some (.ok c) => (p.answer? (place + 1) count).map fun rest => rest.map (c :: ·)

/-! ## What a pool accounts for -/

/-- The tasks that are left, once they are worked on, and the results that were delivered are the
results of all tasks, each in its place. -/
def Accounts (work : α → β) (tasks : List α) (p : Pool α β) : Prop :=
  ((p.pending ++ p.taken).map (Prod.map work id) ++ p.delivered).Perm (tasks.map work).zipIdx

variable {work : α → β} {workers : Nat} {tasks : List α} {p q : Pool α β}

theorem accounts_start (work : α → β) (tasks : List α) :
    Accounts work tasks (start tasks) := by
  unfold Accounts start
  rw [List.append_nil, List.append_nil, List.map_zipIdx]

theorem Step.accounts (h : Step work workers p q) (hp : Accounts work tasks p) :
    Accounts work tasks q := by
  refine List.Perm.trans ?_ hp
  cases h with
  | @take before after task taken delivered free =>
    have hmoved : ((before ++ after) ++ task :: taken).Perm ((before ++ task :: after) ++ taken) :=
      List.perm_middle.trans (List.perm_middle.symm.append_right taken)
    exact (hmoved.map _).append_right delivered
  | deliver before after =>
    simp only [List.map_append, List.map_cons, Prod.map_apply, id_eq, List.append_assoc,
      List.cons_append]
    exact (List.perm_middle.append_left _).append_left _

theorem accounts_of_reaches (h : Relation.ReflTransGen (Step work workers) (start tasks) p) :
    Accounts work tasks p := by
  induction h with
  | refl => exact accounts_start work tasks
  | tail _ hstep ih => exact hstep.accounts ih

/-- What was delivered for a place is what the task in that place comes to. -/
theorem Accounts.of_deliveredAt? (hp : Accounts work tasks p) {place : Nat} {b : β}
    (h : p.deliveredAt? place = some b) : (tasks.map work)[place]? = some b := by
  obtain ⟨⟨b', place'⟩, hfind, rfl⟩ := Option.map_eq_some_iff.1 h
  obtain rfl : place' = place := by simpa using List.find?_some hfind
  have hmem : (b', place') ∈ p.delivered := List.mem_of_find?_eq_some hfind
  exact List.mk_mem_zipIdx_iff_getElem?.1 (hp.mem_iff.1 (List.mem_append_right _ hmem))

/-- Nothing is missing from a pool that has no task left. -/
theorem Accounts.exists_deliveredAt? (hp : Accounts work tasks p) (hpending : p.pending = [])
    (htaken : p.taken = []) {place : Nat} (hplace : place < tasks.length) :
    (p.deliveredAt? place).isSome = true := by
  have hmem : (work tasks[place], place) ∈ p.delivered := by
    have hresult : (work tasks[place], place) ∈ (tasks.map work).zipIdx := by
      rw [List.mk_mem_zipIdx_iff_getElem?, List.getElem?_map, List.getElem?_eq_getElem hplace]
      rfl
    simpa [hpending, htaken] using hp.mem_iff.2 hresult
  rw [deliveredAt?, Option.isSome_map, List.find?_isSome]
  exact ⟨_, hmem, by simp⟩

/-! ## What a pool hands over -/

section

variable {work : α → Except ε γ} {tasks : List α} {p : Pool α (Except ε γ)}

/-- Whatever is handed over is what the tasks come to one after another. -/
theorem Accounts.answer?_eq (hp : Accounts work tasks p) (front : List α) {rest : List α}
    (htasks : tasks = front ++ rest) {r : Except ε (List γ)}
    (h : p.answer? front.length rest.length = some r) : r = rest.mapM work := by
  -- The tasks in front only count the places, so each step moves one task over to them.
  induction rest generalizing front r with
  | nil => exact (Option.some.inj h).symm
  | cons a rest ih =>
    have hnext : tasks = (front ++ [a]) ++ rest := by rw [htasks, List.append_assoc]; rfl
    rw [List.length_cons, answer?] at h
    split at h
    · exact absurd h nofun
    · rename_i e hdelivered
      have hwork : work a = .error e := by simpa [htasks] using hp.of_deliveredAt? hdelivered
      rw [List.mapM_cons, hwork]
      exact (Option.some.inj h).symm
    · rename_i c hdelivered
      have hwork : work a = .ok c := by simpa [htasks] using hp.of_deliveredAt? hdelivered
      obtain ⟨r', hr', rfl⟩ := Option.map_eq_some_iff.1 h
      have hlength : (front ++ [a]).length = front.length + 1 := by simp
      obtain rfl : r' = rest.mapM work := ih (front ++ [a]) hnext (hlength ▸ hr')
      rw [List.mapM_cons, hwork]
      cases rest.mapM work <;> rfl

theorem exists_missing {place count : Nat} (h : p.answer? place count = none) :
    ∃ missing < place + count, p.deliveredAt? missing = none := by
  induction count generalizing place with
  | zero => exact absurd h nofun
  | succ count ih =>
    rw [answer?] at h
    split at h
    · rename_i hnone
      exact ⟨place, by omega, hnone⟩
    · exact absurd h nofun
    · obtain ⟨missing, hlt, hnone⟩ := ih (Option.map_eq_none_iff.1 h)
      exact ⟨missing, by omega, hnone⟩

/-- A pool that has workers and nothing to hand over yet can go on. -/
theorem Accounts.exists_step (hp : Accounts work tasks p) {workers : Nat} (hworkers : 0 < workers)
    (h : p.answer? 0 tasks.length = none) : ∃ q, Step work workers p q := by
  obtain ⟨pending, taken, delivered⟩ := p
  cases taken with
  | cons task taken => exact ⟨_, .deliver [] taken⟩
  | nil =>
    cases pending with
    | cons task pending => exact ⟨_, .take [] pending hworkers⟩
    | nil =>
      obtain ⟨missing, hlt, hnone⟩ := exists_missing h
      have hplace : missing < tasks.length := by omega
      have hsome := hp.exists_deliveredAt? rfl rfl hplace
      rw [hnone] at hsome
      exact absurd hsome Bool.false_ne_true

end

/-- A task is taken once and delivered once, so no pool goes on for ever. -/
theorem wellFounded_step (work : α → β) (workers : Nat) :
    WellFounded fun next p => Step work workers p next := by
  refine Subrelation.wf ?_ (measure fun p : Pool α β => 2 * p.pending.length + p.taken.length).wf
  intro next p h
  show 2 * next.pending.length + next.taken.length < 2 * p.pending.length + p.taken.length
  cases h with
  | take before after free =>
    simp only [List.length_append, List.length_cons]
    omega
  | deliver before after =>
    simp only [List.length_append, List.length_cons]
    omega

/-- From wherever a pool has come, some way leads on to what it hands over. -/
theorem exists_answer {work : α → Except ε γ} {tasks : List α} {workers : Nat}
    (hworkers : 0 < workers) (p : Pool α (Except ε γ)) (hp : Accounts work tasks p) :
    ∃ q, Relation.ReflTransGen (Step work workers) p q ∧
      q.answer? 0 tasks.length = some (tasks.mapM work) := by
  induction p using (wellFounded_step work workers).induction with
  | h p ih =>
    cases hanswer : p.answer? 0 tasks.length with
    | some r =>
      have hr : r = tasks.mapM work := hp.answer?_eq [] rfl hanswer
      exact ⟨p, .refl, hr ▸ hanswer⟩
    | none =>
      obtain ⟨next, hstep⟩ := hp.exists_step hworkers hanswer
      obtain ⟨q, hreaches, hq⟩ := ih next hstep (hstep.accounts hp)
      exact ⟨q, .head hstep hreaches, hq⟩

/-- In whatever order a pool works, it hands over what the tasks come to one after another. -/
theorem reaches_answer_iff {work : α → Except ε γ} {tasks : List α} {workers : Nat}
    (hworkers : 0 < workers) {r : Except ε (List γ)} :
    (∃ p, Relation.ReflTransGen (Step work workers) (start tasks) p ∧
      p.answer? 0 tasks.length = some r) ↔ r = tasks.mapM work := by
  constructor
  · intro hreached
    obtain ⟨p, hreaches, hanswer⟩ := hreached
    exact (accounts_of_reaches hreaches).answer?_eq [] rfl hanswer
  · intro hr
    rw [hr]
    exact exists_answer hworkers _ (accounts_start _ tasks)

end Pool

end SuiteLint
