/-
Runs of several operations at once.

A system is a database, the operations under way and the history of what was invoked and what was
returned.  In one step an operation is invoked, or one that is under way performs its next call and
goes on with the reply; which operation that is, nobody says, so that every interleaving of calls
is a run.  An operation is numbered by the place of its invocation in the history.

* `Event`, `System`, `System.invoke`, `System.advance` — what happens in a step;
* `Rules`, `Run` — what may happen, and the states that are reached so;
* `Precedes` — one operation returned before the other was invoked;
* `System.play?` — a run by its steps, for states that are to be shown;
* `Progress.andThen` — an operation that goes on after another one;
* `Progress.Satisfies`, `System.Keeps` — conditions on the database, on the operations under way and
  on results;
* `Run.exists_keeps`, `Run.keeps` — **a condition that every step keeps holds in every run;** it is
  enough to look at the operation that moves, and at what its call means for the others.
-/

import DocStore.Database
import Mathlib.Logic.Function.Basic
import Mathlib.Order.Basic

set_option autoImplicit false

namespace DocStore

/-! ### Progress -/

/-- An operation that waits with such a task, or has ended with such a result. -/
def Progress.Satisfies {τ α : Type} (task : τ → Prop) (result : α → Prop) :
    Progress τ α → Prop
  | .waiting t => task t
  | .finished a => result a

theorem Progress.Satisfies.imp {τ α : Type} {task task' : τ → Prop} {result result' : α → Prop}
    {progress : Progress τ α} (h : progress.Satisfies task result)
    (ht : ∀ t, task t → task' t) (hr : ∀ a, result a → result' a) :
    progress.Satisfies task' result' := by
  cases progress with
  | waiting t => exact ht t h
  | finished a => exact hr a h

theorem Progress.satisfies_true {τ α : Type} (progress : Progress τ α) :
    progress.Satisfies (fun _ => True) fun _ => True := by
  cases progress <;> trivial

theorem Progress.Satisfies.and {τ α : Type} {task task' : τ → Prop} {result result' : α → Prop}
    {progress : Progress τ α} (h : progress.Satisfies task result)
    (h' : progress.Satisfies task' result') :
    progress.Satisfies (fun t => task t ∧ task' t) fun a => result a ∧ result' a := by
  cases progress with
  | waiting t => exact ⟨h, h'⟩
  | finished a => exact ⟨h, h'⟩

theorem Progress.satisfies_map {τ σ α β : Type} {wrap : τ → σ} {convert : α → β}
    {task : σ → Prop} {result : β → Prop} {progress : Progress τ α} :
    (progress.map wrap convert).Satisfies task result
      ↔ progress.Satisfies (fun t => task (wrap t)) fun a => result (convert a) := by
  cases progress <;> rfl

/-- An operation that stands for another one until that one ends, and then goes on by itself. -/
def Progress.andThen {τ σ α β : Type} (wrap : τ → σ) (next : α → Progress σ β) :
    Progress τ α → Progress σ β
  | .waiting t => .waiting (wrap t)
  | .finished a => next a

theorem Progress.map_eq_andThen {τ σ α β : Type} (wrap : τ → σ) (convert : α → β)
    (progress : Progress τ α) :
    progress.map wrap convert = progress.andThen wrap fun a => .finished (convert a) := by
  cases progress <;> rfl

/-! ### Systems -/

/-- What is seen of the operations from outside. -/
inductive Event (ρ α : Type)
  /-- An operation was invoked. -/
  | invoked (request : ρ)
  /-- The operation with this number returned. -/
  | returned (operation : Nat) (result : α)

/-- A database with the operations that are under way. -/
structure System (ρ τ α : Type) where
  /-- The database. -/
  db : Database
  /-- The operations under way, by number. -/
  pending : Nat → Option τ
  /-- What has happened, the earliest event first. -/
  history : List (Event ρ α)

/-- One operation returned before the other was invoked. -/
def Precedes {ρ α : Type} (history : List (Event ρ α)) (first second : Nat) : Prop :=
  ∃ i result, history[i]? = some (.returned first result) ∧ i < second

namespace System

variable {ρ τ α : Type}

/-- A database in which no operation has been invoked. -/
def initial (db : Database) : System ρ τ α :=
  ⟨db, fun _ => none, []⟩

/-- An operation goes on, or returns. -/
def proceed (s : System ρ τ α) (operation : Nat) : Progress τ α → System ρ τ α
  | .waiting task => { s with pending := Function.update s.pending operation (some task) }
  | .finished result =>
      { s with
        pending := Function.update s.pending operation none
        history := s.history ++ [.returned operation result] }

/-- An operation is invoked. -/
def invoke (s : System ρ τ α) (request : ρ) (progress : Progress τ α) : System ρ τ α :=
  { s with history := s.history ++ [Event.invoked request] }.proceed s.history.length progress

/-- An operation performs its call and goes on with the reply. -/
def advance [Task τ α] (s : System ρ τ α) (operation : Nat) (task : τ) (fault : Option Error) :
    System ρ τ α :=
  let performed := s.db.perform (Task.call task) fault
  { s with db := performed.2 }.proceed operation (Task.resume task performed.1)

@[simp] theorem db_proceed (s : System ρ τ α) (operation : Nat) (progress : Progress τ α) :
    (s.proceed operation progress).db = s.db := by
  cases progress <;> rfl

@[simp] theorem db_invoke (s : System ρ τ α) (request : ρ) (progress : Progress τ α) :
    (s.invoke request progress).db = s.db :=
  db_proceed _ _ _

@[simp] theorem db_advance [Task τ α] (s : System ρ τ α) (operation : Nat) (task : τ)
    (fault : Option Error) :
    (s.advance operation task fault).db = (s.db.perform (Task.call task) fault).2 :=
  db_proceed _ _ _

/-- The operation that goes on is under way with the task that it waits with. -/
theorem pending_proceed (s : System ρ τ α) (operation other : Nat) (progress : Progress τ α)
    (task : τ) :
    (s.proceed operation progress).pending other = some task
      ↔ if other = operation then progress = .waiting task else s.pending other = some task := by
  by_cases h : other = operation
  · subst h
    cases progress with
    | waiting t => simp [proceed]
    | finished a => simp [proceed]
  · cases progress with
    | waiting t => simp [proceed, h]
    | finished a => simp [proceed, h]

/-- The only operation that may return is the one that goes on. -/
theorem returned_proceed (s : System ρ τ α) (operation other : Nat) (progress : Progress τ α)
    (result : α) :
    .returned other result ∈ (s.proceed operation progress).history
      ↔ .returned other result ∈ s.history ∨ other = operation ∧ progress = .finished result := by
  cases progress with
  | waiting t => simp [proceed]
  | finished a =>
      simp only [proceed, List.mem_append, List.mem_singleton, Event.returned.injEq,
        Progress.finished.injEq]
      exact or_congr_right (and_congr_right fun _ => eq_comm)

/-- Nothing that has happened is undone. -/
theorem history_proceed (s : System ρ τ α) (operation : Nat) (progress : Progress τ α) :
    s.history <+: (s.proceed operation progress).history := by
  cases progress with
  | waiting t => exact List.prefix_refl _
  | finished a => exact List.prefix_append _ _

theorem history_invoke (s : System ρ τ α) (request : ρ) (progress : Progress τ α) :
    s.history <+: (s.invoke request progress).history :=
  (List.prefix_append s.history [.invoked request]).trans
    (history_proceed { s with history := s.history ++ [.invoked request] } _ _)

/-- What is at a place of the history stays there. -/
theorem getElem?_of_prefix {history later : List (Event ρ α)} (h : history <+: later) {i : Nat}
    {event : Event ρ α} (hi : history[i]? = some event) : later[i]? = some event := by
  obtain ⟨rest, rfl⟩ := h
  rw [List.getElem?_append_left (List.getElem?_eq_some_iff.1 hi).1, hi]

/-- An operation is found in the history by its number. -/
theorem getElem?_history_invoke (s : System ρ τ α) (request : ρ) (progress : Progress τ α) :
    (s.invoke request progress).history[s.history.length]? = some (.invoked request) := by
  exact getElem?_of_prefix (history_proceed _ _ _) (by simp)

end System

/-! ### Runs -/

/-- What may happen in a run. -/
structure Rules (ρ τ α : Type) where
  /-- How an operation begins. -/
  start : Database → ρ → Progress τ α
  /-- The requests that may be made in a state. -/
  admits : System ρ τ α → ρ → Prop
  /-- The faults that a call may meet. -/
  faults : Database → Call → Option Error → Prop
  /-- What others may do to the database. -/
  outside : Database → Database → Prop

/-- The states that are reached from a database. -/
inductive Run {ρ τ α : Type} [Task τ α] (rules : Rules ρ τ α) (db : Database) :
    System ρ τ α → Prop
  | initial : Run rules db (.initial db)
  | invoke {s : System ρ τ α} (run : Run rules db s) (request : ρ)
      (admitted : rules.admits s request) :
      Run rules db (s.invoke request (rules.start s.db request))
  | advance {s : System ρ τ α} (run : Run rules db s) (operation : Nat) (task : τ)
      (pending : s.pending operation = some task) (fault : Option Error)
      (possible : rules.faults s.db (Task.call task) fault) :
      Run rules db (s.advance operation task fault)
  | outside {s : System ρ τ α} (run : Run rules db s) (after : Database)
      (possible : rules.outside s.db after) : Run rules db { s with db := after }

namespace Run

variable {ρ τ α : Type} [Task τ α] {rules : Rules ρ τ α} {db : Database} {s : System ρ τ α}

/-- An operation under way was invoked. -/
theorem exists_request (run : Run rules db s) {operation : Nat} {task : τ}
    (h : s.pending operation = some task) :
    ∃ request, s.history[operation]? = some (.invoked request) := by
  induction run generalizing task with
  | initial => cases h
  -- the number of the operation is the place of its request in the history
  | @invoke s run request admitted ih =>
      rw [System.invoke, System.pending_proceed] at h
      split at h
      · rename_i same
        exact ⟨request, same ▸ System.getElem?_history_invoke s request _⟩
      · obtain ⟨other, ho⟩ := ih h
        exact ⟨other, System.getElem?_of_prefix (s.history_invoke request _) ho⟩
  | @advance s run moved t pending fault possible ih =>
      rw [System.advance, System.pending_proceed] at h
      have before : ∃ request, s.history[operation]? = some (.invoked request) := by
        split at h
        · rename_i same
          exact ih (same ▸ pending)
        · exact ih h
      obtain ⟨request, hr⟩ := before
      exact ⟨request, System.getElem?_of_prefix (System.history_proceed _ moved _) hr⟩
  | outside run after possible ih => exact ih h

theorem lt_length_of_pending (run : Run rules db s) {operation : Nat} {task : τ}
    (h : s.pending operation = some task) : operation < s.history.length := by
  obtain ⟨request, hr⟩ := run.exists_request h
  exact (List.getElem?_eq_some_iff.1 hr).1

/-- An operation that has returned was invoked, and is not under way any more. -/
theorem of_returned (run : Run rules db s) {operation : Nat} {result : α}
    (h : .returned operation result ∈ s.history) :
    (∃ request, s.history[operation]? = some (.invoked request)) ∧
      s.pending operation = none := by
  induction run generalizing result with
  | initial => cases h
  | @invoke s run request admitted ih =>
      rw [System.invoke, System.returned_proceed, List.mem_append, List.mem_singleton] at h
      rcases h with (h | h) | ⟨rfl, h⟩
      · obtain ⟨⟨other, ho⟩, free⟩ := ih h
        have old : operation < s.history.length := (List.getElem?_eq_some_iff.1 ho).1
        refine ⟨⟨other, System.getElem?_of_prefix (s.history_invoke request _) ho⟩, ?_⟩
        rw [Option.eq_none_iff_forall_ne_some]
        intro task ht
        rw [System.invoke, System.pending_proceed, if_neg (Nat.ne_of_lt old), free] at ht
        cases ht
      · cases h
      · refine ⟨⟨request, System.getElem?_history_invoke s request _⟩, ?_⟩
        rw [System.invoke, h]
        exact Function.update_self _ _ _
  | @advance s run moved task pending fault possible ih =>
      rw [System.advance, System.returned_proceed] at h
      rcases h with h | ⟨rfl, h⟩
      · obtain ⟨⟨other, ho⟩, free⟩ := ih h
        refine ⟨⟨other, System.getElem?_of_prefix (System.history_proceed _ moved _) ho⟩, ?_⟩
        rw [Option.eq_none_iff_forall_ne_some]
        intro t ht
        -- an operation that goes on is under way, and one that has returned is not
        have different : operation ≠ moved := by
          rintro rfl
          rw [free] at pending
          cases pending
        rw [System.advance, System.pending_proceed, if_neg different] at ht
        exact Option.some_ne_none t (ht.symm.trans free)
      · obtain ⟨request, hr⟩ := run.exists_request pending
        refine ⟨⟨request, System.getElem?_of_prefix (System.history_proceed _ operation _) hr⟩, ?_⟩
        rw [System.advance, h]
        exact Function.update_self _ _ _
  | outside run after possible ih => exact ih h

theorem not_returned_of_pending (run : Run rules db s) {operation : Nat} {task : τ}
    (h : s.pending operation = some task) (result : α) :
    .returned operation result ∉ s.history := by
  intro hr
  rw [(run.of_returned hr).2] at h
  cases h

end Run

/-! ### Playing a run -/

/-- One step of a run that is played. -/
inductive Move (ρ : Type)
  /-- This is asked for. -/
  | invoke (request : ρ)
  /-- The operation with this number performs its call, which meets this fault, if any. -/
  | advance (operation : Nat) (fault : Option Error)

section Play

variable {ρ τ α : Type} [Task τ α] (rules : Rules ρ τ α)
  [∀ s request, Decidable (rules.admits s request)]
  [∀ db call fault, Decidable (rules.faults db call fault)]

/-- The state after a step, if the rules allow it. -/
def System.move? (s : System ρ τ α) : Move ρ → Option (System ρ τ α)
  | .invoke request =>
      if rules.admits s request then some (s.invoke request (rules.start s.db request)) else none
  | .advance operation fault =>
      match s.pending operation with
      | some task =>
          if rules.faults s.db (Task.call task) fault then some (s.advance operation task fault)
          else none
      | none => none

/-- The state after some steps, if the rules allow them. -/
def System.play? (s : System ρ τ α) : List (Move ρ) → Option (System ρ τ α)
  | [] => some s
  | move :: rest => (s.move? rules move).bind fun t => t.play? rest

variable {rules} {db : Database} {s t : System ρ τ α}

theorem Run.of_move? (run : Run rules db s) {move : Move ρ} (h : s.move? rules move = some t) :
    Run rules db t := by
  cases move with
  | invoke request =>
      simp only [System.move?] at h
      split at h
      · rename_i admitted
        obtain rfl := Option.some.inj h
        exact run.invoke request admitted
      · cases h
  | advance operation fault =>
      simp only [System.move?] at h
      split at h
      · rename_i task pending
        split at h
        · rename_i possible
          obtain rfl := Option.some.inj h
          exact run.advance operation task pending fault possible
        · cases h
      · cases h

theorem Run.of_play? (run : Run rules db s) {moves : List (Move ρ)}
    (h : s.play? rules moves = some t) : Run rules db t := by
  induction moves generalizing s with
  | nil =>
      obtain rfl := Option.some.inj h
      exact run
  | cons move rest ih =>
      obtain ⟨u, hu, hrest⟩ := Option.bind_eq_some_iff.1 h
      exact ih (run.of_move? hu) hrest

/-- What an operation has returned. -/
def System.results (s : System ρ τ α) (operation : Nat) : List α :=
  s.history.filterMap fun
    | .returned other result => if other = operation then some result else none
    | .invoked _ => none

omit [Task τ α] in
theorem System.mem_results {operation : Nat} {result : α} :
    result ∈ s.results operation ↔ .returned operation result ∈ s.history := by
  unfold results
  rw [List.mem_filterMap]
  constructor
  · rintro ⟨event, he, hr⟩
    cases event with
    | invoked request => cases hr
    | returned other a =>
        dsimp only at hr
        split at hr
        · rename_i same
          rwa [← same, ← Option.some.inj hr]
        · cases hr
  · intro h
    exact ⟨_, h, if_pos rfl⟩

/-- A state that is played is reached. -/
theorem Run.exists_of_play? {moves : List (Move ρ)} {p : System ρ τ α → Bool}
    (h : (((System.initial db).play? rules moves).any p) = true) :
    ∃ s, Run rules db s ∧ p s = true := by
  obtain ⟨s, hs, hp⟩ := (Option.any_eq_true _ _).1 h
  exact ⟨s, Run.initial.of_play? hs, hp⟩

end Play

/-! ### Conditions that every step keeps -/

/-- A state whose database, operations under way and results satisfy their conditions; those of an
operation depend on what was asked for. -/
structure System.Keeps {ρ τ α : Type} (base : Database → Prop) (task : Database → ρ → τ → Prop)
    (result : Database → ρ → α → Prop) (s : System ρ τ α) : Prop where
  /-- The database. -/
  base : base s.db
  /-- The operations under way. -/
  pending : ∀ operation t, s.pending operation = some t →
    ∃ request, s.history[operation]? = some (.invoked request) ∧ task s.db request t
  /-- The results. -/
  returned : ∀ operation a, .returned operation a ∈ s.history →
    ∃ request, s.history[operation]? = some (.invoked request) ∧ result s.db request a

namespace System

variable {ρ τ α : Type} {base : Database → Prop} {task : Database → ρ → τ → Prop}
  {result : Database → ρ → α → Prop} {s : System ρ τ α}

/-- What is true of the operations is asked for in another database, perhaps in other words. -/
theorem Keeps.with_db (h : s.Keeps base task result) {db : Database} {base' : Database → Prop}
    {task' : Database → ρ → τ → Prop} {result' : Database → ρ → α → Prop} (hb : base' db)
    (ht : ∀ request t, task s.db request t → task' db request t)
    (hr : ∀ request a, result s.db request a → result' db request a) :
    { s with db := db }.Keeps base' task' result' where
  base := hb
  pending operation t hp := by
    obtain ⟨request, hq, hk⟩ := h.pending operation t hp
    exact ⟨request, hq, ht request t hk⟩
  returned operation a hp := by
    obtain ⟨request, hq, hk⟩ := h.returned operation a hp
    exact ⟨request, hq, hr request a hk⟩

theorem Keeps.with_history (h : s.Keeps base task result) {history : List (Event ρ α)}
    (extended : s.history <+: history)
    (same : ∀ operation a, .returned operation a ∈ history → .returned operation a ∈ s.history) :
    { s with history := history }.Keeps base task result where
  base := h.base
  pending operation t hp := by
    obtain ⟨request, hq, hk⟩ := h.pending operation t hp
    exact ⟨request, getElem?_of_prefix extended hq, hk⟩
  returned operation a hp := by
    obtain ⟨request, hq, hk⟩ := h.returned operation a (same operation a hp)
    exact ⟨request, getElem?_of_prefix extended hq, hk⟩

/-- One operation goes on, in a database for which the conditions hold. -/
theorem Keeps.proceed (h : s.Keeps base task result) {operation : Nat} {request : ρ}
    (hq : s.history[operation]? = some (.invoked request)) {progress : Progress τ α}
    (hp : progress.Satisfies (task s.db request) (result s.db request)) :
    (s.proceed operation progress).Keeps base task result where
  base := by
    rw [db_proceed]
    exact h.base
  pending other t ht := by
    rw [pending_proceed] at ht
    rw [db_proceed]
    split at ht
    · rename_i same
      subst same
      rw [ht] at hp
      exact ⟨request, getElem?_of_prefix (history_proceed s other progress) hq, hp⟩
    · obtain ⟨r, hr, hk⟩ := h.pending other t ht
      exact ⟨r, getElem?_of_prefix (history_proceed s operation progress) hr, hk⟩
  returned other a ha := by
    rw [returned_proceed] at ha
    rw [db_proceed]
    rcases ha with ha | ⟨rfl, ha⟩
    · obtain ⟨r, hr, hk⟩ := h.returned other a ha
      exact ⟨r, getElem?_of_prefix (history_proceed s operation progress) hr, hk⟩
    · rw [ha] at hp
      exact ⟨request, getElem?_of_prefix (history_proceed s other progress) hq, hp⟩

end System

/-- **A condition that every step keeps holds in every run**, also one that speaks of what is
remembered of the steps before; a step may add to the memory. -/
theorem Run.exists_keeps {ρ τ α γ : Type} [Task τ α] {rules : Rules ρ τ α} {db : Database}
    {base : γ → Database → Prop} {task : γ → Database → ρ → τ → Prop}
    {result : γ → Database → ρ → α → Prop} (blank : γ) (initial : base blank db)
    (start : ∀ {memory : γ} {s : System ρ τ α} {request : ρ},
      s.Keeps (base memory) (task memory) (result memory) → rules.admits s request →
      (rules.start s.db request).Satisfies (task memory s.db request)
        (result memory s.db request))
    (step : ∀ {memory db request t fault}, rules.faults db (Task.call t) fault → base memory db →
      task memory db request t →
      ∃ later, base later (db.perform (Task.call t) fault).2 ∧
        (Task.resume t (db.perform (Task.call t) fault).1).Satisfies
          (task later (db.perform (Task.call t) fault).2 request)
          (result later (db.perform (Task.call t) fault).2 request) ∧
        (∀ other u, task memory db other u →
          task later (db.perform (Task.call t) fault).2 other u) ∧
        ∀ other a, result memory db other a →
          result later (db.perform (Task.call t) fault).2 other a)
    (outside : ∀ {memory db after}, rules.outside db after → base memory db →
      base memory after ∧ (∀ other u, task memory db other u → task memory after other u) ∧
        ∀ other a, result memory db other a → result memory after other a)
    {s : System ρ τ α} (run : Run rules db s) :
    ∃ memory, s.Keeps (base memory) (task memory) (result memory) := by
  induction run with
  | initial => exact ⟨blank, initial, by simp [System.initial], by simp [System.initial]⟩
  | @invoke s run request admitted ih =>
      obtain ⟨memory, kept⟩ := ih
      -- the request is noted first, and then the operation begins
      have noted := kept.with_history (List.prefix_append s.history [.invoked request]) (by simp)
      have started := start kept admitted
      exact ⟨memory, noted.proceed (by simp) started⟩
  | advance run operation t pending fault possible ih =>
      obtain ⟨memory, kept⟩ := ih
      obtain ⟨request, hq, ht⟩ := kept.pending operation t pending
      obtain ⟨later, hb, own, tasks, results⟩ := step possible kept.base ht
      -- what the others rely on survives the step, and then the operation goes on
      exact ⟨later, (kept.with_db hb tasks results).proceed hq own⟩
  | outside run after possible ih =>
      obtain ⟨memory, kept⟩ := ih
      obtain ⟨hb, tasks, results⟩ := outside possible kept.base
      exact ⟨memory, kept.with_db hb tasks results⟩

/-- The same for a condition that speaks of the present only. -/
theorem Run.keeps {ρ τ α : Type} [Task τ α] {rules : Rules ρ τ α} {db : Database}
    {base : Database → Prop} {task : Database → ρ → τ → Prop}
    {result : Database → ρ → α → Prop} (initial : base db)
    (start : ∀ {s : System ρ τ α} {request : ρ}, s.Keeps base task result →
      rules.admits s request →
      (rules.start s.db request).Satisfies (task s.db request) (result s.db request))
    (step : ∀ {db request t fault}, rules.faults db (Task.call t) fault → base db →
      task db request t →
      base (db.perform (Task.call t) fault).2 ∧
        (Task.resume t (db.perform (Task.call t) fault).1).Satisfies
          (task (db.perform (Task.call t) fault).2 request)
          (result (db.perform (Task.call t) fault).2 request) ∧
        (∀ other u, task db other u → task (db.perform (Task.call t) fault).2 other u) ∧
        ∀ other a, result db other a → result (db.perform (Task.call t) fault).2 other a)
    (outside : ∀ {db after}, rules.outside db after → base db →
      base after ∧ (∀ other u, task db other u → task after other u) ∧
        ∀ other a, result db other a → result after other a)
    {s : System ρ τ α} (run : Run rules db s) : s.Keeps base task result := by
  -- there is nothing to remember
  obtain ⟨-, kept⟩ := @Run.exists_keeps ρ τ α Unit _ rules db (fun _ => base) (fun _ => task)
    (fun _ => result) () initial start (fun possible hb ht => ⟨(), step possible hb ht⟩) outside s
    run
  exact kept

end DocStore
