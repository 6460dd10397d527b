/-
Operations that nobody disturbs.

An operation that is alone performs one call after another until it ends.  What it does then is a
result and a database, and those of an operation that is made of others follow from what these do.

* `Completes` — an operation, alone, ends with a result and leaves a database behind;
* `Completes.unique` — there is one result, and one database;
* `Database.finish?` — the result and the database, computed; `Database.succeeds` — that they are
  so;
* `Completes.waits`, `Completes.of_waits` — an operation that waits performs its call first;
* `Completes.satisfies` — what every call keeps holds of the result;
* `Completes.map`, `Completes.bind` — an operation that stands for another one, and one that goes on
  after another one; `Completes.of_map` — what the other one has done.
-/

import DocStore.Proofs.Database.Stores
import DocStore.Proofs.Run.System

set_option autoImplicit false

namespace DocStore

variable {τ σ α β : Type} [Task τ α] [Task σ β]

/-- An operation, alone in a storage that does not fail, ends with a result and leaves a database
behind. -/
inductive Completes {τ α : Type} [Task τ α] : Database → Progress τ α → α → Database → Prop
  /-- It has ended. -/
  | finished (db : Database) (result : α) : Completes db (.finished result) result db
  /-- It performs its call and goes on with the reply. -/
  | waiting {db after : Database} {task : τ} {result : α}
      (rest : Completes (db.perform (Task.call task) none).2
        (Task.resume task (db.perform (Task.call task) none).1) result after) :
      Completes db (.waiting task) result after

namespace Completes

variable {db after after' mid : Database} {progress : Progress τ α} {result result' : α}

/-- There is one result, and one database. -/
theorem unique (h : Completes db progress result after)
    (h' : Completes db progress result' after') : result = result' ∧ after = after' := by
  induction h with
  | finished db result =>
      cases h'
      exact ⟨rfl, rfl⟩
  | waiting rest ih =>
      cases h' with
      | waiting rest' => exact ih rest'

/-- An operation that has ended has done nothing. -/
theorem of_eq (ended : progress = .finished result) : Completes db progress result db :=
  ended ▸ .finished db result

/-- An operation that waits performs its call first. -/
theorem waits {task : τ} {reply : Reply}
    (performed : db.perform (Task.call task) none = (reply, mid))
    (rest : Completes mid (Task.resume task reply) result after) :
    Completes db (.waiting task) result after := by
  refine .waiting ?_
  rw [performed]
  exact rest

theorem of_waits {task : τ} {reply : Reply}
    (performed : db.perform (Task.call task) none = (reply, mid))
    (h : Completes db (.waiting task) result after) :
    Completes mid (Task.resume task reply) result after := by
  cases h with
  | waiting rest =>
      rw [performed] at rest
      exact rest

/-- An operation that has ended does nothing any more. -/
theorem of_finished (h : Completes db (.finished result : Progress τ α) result' after) :
    result' = result ∧ after = db := by
  cases h
  exact ⟨rfl, rfl⟩

/-- What every call keeps holds of the result. -/
theorem satisfies {P : Database → τ → Prop} {Q : Database → α → Prop}
    (step : ∀ db task, P db task →
      (Task.resume task (db.perform (Task.call task) none).1).Satisfies
        (P (db.perform (Task.call task) none).2) (Q (db.perform (Task.call task) none).2))
    (h : Completes db progress result after) (start : progress.Satisfies (P db) (Q db)) :
    Q after result := by
  induction h with
  | finished db result => exact start
  | @waiting db _ task result rest ih => exact ih (step db task start)

end Completes

/-- The result of an operation that ends after so many calls, and the database after it. -/
def Database.finish? : Nat → Database → Progress τ α → Option (α × Database)
  | _, db, .finished result => some (result, db)
  | 0, _, .waiting _ => none
  | calls + 1, db, .waiting task =>
      let performed := db.perform (Task.call task) none
      finish? calls performed.2 (Task.resume task performed.1)

theorem Completes.of_finish? {calls : Nat} {db after : Database} {progress : Progress τ α}
    {result : α} (h : db.finish? calls progress = some (result, after)) :
    Completes db progress result after := by
  induction calls generalizing db progress with
  | zero =>
      cases progress with
      | finished a =>
          cases h
          exact .finished _ _
      | waiting task => cases h
  | succ calls ih =>
      cases progress with
      | finished a =>
          cases h
          exact .finished _ _
      | waiting task => exact .waiting (ih h)

section Succeeds

variable {υ γ : Type} [Task υ (Except Error γ)] {calls : Nat} {db : Database}
  {progress : Progress υ (Except Error γ)} {p : γ → Database → Bool}

/-- The operation succeeds after at most so many calls, with a result and a database of which this
is true. -/
def Database.succeeds (calls : Nat) (db : Database) (progress : Progress υ (Except Error γ))
    (p : γ → Database → Bool) : Bool :=
  (db.finish? calls progress).any fun ended => ended.1.toOption.any fun made => p made ended.2

theorem Completes.exists_of_succeeds (h : db.succeeds calls progress p = true) :
    ∃ made after, Completes db progress (.ok made) after ∧ p made after = true := by
  obtain ⟨⟨result, after⟩, ended, holds⟩ := (Option.any_eq_true _ _).1 h
  obtain ⟨made, ok, holds⟩ := (Option.any_eq_true _ _).1 holds
  cases result with
  | error e => cases ok
  | ok other =>
      cases ok
      exact ⟨made, after, .of_finish? ended, holds⟩

end Succeeds

/-! ### Operations made of others -/

namespace Completes

variable {db after mid : Database} {progress : Progress τ α} {result : α}

/-- An operation that goes on after another one. -/
theorem bind {wrap : τ → σ} {next : α → Progress σ β} {last : β}
    (call : ∀ t, Task.call (wrap t) = Task.call t)
    (resume : ∀ t reply, Task.resume (wrap t) reply = (Task.resume t reply).andThen wrap next)
    (h : Completes db progress result mid) (h' : Completes mid (next result) last after) :
    Completes db (progress.andThen wrap next) last after := by
  induction h with
  -- by induction on the calls of the first operation, which the second one makes in its place
  | finished db result => exact h'
  | @waiting db _ task result rest ih =>
      refine .waiting ?_
      rw [call, resume]
      exact ih h'

/-- An operation that stands for another one. -/
theorem map {wrap : τ → σ} {convert : α → β} (call : ∀ t, Task.call (wrap t) = Task.call t)
    (resume : ∀ t reply, Task.resume (wrap t) reply = (Task.resume t reply).map wrap convert)
    (h : Completes db progress result after) :
    Completes db (progress.map wrap convert) (convert result) after := by
  rw [Progress.map_eq_andThen]
  exact h.bind call (fun t reply => (resume t reply).trans (Progress.map_eq_andThen _ _ _))
    (.finished _ _)

/-- What an operation has done that stands for another one. -/
theorem of_map {wrap : τ → σ} {convert : α → β} {last : β}
    (h : Completes db (progress.map wrap convert) last after)
    (call : ∀ t, Task.call (wrap t) = Task.call t)
    (resume : ∀ t reply, Task.resume (wrap t) reply = (Task.resume t reply).map wrap convert) :
    ∃ result, last = convert result ∧ Completes db progress result after := by
  generalize same : progress.map wrap convert = mapped at h
  induction h generalizing progress with
  | finished db last =>
      cases progress with
      | waiting task => cases same
      | finished result =>
          cases same
          exact ⟨result, rfl, .finished _ _⟩
  | @waiting db _ task last rest ih =>
      cases progress with
      | finished result => cases same
      | waiting task =>
          cases same
          rw [call] at ih
          obtain ⟨result, eq, done⟩ := ih (resume _ _).symm
          exact ⟨result, eq, .waiting done⟩

end Completes

end DocStore
