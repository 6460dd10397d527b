/-
Operations that are alone with a storage that may fail.

Nobody else touches the database while such an operation is under way, and any of its calls may meet
a fault.  What it has done when it has ended follows call by call, from what each call did or did
not do.

* `Disturbance.alone` — nobody else is there, and these faults are possible;
* `Ends.of_alone_finished`, `Ends.of_alone_waiting` — such an operation has ended, or performs its
  next call with a fault or without one;
* `Ends.alone_satisfies` — **what every call keeps, with every fault that it may meet, holds of the
  result;**
* `Ends.of_alone_map` — what an operation has done that stands for another one;
* `Completes.alone` — an operation that nobody disturbs is alone, and meets no fault;
* `Database.endure?` — such an end, computed;
* `Database.perform_of_site?_none` — a call that makes no access to the storage meets no fault.
-/

import DocStore.Proofs.Run.Completion
import DocStore.Proofs.Run.Disturbed

set_option autoImplicit false

namespace DocStore

variable {τ α : Type} [Task τ α]

/-- Nobody else is there, and these faults are possible. -/
def Disturbance.alone (τ : Type) (faults : Database → Call → Option Error → Prop) :
    Disturbance τ where
  others db seen := seen = db
  faults := faults
  varies task now := now = task

instance (τ : Type) (faults : Database → Call → Option Error → Prop)
    [possible : ∀ db call fault, Decidable (faults db call fault)] (db : Database) (call : Call)
    (fault : Option Error) : Decidable ((Disturbance.alone τ faults).faults db call fault) :=
  possible db call fault

/-- The end of an operation that is alone, and whose calls meet these faults, if they may. -/
def Database.endure? (faults : Database → Call → Option Error → Prop)
    [∀ db call fault, Decidable (faults db call fault)] (met : List (Option Error))
    (db : Database) (progress : Progress τ α) : Option (List Footprint × α × Database) :=
  Database.suffer? (.alone τ faults) (met.map (id, ·)) db progress

namespace Ends

variable {faults : Database → Call → Option Error → Prop} {db after : Database}
  {steps : List Footprint} {result : α}

/-- An operation that has ended does nothing any more. -/
theorem of_alone_finished {ended : α}
    (h : Ends (.alone τ faults) db (.finished ended : Progress τ α) steps result after) :
    result = ended ∧ after = db := by
  cases h
  exact ⟨rfl, rfl⟩

/-- An operation that waits performs its call, with a fault or without one. -/
theorem of_alone_waiting {task : τ}
    (h : Ends (.alone τ faults) db (.waiting task) steps result after) :
    ∃ fault later, faults db (Task.call task) fault ∧
      Ends (.alone τ faults) (db.perform (Task.call task) fault).2
        (Task.resume task (db.perform (Task.call task) fault).1) later result after := by
  cases h with
  | waiting meanwhile varied possible rest =>
      cases meanwhile
      cases varied
      exact ⟨_, _, possible, rest⟩

/-- What every call keeps, with every fault that it may meet, holds of the result. -/
theorem alone_satisfies {progress : Progress τ α} {P : Database → τ → Prop}
    {Q : Database → α → Prop}
    (step : ∀ db task fault, P db task → faults db (Task.call task) fault →
      (Task.resume task (db.perform (Task.call task) fault).1).Satisfies
        (P (db.perform (Task.call task) fault).2) (Q (db.perform (Task.call task) fault).2))
    (h : Ends (.alone τ faults) db progress steps result after)
    (start : progress.Satisfies (P db) (Q db)) : Q after result := by
  refine h.satisfies (P := P) ?_ step start
  rintro db _ task _ kept rfl rfl
  exact kept

/-- What an operation has done that stands for another one. -/
theorem of_alone_map {σ β : Type} [Task σ β] {wrap : τ → σ} {convert : α → β} {last : β}
    {progress : Progress τ α}
    (h : Ends (.alone σ faults) db (progress.map wrap convert) steps last after)
    (call : ∀ t, Task.call (wrap t) = Task.call t)
    (resume : ∀ t reply, Task.resume (wrap t) reply = (Task.resume t reply).map wrap convert) :
    ∃ result, last = convert result ∧ Ends (.alone τ faults) db progress steps result after := by
  generalize same : progress.map wrap convert = mapped at h
  induction h generalizing progress with
  | finished db last =>
      cases progress with
      | waiting task => cases same
      | finished result =>
          cases same
          exact ⟨result, rfl, .finished _ _⟩
  | waiting meanwhile varied possible rest ih =>
      cases progress with
      | finished result => cases same
      | waiting task =>
          cases same
          cases meanwhile
          cases varied
          rw [call] at possible ih ⊢
          obtain ⟨result, eq, done⟩ := ih (resume _ _).symm
          exact ⟨result, eq, .waiting rfl rfl possible done⟩

/-- An end that is computed. -/
theorem of_endure? [∀ db call fault, Decidable (faults db call fault)]
    {progress : Progress τ α} {met : List (Option Error)}
    (h : Database.endure? faults met db progress = some (steps, result, after)) :
    Ends (.alone τ faults) db progress steps result after := by
  refine .of_suffer? h (fun _ => rfl) ?_
  intro move hm db
  obtain ⟨fault, -, rfl⟩ := List.mem_map.1 hm
  rfl

end Ends

/-- An operation that nobody disturbs is alone, and meets no fault. -/
theorem Completes.alone {db after : Database} {progress : Progress τ α} {result : α}
    (h : Completes db progress result after) :
    ∃ steps, Ends (.alone τ fun _ _ fault => fault = none) db progress steps result after := by
  induction h with
  | finished db result => exact ⟨[], .finished db result⟩
  | waiting rest ih =>
      obtain ⟨steps, done⟩ := ih
      exact ⟨_, .waiting rfl rfl rfl done⟩

/-- A call that makes no access to the storage meets no fault. -/
theorem Database.perform_of_site?_none {db : Database} {call : Call} (h : db.site? call = none)
    (fault : Option Error) : db.perform call fault = db.perform call none := by
  simp only [perform, h]

end DocStore
