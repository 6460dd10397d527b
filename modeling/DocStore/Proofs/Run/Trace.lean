/-
Runs with the calls that were performed in them.

The history of a run says what was asked for and what came of it.  What an operation has met in
between, a fault for example, is told by its calls; a trace is a run together with these, the
earliest call first.

* `Step`, `Step.reply` — one call of an operation, and the reply to it;
* `Trace` — a state that is reached, and the calls that have led to it;
* `Run.exists_trace`, `Trace.run` — every run has a trace, and every trace is that of a run;
* `Trace.possible`, `Trace.imp` — the calls of a trace are those that the rules allow, and it is a
  trace by all rules that allow as much.
-/

import DocStore.Proofs.Run.System

set_option autoImplicit false

namespace DocStore

/-- One call of an operation: the database that it has found, the operation, and the fault that it
has met, if any. -/
structure Step (τ : Type) where
  /-- The database before the call. -/
  db : Database
  /-- The operation. -/
  task : τ
  /-- The fault. -/
  fault : Option Error

/-- The reply to the call. -/
def Step.reply {τ α : Type} [Task τ α] (step : Step τ) : Reply :=
  (step.db.perform (Task.call step.task) step.fault).1

/-- The states that are reached from a database, with the calls that have led to them. -/
inductive Trace {ρ τ α : Type} [Task τ α] (rules : Rules ρ τ α) (db : Database) :
    List (Step τ) → System ρ τ α → Prop
  | initial : Trace rules db [] (.initial db)
  | invoke {steps : List (Step τ)} {s : System ρ τ α} (trace : Trace rules db steps s)
      (request : ρ) (admitted : rules.admits s request) :
      Trace rules db steps (s.invoke request (rules.start s.db request))
  | advance {steps : List (Step τ)} {s : System ρ τ α} (trace : Trace rules db steps s)
      (operation : Nat) (task : τ) (pending : s.pending operation = some task)
      (fault : Option Error) (possible : rules.faults s.db (Task.call task) fault) :
      Trace rules db (steps ++ [⟨s.db, task, fault⟩]) (s.advance operation task fault)
  | outside {steps : List (Step τ)} {s : System ρ τ α} (trace : Trace rules db steps s)
      (after : Database) (possible : rules.outside s.db after) :
      Trace rules db steps { s with db := after }

variable {ρ τ α : Type} [Task τ α] {rules rules' : Rules ρ τ α} {db : Database}
  {s : System ρ τ α} {steps : List (Step τ)}

/-- Every run has a trace. -/
theorem Run.exists_trace (run : Run rules db s) : ∃ steps, Trace rules db steps s := by
  induction run with
  | initial => exact ⟨[], .initial⟩
  | invoke run request admitted ih =>
      obtain ⟨steps, trace⟩ := ih
      exact ⟨steps, trace.invoke request admitted⟩
  | advance run operation task pending fault possible ih =>
      obtain ⟨steps, trace⟩ := ih
      exact ⟨_, trace.advance operation task pending fault possible⟩
  | outside run after possible ih =>
      obtain ⟨steps, trace⟩ := ih
      exact ⟨steps, trace.outside after possible⟩

namespace Trace

/-- Every trace is that of a run. -/
theorem run (trace : Trace rules db steps s) : Run rules db s := by
  induction trace with
  | initial => exact .initial
  | invoke trace request admitted ih => exact ih.invoke request admitted
  | advance trace operation task pending fault possible ih =>
      exact ih.advance operation task pending fault possible
  | outside trace after possible ih => exact ih.outside after possible

/-- The faults of a trace are those that the rules allow. -/
theorem possible (trace : Trace rules db steps s) {step : Step τ} (mem : step ∈ steps) :
    rules.faults step.db (Task.call step.task) step.fault := by
  induction trace with
  | initial => cases mem
  | invoke trace request admitted ih => exact ih mem
  | advance trace operation task pending fault possible ih =>
      rcases List.mem_append.1 mem with mem | mem
      · exact ih mem
      · obtain rfl := List.mem_singleton.1 mem
        exact possible
  | outside trace after possible ih => exact ih mem

/-- A trace by some rules is one by all rules that allow as much. -/
theorem imp (trace : Trace rules db steps s) (start : rules'.start = rules.start)
    (admits : ∀ s request, rules.admits s request → rules'.admits s request)
    (faults : ∀ db call fault, rules.faults db call fault → rules'.faults db call fault)
    (outside : ∀ db after, rules.outside db after → rules'.outside db after) :
    Trace rules' db steps s := by
  induction trace with
  | initial => exact .initial
  | invoke trace request admitted ih =>
      rw [← start]
      exact ih.invoke request (admits _ request admitted)
  | advance trace operation task pending fault possible ih =>
      exact ih.advance operation task pending fault (faults _ _ _ possible)
  | outside trace after possible ih => exact ih.outside after (outside _ _ possible)

end Trace

end DocStore
