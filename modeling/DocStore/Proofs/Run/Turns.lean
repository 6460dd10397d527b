/-
Operations that take turns with others.

An operation that is not alone gets its turns one call at a time, and between any two of them come
the turns of others, who may make any calls.  Nobody says who comes next, so that a list of turns
stands for an interleaving, and all lists for all of them.

* `Turn`, `Amid` — whose turn it is, and an operation among others; `Amid.turn`, `Amid.run` — what
  becomes of it in one turn, and in several;
* `Amid.tally` — what is counted over some turns;
* `Amid.tally_le` — **what every turn pays for is paid for over all turns;**
* `Database.mutates` — a call writes a key and succeeds; `Database.find?_perform_of_not_mutates`,
  `Database.get?_perform_of_not_mutates` — every other call leaves the key alone;
* `Amid.run_andThen` — an operation that stands for another one for the time being;
* `Run.exists_turns` — **every operation of a run takes turns with the others of the run.**
-/

import DocStore.Proofs.Run.Completion

set_option autoImplicit false

namespace DocStore

/-! ### Turns -/

/-- Whose turn it is. -/
inductive Turn
  /-- The operation makes its next call, if it has not ended. -/
  | own
  /-- Somebody else makes this call, which may meet a fault. -/
  | other (call : Call) (fault : Option Error)

/-- The operation makes its next call. -/
def Turn.isOwn : Turn → Bool
  | .own => true
  | .other _ _ => false

/-- An operation among others: the database, and what has become of the operation. -/
structure Amid (τ α : Type) where
  /-- The database. -/
  db : Database
  /-- The operation. -/
  progress : Progress τ α

namespace Amid

variable {τ σ α β : Type} [Task τ α] [Task σ β]

/-- What becomes of an operation and its database in one turn. -/
def turn (s : Amid τ α) : Turn → Amid τ α
  | .own =>
      match s.progress with
      | .waiting task =>
          let performed := s.db.perform (Task.call task) none
          ⟨performed.2, Task.resume task performed.1⟩
      | .finished _ => s
  | .other call fault => { s with db := (s.db.perform call fault).2 }

/-- What becomes of them in several turns. -/
def run (s : Amid τ α) (turns : List Turn) : Amid τ α :=
  turns.foldl turn s

theorem run_append (s : Amid τ α) (first second : List Turn) :
    s.run (first ++ second) = (s.run first).run second :=
  List.foldl_append

/-- How much is counted over some turns. -/
def tally (count : Amid τ α → Turn → Nat) : Amid τ α → List Turn → Nat
  | _, [] => 0
  | s, t :: rest => count s t + tally count (s.turn t) rest

theorem tally_append (count : Amid τ α → Turn → Nat) (s : Amid τ α) (first second : List Turn) :
    tally count s (first ++ second) = tally count s first + tally count (s.run first) second := by
  induction first generalizing s with
  | nil => exact (Nat.zero_add _).symm
  | cons t rest ih =>
      rw [List.cons_append, tally, tally, ih, Nat.add_assoc]
      rfl

/-- What is counted of two kinds is counted of each. -/
theorem tally_add_mul (a b : Nat) (f g : Amid τ α → Turn → Nat) (s : Amid τ α)
    (turns : List Turn) :
    tally (fun u t => a * f u t + b * g u t) s turns
      = a * tally f s turns + b * tally g s turns := by
  induction turns generalizing s with
  | nil => rfl
  | cons t rest ih =>
      rw [tally, tally, tally, ih, Nat.mul_add, Nat.mul_add]
      omega

/-- What is counted is counted in some turn. -/
theorem exists_of_tally_ne_zero {count : Amid τ α → Turn → Nat} {s : Amid τ α}
    {turns : List Turn} (h : tally count s turns ≠ 0) :
    ∃ before t later, turns = before ++ t :: later ∧ count (s.run before) t ≠ 0 := by
  induction turns generalizing s with
  | nil => exact absurd rfl h
  | cons t rest ih =>
      by_cases now : count s t = 0
      · rw [tally, now, Nat.zero_add] at h
        obtain ⟨before, u, later, rfl, counted⟩ := ih h
        exact ⟨t :: before, u, later, rfl, counted⟩
      · exact ⟨[], t, rest, rfl, now⟩

/-- **What every turn pays for is paid for over all turns**: if each turn costs no more than what is
gained by it and taken from the savings, then all turns together cost no more than what they gain
and the first savings. -/
theorem tally_le {keeps : Amid τ α → Prop} {savings : Amid τ α → Nat}
    {cost gain : Amid τ α → Turn → Nat} (kept : ∀ s t, keeps s → keeps (s.turn t))
    (pays : ∀ s t, keeps s → cost s t + savings (s.turn t) ≤ savings s + gain s t) {s : Amid τ α}
    (start : keeps s) (turns : List Turn) :
    tally cost s turns + savings (s.run turns) ≤ savings s + tally gain s turns := by
  induction turns generalizing s with
  | nil => exact Nat.le_of_eq (Nat.zero_add _)
  | cons t rest ih =>
      have now := pays s t start
      have later := ih (kept s t start)
      have runs : s.run (t :: rest) = (s.turn t).run rest := rfl
      rw [tally, tally, runs]
      omega

/-! ### Operations that stand for others -/

/-- An operation that has ended does nothing any more. -/
theorem progress_run_of_finished {s : Amid τ α} {result : α} (h : s.progress = .finished result)
    (turns : List Turn) : (s.run turns).progress = .finished result := by
  induction turns generalizing s with
  | nil => exact h
  | cons t rest ih =>
      refine ih (s := s.turn t) ?_
      cases t with
      | own => simp only [turn, h]
      | other call fault => exact h

/-- **An operation that stands for another one for the time being** gets the turns of that one, as
long as it is under way. -/
theorem run_andThen (wrap : τ → σ) (next : α → Progress σ β)
    (call : ∀ t, Task.call (wrap t) = Task.call t)
    (resume : ∀ t reply, Task.resume (wrap t) reply = (Task.resume t reply).andThen wrap next)
    {s : Amid τ α} {turns : List Turn} {task : τ} (waits : (s.run turns).progress = .waiting task) :
    (⟨s.db, s.progress.andThen wrap next⟩ : Amid σ β).run turns
      = ⟨(s.run turns).db, .waiting (wrap task)⟩ := by
  induction turns generalizing s with
  | nil =>
      have now : s.progress = .waiting task := waits
      rw [now]
      rfl
  | cons t rest ih =>
      cases progress : s.progress with
      | finished result =>
          rw [progress_run_of_finished progress] at waits
          cases waits
      | waiting first =>
          have later := ih (s := s.turn t) waits
          have step : (⟨s.db, .waiting (wrap first)⟩ : Amid σ β).turn t
              = ⟨(s.turn t).db, (s.turn t).progress.andThen wrap next⟩ := by
            cases t with
            | own => simp only [turn, progress, call, resume]
            | other call fault =>
                simp only [turn, progress]
                rfl
          exact (congrArg (fun u : Amid σ β => u.run rest) step).trans later

end Amid

/-! ### Successful writes of a key -/

/-- The key that a call writes, and its store. -/
def Call.target? : Call → Option (StoreId × Bytes)
  | .create id key _ => some (id, key)
  | .compareAndSet id key _ _ => some (id, key)
  | .compareAndDelete id key _ => some (id, key)
  | _ => none

/-- The reply to a write that has succeeded. -/
def Reply.succeeded : Reply → Bool
  | .counter written => written.isOk
  | .done result => result.isOk
  | _ => false

/-- A write has succeeded when it has a counter. -/
theorem SlotWrite.succeeded_reply (write : SlotWrite) (result : Except Error Counter) :
    (write.reply result).succeeded = result.isOk := by
  cases write <;> cases result <;> rfl

namespace Database

variable {id : StoreId} {key : Bytes}

/-- A call writes this key of this store, and succeeds. -/
def mutates (db : Database) (id : StoreId) (key : Bytes) (call : Call) (fault : Option Error) :
    Bool :=
  call.target? == some (id, key) && (db.perform call fault).1.succeeded

theorem target?_write (write : SlotWrite) (id : StoreId) (key : Bytes) :
    (write.call id key).target? = some (id, key) := by
  cases write <;> rfl

/-- **Every other call leaves the slot of the key alone.** -/
theorem find?_perform_of_not_mutates (db : Database) {call : Call} {fault : Option Error}
    (h : db.mutates id key call fault = false) :
    ((db.perform call fault).2.backend.store id).slots.find? key
      = (db.backend.store id).slots.find? key := by
  by_cases there : id < db.backend.stores.length
  · rcases db.store_perform call fault there with ⟨write, other, rfl, accepts, after⟩ | ⟨same, -⟩
    · cases fault with
      | some e => rw [db.perform_write_some]
      | none =>
          by_cases same : key = other
          -- the write goes through, and so it has succeeded
          · obtain rfl := same
            rw [mutates, target?_write, db.perform_write accepts, SlotWrite.succeeded_reply] at h
            simp [Except.isOk, Except.toBool] at h
          · rw [after, Store.find?_applied accepts, if_neg same]
    · rw [same]
  · -- a store that is not there has no keys, and one that is new has none either
    have missing : (db.backend.store id).slots.find? key = none :=
      Option.eq_none_iff_forall_ne_some.2 fun _ found => there (Backend.lt_length_of_find? found)
    rw [missing]
    exact Option.eq_none_iff_forall_ne_some.2 fun _ found =>
      there (db.lt_length_of_find?_perform found)

/-- So does what is read there. -/
theorem get?_perform_of_not_mutates (db : Database) {call : Call} {fault : Option Error}
    (h : db.mutates id key call fault = false) :
    ((db.perform call fault).2.backend.store id).get? key = (db.backend.store id).get? key := by
  rw [Store.get?, db.find?_perform_of_not_mutates h, Store.get?]

/-- To write another key of another store is no write of this one. -/
theorem not_mutates_of_target? {db : Database} {call : Call} {fault : Option Error}
    (h : call.target? ≠ some (id, key)) : db.mutates id key call fault = false := by
  rw [mutates, beq_false_of_ne h, Bool.false_and]

end Database

/-! ### Runs -/

namespace System

variable {ρ τ α : Type} {s : System ρ τ α} {operation other : Nat} {progress : Progress τ α}

/-- This has become of an operation. -/
structure Stands (s : System ρ τ α) (operation : Nat) (progress : Progress τ α) : Prop where
  pending : ∀ task, s.pending operation = some task ↔ progress = .waiting task
  returned : ∀ result, .returned operation result ∈ s.history ↔ progress = .finished result

/-- An operation that goes on has come as far as it goes. -/
theorem stands_proceed (unreturned : ∀ result, .returned operation result ∉ s.history) :
    (s.proceed operation progress).Stands operation progress := by
  refine ⟨fun task => ?_, fun result => ?_⟩
  · rw [pending_proceed, if_pos rfl]
  · rw [returned_proceed]
    exact ⟨fun h => (h.resolve_left (unreturned result)).2, fun h => Or.inr ⟨rfl, h⟩⟩

/-- The others stay where they are. -/
theorem Stands.proceed (h : s.Stands other progress) (ne : other ≠ operation)
    (goes : Progress τ α) : (s.proceed operation goes).Stands other progress := by
  refine ⟨fun task => ?_, fun result => ?_⟩
  · rw [pending_proceed, if_neg ne]
    exact h.pending task
  · rw [returned_proceed]
    exact ⟨fun h' => (h.returned result).1 (h'.resolve_right fun no => ne no.1),
      fun h' => Or.inl ((h.returned result).2 h')⟩

/-- To go on is no invocation. -/
theorem invoked_proceed {request : ρ} :
    (s.proceed operation progress).history[other]? = some (.invoked request)
      ↔ s.history[other]? = some (.invoked request) := by
  cases progress with
  | waiting task => rfl
  | finished result =>
      rw [System.proceed, List.getElem?_append]
      split
      · rfl
      · rename_i beyond
        rw [List.getElem?_eq_none (Nat.le_of_not_lt beyond)]
        cases h : other - s.history.length with
        | zero => simp
        | succ n => simp

/-- An operation was invoked before, or it is the one that is invoked now. -/
theorem invoked_invoke {new request : ρ}
    (h : (s.invoke new progress).history[operation]? = some (.invoked request)) :
    s.history[operation]? = some (.invoked request)
      ∨ operation = s.history.length ∧ new = request := by
  rw [invoke, invoked_proceed, List.getElem?_append] at h
  split at h
  · exact .inl h
  · rename_i beyond
    cases number : operation - s.history.length with
    | zero =>
        rw [number] at h
        exact .inr ⟨Nat.le_antisymm (Nat.sub_eq_zero_iff_le.1 number) (Nat.le_of_not_lt beyond),
          Event.invoked.inj (Option.some.inj h)⟩
    | succ n =>
        rw [number] at h
        cases h

/-- To be invoked leaves the operations before where they are. -/
theorem Stands.invoke (h : s.Stands other progress) (before : other < s.history.length)
    (new : ρ) (goes : Progress τ α) : (s.invoke new goes).Stands other progress := by
  have noted : ({ s with history := s.history ++ [.invoked new] } : System ρ τ α).Stands other
      progress := by
    refine ⟨h.pending, fun result => ?_⟩
    rw [List.mem_append, ← h.returned]
    simp
  exact noted.proceed (Nat.ne_of_lt before) goes

end System

/-- An operation that is invoked in a run stands where it begins. -/
theorem Run.stands_invoke {ρ τ α : Type} [Task τ α] {rules : Rules ρ τ α} {db : Database}
    {s : System ρ τ α} (run : Run rules db s) (new : ρ) (progress : Progress τ α) :
    (s.invoke new progress).Stands s.history.length progress := by
  refine System.stands_proceed ?_
  intro result mem
  rcases List.mem_append.1 mem with before | now
  · obtain ⟨⟨other, there⟩, -⟩ := run.of_returned before
    rw [List.getElem?_eq_none (Nat.le_refl _)] at there
    cases there
  · cases List.mem_singleton.1 now

/-- **Every operation of a run takes turns with the others of the run**, if nothing fails and nobody
else is there: from its invocation on it is where its own turns have brought it, and so is the
database. -/
theorem Run.exists_turns {ρ τ α : Type} [Task τ α] {rules : Rules ρ τ α} {db : Database}
    {s : System ρ τ α} (run : Run rules db s)
    (faultless : ∀ db call fault, rules.faults db call fault → fault = none)
    (closed : ∀ db after, ¬ rules.outside db after) {operation : Nat} {request : ρ}
    (invoked : s.history[operation]? = some (.invoked request)) :
    ∃ first turns, ((⟨first, rules.start first request⟩ : Amid τ α).run turns).db = s.db ∧
      s.Stands operation ((⟨first, rules.start first request⟩ : Amid τ α).run turns).progress := by
  induction run with
  | initial => cases invoked
  | @invoke s run new admitted ih =>
      rcases System.invoked_invoke invoked with before | ⟨rfl, rfl⟩
      · obtain ⟨first, turns, same, stands⟩ := ih before
        exact ⟨first, turns, same.trans (System.db_invoke _ _ _).symm,
          stands.invoke (List.getElem?_eq_some_iff.1 before).1 _ _⟩
      · exact ⟨s.db, [], (System.db_invoke _ _ _).symm, run.stands_invoke _ _⟩
  | @advance s run moved task pending fault possible ih =>
      rw [System.advance, System.invoked_proceed] at invoked
      obtain ⟨first, turns, same, stands⟩ := ih invoked
      by_cases own : operation = moved
      · subst own
        have waits := (stands.pending task).1 pending
        have fault := faultless _ _ _ possible
        subst fault
        refine ⟨first, turns ++ [.own], ?_⟩
        rw [Amid.run_append]
        have turned : (((⟨first, rules.start first request⟩ : Amid τ α).run turns).run [.own])
            = ⟨(s.db.perform (Task.call task) none).2,
              Task.resume task (s.db.perform (Task.call task) none).1⟩ := by
          simp only [Amid.run, List.foldl_cons, List.foldl_nil] at waits same ⊢
          simp only [Amid.turn, waits, same]
        rw [turned]
        exact ⟨(System.db_advance _ _ _ _).symm,
          System.stands_proceed fun result => run.not_returned_of_pending pending result⟩
      · refine ⟨first, turns ++ [.other (Task.call task) fault], ?_⟩
        rw [Amid.run_append]
        refine ⟨?_, ?_⟩
        · rw [System.db_advance, ← same]
          rfl
        · have elsewhere : ({ s with db := (s.db.perform (Task.call task) fault).2 } :
              System ρ τ α).Stands operation
                ((⟨first, rules.start first request⟩ : Amid τ α).run turns).progress :=
            ⟨stands.pending, stands.returned⟩
          exact elsewhere.proceed own _
  | outside run after possible ih => exact absurd possible (closed _ _)

end DocStore
