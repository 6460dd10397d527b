/-
Operations on a database, one after another.

Whoever makes or drops a table or an index changes the catalog, the registered indexes and the
keyspaces in several calls.  When nobody else is there in the meantime they are in step again at
the end, and an operation that fails has left all three as they were.

* `TableCreation.completes_cases`, `TableDrop.completes_cases`, `IndexCreation.completes_cases`,
  `IndexDrop.completes_cases` — what each of them has done when it has ended;
* `Completes.sameNames` — operations on documents, and those that only read, name nothing;
* `DatabaseOutcome.failure?` — the error with which an operation has failed;
* `Database.InStep.request` — **an operation keeps the step, and changes no name if it fails;**
* `Database.Sequence` — the databases that operations leave behind, from a fresh one on
  (`Database.replay?` computes them);
* `Database.Sequence.inStep_spec` — **the keyspaces are those of the tables in the catalog and of
  their indexes, whatever has been made and dropped.**

Handles of tables are used as long as these are in the catalog.
-/

import DocStore.Proofs.Database.Owners
import DocStore.Proofs.Database.Requests
import DocStore.Proofs.Documents.Effects

set_option autoImplicit false

namespace DocStore

variable {db after : Database} {table : Table}

/-! ### Tables -/

/-- The creation of a table has failed and done nothing, or the table is there. -/
theorem TableCreation.completes_cases {name : String} {result : Except Error Table}
    (done : Completes db (createTable name) result after) :
    (∃ e, result = .error e ∧ after = db) ∨
      db.table? name = none ∧ result = .ok (db.addTable name).1 ∧
        after = (db.addTable name).2 := by
  unfold createTable at done
  split at done
  · cases free : db.table? name with
    | some table =>
        have performed := Database.perform_registerTable_of_some free
        obtain ⟨rfl, rfl⟩ := (Completes.of_waits performed done).of_finished
        exact Or.inl ⟨_, rfl, rfl⟩
    | none =>
        have performed := Database.perform_registerTable_of_none free
        obtain ⟨rfl, rfl⟩ := (Completes.of_waits performed done).of_finished
        exact Or.inr ⟨rfl, rfl, rfl⟩
  · obtain ⟨rfl, rfl⟩ := done.of_finished
    exact Or.inl ⟨_, rfl, rfl⟩

/-- Dropping keyspaces one after another. -/
theorem TableDrop.next_completes (d : TableDrop) (db : Database) (names : List String) :
    Completes db (d.next names) (.ok ()) (db.putBackend (db.backend.dropAll names)) := by
  induction names generalizing d db with
  | nil => exact .finished _ _
  | cons name names ih => exact .waiting (ih _ _)

/-- The drop of a table has found none and done nothing, or nothing of the table is left. -/
theorem TableDrop.completes_cases (inStep : db.InStep) {name : String}
    {result : Except Error Unit} (done : Completes db (dropTable name) result after) :
    (∃ e, result = .error e ∧ after = db) ∨
      ∃ table, db.table? name = some table ∧ result = .ok () ∧ after = db.withoutTable table := by
  cases found : db.table? name with
  | none =>
      have performed := Database.perform_unregisterTable_of_none found
      obtain ⟨rfl, rfl⟩ := (Completes.of_waits performed done).of_finished
      exact Or.inl ⟨_, rfl, rfl⟩
  | some table =>
      obtain rfl := inStep.named found
      have performed := Database.perform_unregisterTable_of_some found
      have dropped : Completes db (dropTable table.name) (.ok ()) (db.withoutTable table) :=
        .waits performed (.waiting (TableDrop.next_completes _ _ _))
      obtain ⟨rfl, rfl⟩ := done.unique dropped
      exact Or.inr ⟨table, rfl, rfl, rfl⟩

/-! ### Indexes -/

/-- The drop of an index has found none and done nothing, or nothing of the index is left. -/
theorem IndexDrop.completes_cases {name : String} {result : Except Error Unit}
    (done : Completes db (table.dropIndex name) result after) :
    (∃ e, result = .error e ∧ after = db) ∨
      result = .ok () ∧ after = db.withoutIndex table name := by
  cases found : (db.indexesOf table.id).find? name with
  | none =>
      have performed := Database.perform_unregisterIndex_of_none found
      obtain ⟨rfl, rfl⟩ := (Completes.of_waits performed done).of_finished
      exact Or.inl ⟨_, rfl, rfl⟩
  | some index =>
      have performed := Database.perform_unregisterIndex_of_some found
      have dropped : Completes db (table.dropIndex name) (.ok ()) (db.withoutIndex table name) :=
        .waits performed (.waiting (.finished _ _))
      obtain ⟨rfl, rfl⟩ := done.unique dropped
      exact Or.inr ⟨rfl, rfl⟩

namespace IndexCreation

/-- The index is registered, and what is left is to file the documents. -/
def Registered (c : IndexCreation) : Prop :=
  ∀ name path, c.stage ≠ .registering name path

/-- A creation that files accesses the stores, and does not fail. -/
theorem registered_step {c : IndexCreation} (h : c.Registered) (db : Database) :
    (Task.call c).IsAccess ∧
      (Task.resume c (db.perform (Task.call c) none).1).Satisfies Registered
        fun result => ∃ index, result = .ok index := by
  have filed : ∀ index progress, (filed c.table index progress).Satisfies Registered
      fun result => ∃ index, result = .ok index := by
    intro index progress
    cases progress with
    | waiting queue => exact fun _ _ same => nomatch same
    | finished result => exact fun _ _ same => nomatch same
  obtain ⟨table, stage⟩ := c
  cases stage with
  | registering name path => exact absurd rfl (h name path)
  | opening index => exact ⟨trivial, filed index _⟩
  | filing index queue => exact ⟨queue.current.call_isAccess, filed index _⟩
  | releasing index => exact ⟨trivial, index, rfl⟩

/-- The creation of an index has failed and done nothing, or the index is registered. -/
theorem completes_cases {name path : String} {result : Except Error Index}
    (done : Completes db (table.createIndex name path) result after) :
    (∃ e, result = .error e ∧ after = db) ∨
      ∃ path, (db.indexesOf table.id).find? name = none ∧ (∃ index, result = .ok index) ∧
        (db.addIndex table name path).2.SameNames after := by
  unfold Table.createIndex start at done
  split at done
  · obtain ⟨rfl, rfl⟩ := done.of_finished
    exact Or.inl ⟨_, rfl, rfl⟩
  split at done
  · obtain ⟨rfl, rfl⟩ := done.of_finished
    exact Or.inl ⟨_, rfl, rfl⟩
  rename_i path _
  cases free : (db.indexesOf table.id).find? name with
  | some index =>
      have performed := Database.perform_registerIndex_of_some free path
      obtain ⟨rfl, rfl⟩ := (Completes.of_waits performed done).of_finished
      exact Or.inl ⟨_, rfl, rfl⟩
  | none =>
      have performed := Database.perform_registerIndex_of_none free path
      -- from the registration on nothing is named any more, and nothing fails
      have registered : (Task.resume (⟨table, .registering name path⟩ : IndexCreation)
          (.index (.ok (db.addIndex table name path).1))).Satisfies Registered
            fun result => ∃ index, result = .ok index := by
        intro _ _ same
        cases same
      obtain ⟨same, ok⟩ := (Completes.of_waits performed done).satisfies
        (P := fun later c => (db.addIndex table name path).2.SameNames later ∧ c.Registered)
        (Q := fun later result => (db.addIndex table name path).2.SameNames later ∧
          ∃ index, result = .ok index)
        (fun later c kept => by
          obtain ⟨access, goes⟩ := registered_step kept.2 later
          have same := kept.1.trans (later.sameNames_perform none access)
          exact goes.imp (fun _ h => ⟨same, h⟩) fun _ h => ⟨same, h⟩)
        (registered.imp (fun _ h => ⟨.refl _, h⟩) fun _ h => ⟨.refl _, h⟩)
      exact Or.inr ⟨path, rfl, ok, same⟩

end IndexCreation

/-! ### Documents and questions -/

/-- A call that reads accesses the stores that are there. -/
theorem Call.Reads.isAccess {call : Call} (h : call.Reads) : call.IsAccess := by
  cases call <;> trivial

/-- An operation that only accesses stores names nothing. -/
theorem Completes.sameNames {τ α : Type} [Task τ α] {progress : Progress τ α} {result : α}
    (access : ∀ task : τ, (Task.call task).IsAccess)
    (done : Completes db progress result after) : db.SameNames after := by
  induction done with
  | finished db result => exact .refl db
  | @waiting db _ task result rest ih =>
      exact (db.sameNames_perform none (access task)).trans ih

/-! ### Failures -/

/-- The error of a result that is one. -/
def failureOf {α : Type} : Except Error α → Option Error
  | .error e => some e
  | .ok _ => none

/-- A result with an error is one. -/
theorem eq_of_failureOf {α : Type} {result : Except Error α} {e : Error}
    (h : failureOf result = some e) : result = .error e := by
  cases result with
  | ok value => cases h
  | error e' => rw [Option.some.inj h]

/-- The error with which an operation on a document has failed. -/
def DocumentOutcome.failure? : DocumentOutcome → Option Error
  | .read result => failureOf result
  | .written result => failureOf result
  | .deleted result => failureOf result
  | .updated (.error (.store e)) => some e
  | .updated _ => none

/-- The error with which an operation on a table has failed. -/
def TableOutcome.failure? : TableOutcome → Option Error
  | .document outcome => outcome.failure?
  | .created result => failureOf result
  | .dropped result => failureOf result

/-- The error that an operation that only reads has met. -/
def QueryOutcome.failure? : QueryOutcome → Option Error
  | .read result => failureOf result
  | .opened result => failureOf result
  | .listed result => failureOf result
  | .loaded result => failureOf result
  | .sought result => failureOf result
  | .walked result => failureOf result
  | .pulled (item, _) => item.bind failureOf

/-- The error with which an operation has failed. -/
def DatabaseOutcome.failure? : DatabaseOutcome → Option Error
  | .created result => failureOf result
  | .dropped result => failureOf result
  | .table outcome => outcome.failure?
  | .query outcome => outcome.failure?

/-! ### All operations -/

/-- What is asked of a table is asked through a handle that is in the catalog. -/
def DatabaseRequest.ThroughCatalog (db : Database) : DatabaseRequest → Prop
  | .table table _ => db.table? table.name = some table
  | _ => True

instance (db : Database) : (request : DatabaseRequest) → Decidable (request.ThroughCatalog db)
  | .table table _ => inferInstanceAs (Decidable (db.table? table.name = some table))
  | .createTable _ | .dropTable _ | .query _ => inferInstanceAs (Decidable True)

namespace Database

/-- An operation on a table keeps the step, and changes no name if it fails. -/
theorem InStep.tableRequest (h : db.InStep) (ht : db.table? table.name = some table)
    {request : TableRequest} {outcome : TableOutcome}
    (done : Completes db (request.start table) outcome after) :
    after.InStep ∧ ∀ e, outcome.failure? = some e → db.SameNames after := by
  cases request with
  | document request =>
      have wrapped : Completes db ((request.start table).map TableTask.document .document)
          outcome after := done
      obtain ⟨result, rfl, ended⟩ := wrapped.of_map (fun _ => rfl) fun _ _ => rfl
      have same := ended.sameNames DocumentTask.call_isAccess
      exact ⟨h.of_sameNames same, fun _ _ => same⟩
  | createIndex name path =>
      have wrapped : Completes db ((table.createIndex name path).map TableTask.creating .created)
          outcome after := done
      obtain ⟨result, rfl, ended⟩ := wrapped.of_map (fun _ => rfl) fun _ _ => rfl
      rcases IndexCreation.completes_cases ended with
        ⟨e, rfl, rfl⟩ | ⟨path, free, ⟨index, rfl⟩, same⟩
      · exact ⟨h, fun _ _ => .refl _⟩
      · exact ⟨(h.addIndex ht free path).of_sameNames same, fun _ no => nomatch no⟩
  | dropIndex name =>
      have wrapped : Completes db ((table.dropIndex name).map TableTask.dropping .dropped)
          outcome after := done
      obtain ⟨result, rfl, ended⟩ := wrapped.of_map (fun _ => rfl) fun _ _ => rfl
      rcases IndexDrop.completes_cases ended with ⟨e, rfl, rfl⟩ | ⟨rfl, rfl⟩
      · exact ⟨h, fun _ _ => .refl _⟩
      · exact ⟨h.withoutIndex ht name, fun _ no => nomatch no⟩

/-- **An operation keeps the step, and changes no name if it fails.** -/
theorem InStep.request (h : db.InStep) {request : DatabaseRequest} {outcome : DatabaseOutcome}
    (through : request.ThroughCatalog db) (done : Completes db request.start outcome after) :
    after.InStep ∧ ∀ e, outcome.failure? = some e → db.SameNames after := by
  cases request with
  | createTable name =>
      have wrapped : Completes db ((DocStore.createTable name).map DatabaseTask.creating .created)
          outcome after := done
      obtain ⟨result, rfl, ended⟩ := wrapped.of_map (fun _ => rfl) fun _ _ => rfl
      rcases TableCreation.completes_cases ended with ⟨e, rfl, rfl⟩ | ⟨free, rfl, rfl⟩
      · exact ⟨h, fun _ _ => .refl _⟩
      · exact ⟨h.addTable free, fun _ no => nomatch no⟩
  | dropTable name =>
      have wrapped : Completes db ((DocStore.dropTable name).map DatabaseTask.dropping .dropped)
          outcome after := done
      obtain ⟨result, rfl, ended⟩ := wrapped.of_map (fun _ => rfl) fun _ _ => rfl
      rcases TableDrop.completes_cases h ended with ⟨e, rfl, rfl⟩ | ⟨table, found, rfl, rfl⟩
      · exact ⟨h, fun _ _ => .refl _⟩
      · obtain rfl := h.named found
        exact ⟨h.withoutTable found, fun _ no => nomatch no⟩
  | table table request =>
      have wrapped : Completes db ((request.start table).map DatabaseTask.table .table)
          outcome after := done
      obtain ⟨result, rfl, ended⟩ := wrapped.of_map (fun _ => rfl) fun _ _ => rfl
      exact h.tableRequest through ended
  | query asked =>
      have wrapped : Completes db (asked.start.map DatabaseTask.query .query) outcome after := done
      obtain ⟨result, rfl, ended⟩ := wrapped.of_map (fun _ => rfl) fun _ _ => rfl
      have same := ended.sameNames fun task => task.call_reads.isAccess
      exact ⟨h.of_sameNames same, fun _ _ => same⟩

/-! ### One operation after another -/

/-- The databases that operations leave behind, one after another, from a fresh one on. -/
inductive Sequence (config : Config) : Database → Prop
  /-- Nothing has been asked for. -/
  | empty : Sequence config (.empty config)
  /-- One more operation has ended. -/
  | request {db after : Database} {request : DatabaseRequest} {outcome : DatabaseOutcome}
      (before : Sequence config db) (through : request.ThroughCatalog db)
      (done : Completes db request.start outcome after) : Sequence config after

variable {config : Config}

/-- The database after some more operations, each of at most so many calls. -/
def replay? (calls : Nat) : Database → List DatabaseRequest → Option Database
  | db, [] => some db
  | db, request :: rest =>
      if request.ThroughCatalog db then
        match db.finish? calls request.start with
        | some (_, after) => replay? calls after rest
        | none => none
      else none

theorem Sequence.of_replay? {calls : Nat} {requests : List DatabaseRequest}
    (sequence : Sequence config db) (h : replay? calls db requests = some after) :
    Sequence config after := by
  induction requests generalizing db with
  | nil =>
      obtain rfl := Option.some.inj h
      exact sequence
  | cons request rest ih =>
      rw [replay?] at h
      split at h
      · rename_i through
        split at h
        · rename_i outcome mid done
          exact ih (sequence.request through (.of_finish? done)) h
        · cases h
      · cases h

/-- **Catalog, indexes and keyspaces are in step after every operation.** -/
theorem Sequence.inStep (sequence : Sequence config db) : db.InStep := by
  induction sequence with
  | empty => exact inStep_empty config
  | request before through done ih => exact (ih.request through done).1

/-- A table that was made has no documents, no counters and no indexes. -/
theorem InStep.createTable (h : db.InStep) {name : String}
    (done : Completes db (createTable name) (.ok table) after) :
    after.table? name = some table ∧ after.indexesOf table.id = .empty ∧
      (after.backend.store table.documents).slots = .empty := by
  rcases TableCreation.completes_cases done with ⟨e, no, -⟩ | ⟨free, made, rfl⟩
  · cases no
  · obtain rfl := Except.ok.inj made
    rw [h.addTable_eq free]
    refine ⟨(SortedMap.find?_insert _ _ _ _).trans (if_pos rfl), ?_, ?_⟩
    · rw [indexesOf, List.getElem?_concat_length, Option.getD_some]
    · rw [Backend.store, List.getElem?_concat_length, Option.getD_some]
      rfl

/-- **The keyspaces are exactly those of the tables in the catalog and of their registered indexes,
and no two of these share one**, after whatever has been made, written and dropped.  An operation
that fails has changed neither catalog nor indexes nor keyspaces; and a table that is made has no
documents and no indexes, and the first write of every key gets the counter one. -/
theorem Sequence.inStep_spec (sequence : Sequence config db) :
    (∀ name id, db.backend.find? name = some id
      ↔ ∃ owner : Owner, owner.keyspace = name ∧ db.storeOf? owner = some id) ∧
    (∀ owner other id, db.storeOf? owner = some id → db.storeOf? other = some id →
      owner = other) ∧
    (∀ (request : DatabaseRequest) outcome after, request.ThroughCatalog db →
      Completes db request.start outcome after → ∀ e, outcome.failure? = some e →
        after.catalog = db.catalog ∧ after.indexes = db.indexes ∧
          after.backend.keyspaces = db.backend.keyspaces) ∧
    ∀ name table after, Completes db (DocStore.createTable name) (.ok table) after →
      after.table? name = some table ∧ after.count table = 0 ∧
        after.indexesOf table.id = .empty ∧
        ∀ key, (after.backend.store table.documents).slots.find? key = none ∧
          ∀ value, ((after.backend.store table.documents).set key value).1 = 1 := by
  have inStep := sequence.inStep
  refine ⟨fun name id => inStep.iff_storeOf?, fun _ _ _ => inStep.owner_eq, ?_, ?_⟩
  · intro request outcome after through done e failed
    have same := (inStep.request through done).2 e failed
    exact ⟨same.catalog, same.indexes, same.keyspaces⟩
  · intro name table after done
    obtain ⟨there, indexes, slots⟩ := inStep.createTable done
    refine ⟨there, ?_, indexes, fun key => ⟨?_, fun value => ?_⟩⟩
    · rw [count, Store.size, Store.snapshot, slots]
      rfl
    · rw [slots]
      rfl
    · rw [Store.set, slots]
      rfl

/-- A table with a document and an index is dropped and made again: its old store still has the
document, and the new one has nothing. -/
theorem Sequence.inStep_spec_of_recreated :
    ∃ db after table, Sequence .default db ∧ (db.backend.store 0).size = 1 ∧
      Completes db (DocStore.createTable "t") (.ok table) after ∧
      after.table? "t" = some table ∧ after.count table = 0 ∧
      after.indexesOf table.id = .empty ∧
      ∀ key, (after.backend.store table.documents).slots.find? key = none ∧
        ∀ value, ((after.backend.store table.documents).set key value).1 = 1 := by
  let table : Table := ⟨0, "t", 0, Config.default.retry⟩
  have replayed : ((replay? 20 (.empty .default)
      [.createTable "t", .createTable "u",
        .table table (.document (.set "x" (.map [(.string "n", .bool true)]))),
        .table table (.createIndex "i" "n"), .dropTable "t"]).any fun db =>
          (db.backend.store 0).size == 1 &&
            (db.finish? 1 (DocStore.createTable "t")).any fun r => r.1.isOk) = true := by
    decide +kernel
  obtain ⟨db, hs, holds⟩ := (Option.any_eq_true _ _).1 replayed
  have sequence := Sequence.empty.of_replay? hs
  rw [Bool.and_eq_true, beq_iff_eq] at holds
  obtain ⟨⟨result, after⟩, created, ok⟩ := (Option.any_eq_true _ _).1 holds.2
  cases result with
  | error e => cases ok
  | ok made =>
      have done : Completes db (DocStore.createTable "t") (.ok made) after :=
        .of_finish? created
      exact ⟨db, after, made, sequence, holds.1, done,
        (Sequence.inStep_spec sequence).2.2.2 "t" made after done⟩

end Database

end DocStore
