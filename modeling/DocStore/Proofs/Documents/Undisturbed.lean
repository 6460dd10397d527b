/-
Operations on documents that nobody disturbs.

An operation that is alone has the outcome that it has by itself.  It writes its document at most
once, and the upkeep that follows makes the changes of the buckets that the write demands.

* `Database.replaced` — the database after a document was written and its indexes have followed;
* `Database.Redocuments` — a document was written with all that follows, or nothing has happened;
* `DocumentWrite.completes`, `DocumentDelete.completes`, `DocumentUpdate.completes_of_value` — a
  write, a deletion and an update that are alone;
* `DocumentRequest.completes` — **an operation that is alone does what is asked for;**
* `DocumentRequest.start_of_exhausted`, `DocumentRequest.completes_of_exhausted` — an operation that
  has no attempt reads, or has failed already; and it changes nothing.
-/

import DocStore.Proofs.Documents.Effects
import DocStore.Proofs.Index.Filing
import DocStore.Proofs.Index.Undisturbed

set_option autoImplicit false

namespace DocStore

variable {db after : Database} {table : Table} {key : String}

namespace Database

/-- The database after a document was written and its indexes were brought in line. -/
def replaced (db : Database) (table : Table) (key : String) (write : SlotWrite) : Database :=
  (db.perform (write.call table.documents (Utf8.encode key)) none).2.editedAll
    (IndexSync.changes ((db.indexesOf table.id).entries.map (·.2)) key
      (((db.backend.store table.documents).get? (Utf8.encode key)).elim [] Versioned.value)
      (write.value?.getD []))

/-- A document was written, with all that follows, and these are the documents now; or nothing has
happened. -/
def Redocuments (db : Database) (table : Table) (key : String) (store : Store)
    (after : Database) : Prop :=
  store = db.backend.store table.documents ∧ after = db ∨
    ∃ write : SlotWrite,
      write.Accepts ((db.backend.store table.documents).get? (Utf8.encode key)) ∧
        store = write.applied (db.backend.store table.documents) (Utf8.encode key) ∧
        after = db.replaced table key write

end Database

/-- **The upkeep after a write that has gone through.** -/
theorem IndexSync.completes_after (arranged : db.Arranged table)
    (tries : table.retry.maxAttempts ≠ some 0) {write : SlotWrite}
    (accepts : write.Accepts ((db.backend.store table.documents).get? (Utf8.encode key)))
    {old new : Bytes}
    (ho : ((db.backend.store table.documents).get? (Utf8.encode key)).elim [] Versioned.value = old)
    (hn : write.value?.getD [] = new) :
    Completes (db.perform (write.call table.documents (Utf8.encode key)) none).2
      (.waiting (start table key old new
        (write.value?.map fun _ => (db.backend.store table.documents).next (Utf8.encode key)))) ()
      (db.replaced table key write) := by
  obtain ⟨kept, writes⟩ := arranged.perform_document accepts
  have registered : ∀ index ∈ ((db.perform (write.call table.documents (Utf8.encode key))
      none).2.indexesOf table.id).entries.map (·.2), _ := fun index hi =>
    (Database.mem_indexes kept).1 hi
  -- nobody writes the document meanwhile, so that the upkeep finds it at its own counter
  have counter : (((db.perform (write.call table.documents (Utf8.encode key))
      none).2.backend.store table.documents).get? (Utf8.encode key)).map Versioned.counter
      = write.value?.map fun _ => (db.backend.store table.documents).next (Utf8.encode key) := by
    rw [writes.documents, Store.get?_applied, if_pos rfl, Option.map_map]
    rfl
  have done := completes _ table key old new (fun index hi => by
      rw [(registered index hi).retry kept]
      exact tries) (fun index hi => (registered index hi).apart kept) counter
  rw [writes.indexes] at done
  rw [Database.replaced, ho, hn]
  exact done

/-! ### Writing -/

namespace DocumentWrite

/-- There is a plan where the caller expects no other counter. -/
theorem exists_plan {w : DocumentWrite} {stored : Option (Versioned Bytes)}
    (expects : ∀ c, w.expected = some c → stored.map Versioned.counter = some c) :
    ∃ write, w.plan stored = .ok (stored.elim [] Versioned.value, write) ∧
      write.Accepts stored := by
  cases hp : w.plan stored with
  | error e =>
      obtain ⟨-, c, hc, ne⟩ := of_plan_eq_error hp
      exact absurd (expects c hc) ne
  | ok planned =>
      obtain ⟨old, write⟩ := planned
      obtain ⟨accepts, rfl⟩ := accepts_of_plan hp
      exact ⟨write, rfl, accepts⟩

/-- A write that has an attempt begins by reading. -/
theorem start_eq {value : Value} {data : Bytes} (hv : value.encode? = some data)
    (tries : table.retry.maxAttempts ≠ some 0) (expected : Option Counter) :
    start table key value expected = .waiting ⟨table, key, data, expected,
      (table.retry.attempts (Utf8.encode key)).counted, .reading⟩ := by
  unfold start again
  rw [hv]
  simp only [RetryPolicy.begin_attempts tries]

/-- **A write that finds what it expects goes through.** -/
theorem completes (arranged : db.Arranged table) (tries : table.retry.maxAttempts ≠ some 0)
    {value : Value} {data : Bytes} (hv : value.encode? = some data)
    {expected : Option Counter}
    (expects : ∀ c, expected = some c →
      (db.backend.store table.documents).liveCounter? (Utf8.encode key) = some c) :
    ∃ write : SlotWrite,
      write.Accepts ((db.backend.store table.documents).get? (Utf8.encode key)) ∧
        write.value? = some data ∧
        Completes db (start table key value expected)
          (.ok ((db.backend.store table.documents).next (Utf8.encode key)))
          (db.replaced table key write) := by
  rw [start_eq hv tries expected]
  generalize (table.retry.attempts (Utf8.encode key)).counted = attempts
  obtain ⟨write, hp, accepts⟩ :=
    @exists_plan ⟨table, key, data, expected, attempts, .reading⟩ _ expects
  obtain ⟨replies, value, -⟩ := write_of_plan hp
  refine ⟨write, accepts, value, .waits (db.perform_get _ _) ?_⟩
  rw [resume_of_plan rfl hp]
  have performed : db.perform (write.call table.documents (Utf8.encode key)) none
      = (.counter (.ok ((db.backend.store table.documents).next (Utf8.encode key))),
          (db.perform (write.call table.documents (Utf8.encode key)) none).2) :=
    Prod.ext ((congrArg Prod.fst (db.perform_write accepts)).trans (replies _)) rfl
  have upkeep := IndexSync.completes_after arranged tries accepts rfl
    (show write.value?.getD [] = data by rw [value]; rfl)
  rw [value] at upkeep
  refine .waits performed ?_
  have gone : ∀ old counter, Task.resume
      (⟨table, key, data, expected, attempts, .writing old write⟩ : DocumentWrite)
      (.counter (.ok counter))
    = synced ⟨table, key, data, expected, attempts, .writing old write⟩ counter
        (.waiting (IndexSync.start table key old data (some counter))) := fun _ _ => rfl
  rw [gone, synced]
  exact upkeep.map (fun _ => rfl) fun _ _ => rfl

/-- A write that finds another counter than it expects does nothing. -/
theorem completes_of_ne (tries : table.retry.maxAttempts ≠ some 0) {value : Value} {data : Bytes}
    (hv : value.encode? = some data) {expected : Counter}
    (ne : (db.backend.store table.documents).liveCounter? (Utf8.encode key) ≠ some expected) :
    Completes db (start table key value (some expected)) (.error .counterChanged) db := by
  rw [start_eq hv tries]
  refine .waits (db.perform_get _ _) ?_
  cases hs : (db.backend.store table.documents).get? (Utf8.encode key) with
  | none => exact .finished db _
  | some stored =>
      have changed : (some expected).any (· != stored.counter) = true := by
        rw [Store.liveCounter?, hs] at ne
        simpa using fun h : expected = stored.counter => ne (congrArg some h.symm)
      simp only [Task.resume, plan, changed, if_true]
      exact .finished db _

end DocumentWrite

/-! ### Deleting -/

namespace DocumentDelete

/-- A deletion that has an attempt begins by reading. -/
theorem start_eq (key : String) (tries : table.retry.maxAttempts ≠ some 0)
    (expected : Option Counter) :
    start table key expected = .waiting ⟨table, key, expected,
      (table.retry.attempts (Utf8.encode key)).counted, .reading⟩ := by
  unfold start again
  simp only [RetryPolicy.begin_attempts tries]

/-- A document that does not exist is deleted without touching anything. -/
theorem completes_of_missing (tries : table.retry.maxAttempts ≠ some 0) (expected : Option Counter)
    (missing : (db.backend.store table.documents).get? (Utf8.encode key) = none) :
    Completes db (start table key expected) (.ok ()) db := by
  rw [start_eq key tries]
  refine .waits (db.perform_get _ _) ?_
  rw [missing]
  exact .finished db _

/-- A deletion that finds another counter than it expects does nothing. -/
theorem completes_of_ne (tries : table.retry.maxAttempts ≠ some 0) {expected counter : Counter}
    (found : (db.backend.store table.documents).liveCounter? (Utf8.encode key) = some counter)
    (ne : counter ≠ expected) :
    Completes db (start table key (some expected)) (.error .counterChanged) db := by
  rw [start_eq key tries]
  refine .waits (db.perform_get _ _) ?_
  obtain ⟨stored, hs, rfl⟩ := Option.map_eq_some_iff.1 found
  have changed : (some expected).any (· != stored.counter) = true := by simpa using ne.symm
  rw [hs]
  simp only [Task.resume, changed, if_true]
  exact .finished db _

/-- **A deletion that finds what it expects goes through.** -/
theorem completes (arranged : db.Arranged table) (tries : table.retry.maxAttempts ≠ some 0)
    {stored : Versioned Bytes}
    (hs : (db.backend.store table.documents).get? (Utf8.encode key) = some stored)
    {expected : Option Counter} (expects : ∀ c, expected = some c → stored.counter = c) :
    Completes db (start table key expected) (.ok ())
      (db.replaced table key (.erase stored.counter)) := by
  rw [start_eq key tries]
  generalize (table.retry.attempts (Utf8.encode key)).counted = attempts
  have accepts : (SlotWrite.erase stored.counter).Accepts
      ((db.backend.store table.documents).get? (Utf8.encode key)) := congrArg _ hs
  have same : expected.any (· != stored.counter) = false := by
    cases expected with
    | none => rfl
    | some c => simpa using (expects c rfl).symm
  have read : Task.resume (⟨table, key, expected, attempts, .reading⟩ : DocumentDelete)
      (.document (.ok ((db.backend.store table.documents).get? (Utf8.encode key))))
    = .waiting ⟨table, key, expected, attempts, .erasing stored.value stored.counter⟩ := by
    rw [hs]
    simp only [Task.resume, same, Bool.false_eq_true, if_false]
  have performed : db.perform
        ((SlotWrite.erase stored.counter).call table.documents (Utf8.encode key)) none
      = (.done (.ok ()), (db.perform
          ((SlotWrite.erase stored.counter).call table.documents (Utf8.encode key)) none).2) :=
    Prod.ext ((congrArg Prod.fst (db.perform_write accepts)).trans rfl) rfl
  have upkeep := IndexSync.completes_after arranged tries accepts
    (congrArg (Option.elim · [] Versioned.value) hs) rfl
  refine .waits (db.perform_get _ _) ?_
  rw [read]
  refine .waits performed ?_
  have gone : Task.resume (⟨table, key, expected, attempts,
        .erasing stored.value stored.counter⟩ : DocumentDelete) (.done (.ok ()))
    = synced ⟨table, key, expected, attempts, .erasing stored.value stored.counter⟩
        (.waiting (IndexSync.start table key stored.value [] none)) := rfl
  rw [gone, synced]
  exact upkeep.map (fun _ => rfl) fun _ _ => rfl

end DocumentDelete

/-! ### Reading and updating -/

/-- **A document is read as it is.** -/
theorem DocumentDecode.completes (db : Database) (table : Table) (key : String) (shape : Shape) :
    Completes db (table.get key shape)
      (match (db.backend.store table.documents).get? (Utf8.encode key) with
        | some stored => stored.decode shape
        | none => .error .notFound) db := by
  refine .waits (db.perform_get _ _) ?_
  cases hs : (db.backend.store table.documents).get? (Utf8.encode key) with
  | none => exact .finished db _
  | some stored => exact .finished db _

namespace DocumentUpdate

/-- An update that has an attempt begins by reading. -/
theorem start_eq (key : String) (tries : table.retry.maxAttempts ≠ some 0) (modifier : Modifier) :
    start table key modifier = .waiting ⟨table, key, modifier,
      (table.retry.attempts (Utf8.encode key)).counted, .reading⟩ := by
  unfold start again
  simp only [RetryPolicy.begin_attempts tries]

/-- An update goes on after its write. -/
theorem written_eq_andThen (u : DocumentUpdate)
    (progress : Progress DocumentWrite (Except Error Counter)) :
    u.written progress
      = progress.andThen (fun write => { u with stage := .writing write }) fun
          | .ok counter => .finished (.ok counter)
          | .error .counterChanged => u.again
          | .error e => .finished (.error (.store e)) := by
  match progress with
  | .waiting write => rfl
  | .finished (.ok counter) => rfl
  | .finished (.error e) => cases e <;> rfl

variable {modifier : Modifier}

/-- A missing document is not updated. -/
theorem completes_of_missing (tries : table.retry.maxAttempts ≠ some 0)
    (missing : (db.backend.store table.documents).get? (Utf8.encode key) = none) :
    Completes db (start table key modifier) (.error (.store .notFound)) db := by
  rw [start_eq key tries]
  refine .waits (db.perform_get _ _) ?_
  rw [missing]
  exact .finished db _

variable {stored : Versioned Bytes}
  (hs : (db.backend.store table.documents).get? (Utf8.encode key) = some stored)
include hs

/-- A document that has another shape is not updated. -/
theorem completes_of_error (tries : table.retry.maxAttempts ≠ some 0) {e : Error}
    (hd : stored.decode modifier.shape = .error e) :
    Completes db (start table key modifier) (.error (.store e)) db := by
  rw [start_eq key tries]
  refine .waits (db.perform_get _ _) ?_
  rw [hs]
  simp only [Task.resume, hd]
  exact .finished db _

variable {current : Versioned Value} (hd : stored.decode modifier.shape = .ok current)
include hd

/-- An update whose modifier gives up does nothing. -/
theorem completes_of_aborted (tries : table.retry.maxAttempts ≠ some 0) {reason : String}
    (ha : modifier.apply current.value = .error reason) :
    Completes db (start table key modifier) (.error (.aborted reason)) db := by
  rw [start_eq key tries]
  refine .waits (db.perform_get _ _) ?_
  rw [hs]
  simp only [Task.resume, hd]
  refine .waits rfl ?_
  simp only [Task.resume, ha]
  exact .finished db _

/-- **An update whose modifier gives a value ends as the write of this value does.** -/
theorem completes_of_value (tries : table.retry.maxAttempts ≠ some 0) {value : Value}
    (ha : modifier.apply current.value = .ok value) {result : Except Error Counter}
    (kept : result ≠ .error .counterChanged)
    (written : Completes db (table.setIf key value current.counter) result after) :
    Completes db (start table key modifier) (result.mapError .store) after := by
  rw [start_eq key tries]
  generalize (table.retry.attempts (Utf8.encode key)).counted = attempts
  refine .waits (db.perform_get _ _) ?_
  rw [hs]
  simp only [Task.resume, hd]
  refine .waits rfl ?_
  simp only [Task.resume, ha]
  rw [written_eq_andThen]
  refine written.bind (fun _ => rfl) (fun _ _ => written_eq_andThen _ _) ?_
  match result, kept with
  | .ok counter, _ => exact .finished after _
  | .error e, kept =>
      cases e with
      -- the update is alone, so that its write loses no race
      | counterChanged => exact absurd rfl kept
      | _ => exact .finished after _

end DocumentUpdate

/-! ### What is asked for -/

/-- Nothing has happened. -/
theorem Database.redocuments_self (db : Database) (table : Table) (key : String) :
    db.Redocuments table key (db.backend.store table.documents) db :=
  Or.inl ⟨rfl, rfl⟩

/-- **A write that finds what it expects writes what can be encoded.** -/
theorem DocumentWrite.completes_written (arranged : db.Arranged table)
    (tries : table.retry.maxAttempts ≠ some 0) (value : Value)
    {expected : Option Counter}
    (expects : ∀ c, expected = some c →
      (db.backend.store table.documents).liveCounter? (Utf8.encode key) = some c) :
    ∃ after, Completes db (start table key value expected)
        ((db.backend.store table.documents).written key value).1 after ∧
      db.Redocuments table key ((db.backend.store table.documents).written key value).2 after := by
  cases hv : value.encode? with
  | none =>
      refine ⟨db, ?_, ?_⟩
      · simp only [start, Store.written, hv]
        exact .finished db _
      · simp only [Store.written, hv]
        exact db.redocuments_self table key
  | some data =>
      obtain ⟨write, accepts, hw, done⟩ := completes arranged tries hv expects
      have same : (db.backend.store table.documents).written key value
          = (.ok ((db.backend.store table.documents).next (Utf8.encode key)),
              write.applied (db.backend.store table.documents) (Utf8.encode key)) := by
        simp only [Store.written, hv, SlotWrite.applied, hw]
        rfl
      rw [same]
      exact ⟨_, done, Or.inr ⟨write, accepts, rfl, rfl⟩⟩

namespace DocumentTask

/-! An operation that stands for one of the four kinds ends as that one does. -/

theorem completes_reading {progress : Progress DocumentDecode (Except Error (Versioned Value))}
    {result : Except Error (Versioned Value)} (h : Completes db progress result after) :
    Completes db (progress.map reading .read) (.read result) after :=
  h.map (fun _ => rfl) fun _ _ => rfl

theorem completes_writing {progress : Progress DocumentWrite (Except Error Counter)}
    {result : Except Error Counter} (h : Completes db progress result after) :
    Completes db (progress.map writing .written) (.written result) after :=
  h.map (fun _ => rfl) fun _ _ => rfl

theorem completes_deleting {progress : Progress DocumentDelete (Except Error Unit)}
    {result : Except Error Unit} (h : Completes db progress result after) :
    Completes db (progress.map deleting .deleted) (.deleted result) after :=
  h.map (fun _ => rfl) fun _ _ => rfl

theorem completes_updating {progress : Progress DocumentUpdate (Except UpdateError Counter)}
    {result : Except UpdateError Counter} (h : Completes db progress result after) :
    Completes db (progress.map updating .updated) (.updated result) after :=
  h.map (fun _ => rfl) fun _ _ => rfl

end DocumentTask

namespace DocumentRequest

open DocumentTask

/-- A reading, alone. -/
theorem completes_get (db : Database) (table : Table) (key : String) (shape : Shape) :
    Completes db ((get key shape).start table)
      ((get key shape).apply (db.backend.store table.documents)).1 db := by
  have done := completes_reading (DocumentDecode.completes db table key shape)
  cases hs : (db.backend.store table.documents).get? (Utf8.encode key) with
  | none =>
      rw [hs] at done
      simp only [apply, hs]
      exact done
  | some stored =>
      rw [hs] at done
      simp only [apply, hs]
      exact done

variable (arranged : db.Arranged table) (tries : table.retry.maxAttempts ≠ some 0)
include arranged tries

/-- A write at an expected counter, alone. -/
theorem completes_setIf (value : Value) (expected : Counter) :
    ∃ after, Completes db ((setIf key value expected).start table)
        ((setIf key value expected).apply (db.backend.store table.documents)).1 after ∧
      db.Redocuments table key
        ((setIf key value expected).apply (db.backend.store table.documents)).2 after := by
  by_cases lost : value.encode?.isSome ∧
      (db.backend.store table.documents).liveCounter? (Utf8.encode key) ≠ some expected
  · obtain ⟨data, hv⟩ := Option.isSome_iff_exists.1 lost.1
    rw [apply, if_pos lost]
    exact ⟨db, completes_writing (DocumentWrite.completes_of_ne tries hv lost.2),
      db.redocuments_self table key⟩
  · rw [apply, if_neg lost]
    by_cases found : (db.backend.store table.documents).liveCounter? (Utf8.encode key)
      = some expected
    · obtain ⟨after, done, written⟩ := @DocumentWrite.completes_written _ _ _ arranged tries
        value (some expected) fun c hc => found.trans hc
      exact ⟨after, completes_writing done, written⟩
    · -- a value that cannot be encoded fails before the counter is looked at
      have hv : value.encode? = none := by
        by_contra hv
        exact lost ⟨Option.isSome_iff_ne_none.2 hv, found⟩
      refine ⟨db, completes_writing ?_, ?_⟩
      · simp only [DocumentWrite.start, Table.setIf, Store.written, hv]
        exact .finished db _
      · simp only [Store.written, hv]
        exact db.redocuments_self table key

/-- A deletion, alone. -/
theorem completes_delete :
    ∃ after, Completes db ((delete key).start table)
        ((delete key).apply (db.backend.store table.documents)).1 after ∧
      db.Redocuments table key ((delete key).apply (db.backend.store table.documents)).2 after := by
  cases hs : (db.backend.store table.documents).get? (Utf8.encode key) with
  | none =>
      rw [apply, Store.delete_of_get?_eq_none hs]
      exact ⟨db, completes_deleting (DocumentDelete.completes_of_missing tries none hs),
        db.redocuments_self table key⟩
  | some stored =>
      have done := @DocumentDelete.completes _ _ _ arranged tries _ hs none
        fun c expects => absurd expects (Option.some_ne_none c).symm
      refine ⟨_, completes_deleting done, Or.inr ⟨_, ?_, rfl, rfl⟩⟩
      exact congrArg (Option.map Versioned.counter) hs

/-- A deletion at an expected counter, alone. -/
theorem completes_deleteIf (expected : Counter) :
    ∃ after, Completes db ((deleteIf key expected).start table)
        ((deleteIf key expected).apply (db.backend.store table.documents)).1 after ∧
      db.Redocuments table key
        ((deleteIf key expected).apply (db.backend.store table.documents)).2 after := by
  cases hs : (db.backend.store table.documents).get? (Utf8.encode key) with
  | none =>
      simp only [apply, Store.liveCounter?, hs, Option.map_none]
      exact ⟨db, completes_deleting (DocumentDelete.completes_of_missing tries (some expected) hs),
        db.redocuments_self table key⟩
  | some stored =>
      by_cases same : stored.counter = expected
      · have done := @DocumentDelete.completes _ _ _ arranged tries _ hs (some expected)
          fun c hc => same.trans (Option.some.inj hc)
        simp only [apply, Store.liveCounter?, hs, Option.map_some, if_pos same]
        refine ⟨_, completes_deleting done, Or.inr ⟨_, ?_, rfl, rfl⟩⟩
        exact congrArg (Option.map Versioned.counter) hs
      · have found := Store.liveCounter?_of_get? hs
        simp only [apply, Store.liveCounter?, hs, Option.map_some, if_neg same]
        exact ⟨db, completes_deleting (DocumentDelete.completes_of_ne tries found same),
          db.redocuments_self table key⟩

/-- An update, alone. -/
theorem completes_update (modifier : Modifier) :
    ∃ after, Completes db ((update key modifier).start table)
        ((update key modifier).apply (db.backend.store table.documents)).1 after ∧
      db.Redocuments table key
        ((update key modifier).apply (db.backend.store table.documents)).2 after := by
  have quiet := db.redocuments_self table key
  cases hs : (db.backend.store table.documents).get? (Utf8.encode key) with
  | none =>
      simp only [apply, hs]
      exact ⟨db, completes_updating (DocumentUpdate.completes_of_missing tries hs), quiet⟩
  | some stored =>
      cases hd : stored.decode modifier.shape with
      | error e =>
          simp only [apply, hs, hd]
          exact ⟨db, completes_updating (DocumentUpdate.completes_of_error hs tries hd), quiet⟩
      | ok current =>
          cases ha : modifier.apply current.value with
          | error reason =>
              simp only [apply, hs, hd, ha]
              exact ⟨db, completes_updating (DocumentUpdate.completes_of_aborted hs hd tries ha),
                quiet⟩
          | ok value =>
              obtain ⟨after, done, written⟩ := @DocumentWrite.completes_written _ _ _ arranged tries
                value (some current.counter) fun c hc => by
                  rw [← hc, Versioned.counter_of_decode hd]
                  exact Store.liveCounter?_of_get? hs
              -- the write expects the counter that was read, and does not fail for another one
              have kept : ((db.backend.store table.documents).written key value).1
                  ≠ .error .counterChanged := by
                unfold Store.written
                split <;> simp
              simp only [apply, hs, hd, ha]
              exact ⟨after, completes_updating
                (DocumentUpdate.completes_of_value hs hd tries ha kept done), written⟩

/-- **An operation that is alone does what is asked for.** -/
theorem completes (request : DocumentRequest) :
    ∃ after, Completes db (request.start table)
        (request.apply (db.backend.store table.documents)).1 after ∧
      db.Redocuments table request.key (request.apply (db.backend.store table.documents)).2
        after := by
  cases request with
  | get key shape =>
      have rests : ((get key shape).apply (db.backend.store table.documents)).2
          = db.backend.store table.documents := by
        simp only [apply]
        split <;> rfl
      exact ⟨db, completes_get db table key shape, .inl ⟨rests, rfl⟩⟩
  | set key value =>
      obtain ⟨after, done, written⟩ :=
        @DocumentWrite.completes_written _ _ _ arranged tries value none
          fun c expects => absurd expects (Option.some_ne_none c).symm
      exact ⟨after, completes_writing done, written⟩
  | setIf key value expected => exact completes_setIf arranged tries value expected
  | delete key => exact completes_delete arranged tries
  | deleteIf key expected => exact completes_deleteIf arranged tries expected
  | update key modifier => exact completes_update arranged tries modifier

omit arranged tries

/-- An operation that has no attempt reads, or it has failed already. -/
theorem start_of_exhausted (exhausted : table.retry.maxAttempts = some 0)
    (request : DocumentRequest) :
    (∃ key shape, request = .get key shape) ∨
      ∃ outcome : DocumentOutcome, outcome.isFailure = true ∧
        request.start table = .finished outcome := by
  have lost : ∀ key, ∃ e, (table.retry.attempts key).begin = .error e := by
    intro key
    unfold RetryPolicy.attempts Attempts.begin
    rw [exhausted]
    exact ⟨_, rfl⟩
  have written : ∀ key value expected, ∃ e,
      DocumentWrite.start table key value expected = .finished (.error e) := by
    intro key value expected
    obtain ⟨e, he⟩ := lost (Utf8.encode key)
    unfold DocumentWrite.start DocumentWrite.again
    cases value.encode? with
    | none => exact ⟨_, rfl⟩
    | some data => exact ⟨e, by simp only [he]⟩
  have deleted : ∀ key expected, ∃ e,
      DocumentDelete.start table key expected = .finished (.error e) := by
    intro key expected
    obtain ⟨e, he⟩ := lost (Utf8.encode key)
    exact ⟨e, by simp only [DocumentDelete.start, DocumentDelete.again, he]⟩
  cases request with
  | get key shape => exact .inl ⟨key, shape, rfl⟩
  | set key value =>
      obtain ⟨e, ended⟩ := written key value none
      exact .inr ⟨.written (.error e), rfl,
        congrArg (Progress.map writing DocumentOutcome.written) ended⟩
  | setIf key value expected =>
      obtain ⟨e, ended⟩ := written key value (some expected)
      exact .inr ⟨.written (.error e), rfl,
        congrArg (Progress.map writing DocumentOutcome.written) ended⟩
  | delete key =>
      obtain ⟨e, ended⟩ := deleted key none
      exact .inr ⟨.deleted (.error e), rfl,
        congrArg (Progress.map deleting DocumentOutcome.deleted) ended⟩
  | deleteIf key expected =>
      obtain ⟨e, ended⟩ := deleted key (some expected)
      exact .inr ⟨.deleted (.error e), rfl,
        congrArg (Progress.map deleting DocumentOutcome.deleted) ended⟩
  | update key modifier =>
      obtain ⟨e, he⟩ := lost (Utf8.encode key)
      have ended : table.update key modifier = .finished (.error (.store e)) := by
        simp only [Table.update, DocumentUpdate.start, DocumentUpdate.again, he]
      exact .inr ⟨.updated (.error (.store e)), rfl,
        congrArg (Progress.map updating DocumentOutcome.updated) ended⟩

/-- An operation that has no attempt changes nothing. -/
theorem completes_of_exhausted (db : Database) (exhausted : table.retry.maxAttempts = some 0)
    (request : DocumentRequest) :
    ∃ outcome, Completes db (request.start table) outcome db := by
  rcases start_of_exhausted exhausted request with ⟨key, shape, rfl⟩ | ⟨outcome, -, ended⟩
  · exact ⟨_, completes_get db table key shape⟩
  · exact ⟨outcome, .of_eq ended⟩

end DocumentRequest

end DocStore
