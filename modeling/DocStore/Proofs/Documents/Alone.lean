/-
Operations on documents that are alone with a storage that may fail.

Nobody writes the document between the calls of such an operation.  So what it has planned is
planned for what is stored, also when it writes; and a call that fails makes it fail, or start over
with the same document before it.  An operation that succeeds has therefore done what it does when
nothing fails, and it has done so in one of two ways: it had nothing to write, or its write went
through, and what remains of it is the upkeep of the indexes.  What becomes of each slot of an index
is then told by the upkeep.

* `IndexSync.following` — the upkeep that follows a write;
* `Turns` — what a call of an operation comes to that has not written its document;
* `DocumentWrite.Ready`, `DocumentDelete.Ready`, `DocumentUpdate.Ready`, `DocumentTask.Ready` — an
  operation that has planned nothing yet, or has planned for what is stored now;
* `DocumentTask.turns_resume` — **such an operation goes on so, or makes its write;**
* `Ends.rests_or_writes` — **an operation that has succeeded had nothing to write, or what remained
  after its write was the upkeep;**
* `DocumentRequest.slots_of_ends` — the documents and the slots of the indexes after it.
-/

import DocStore.Proofs.Documents.Disturbed
import DocStore.Proofs.Index.Filing
import DocStore.Proofs.Index.Slots

set_option autoImplicit false

namespace DocStore

variable {db after : Database} {table : Table} {key : String}

/-- The upkeep of the indexes that follows a write of a document. -/
def IndexSync.following (db : Database) (table : Table) (key : String) (write : SlotWrite) :
    IndexSync :=
  start table key
    (((db.backend.store table.documents).get? (Utf8.encode key)).elim [] Versioned.value)
    (write.value?.getD [])
    (write.value?.map fun _ => (db.backend.store table.documents).next (Utf8.encode key))

/-! ### One call -/

section Turns

variable {τ σ α β : Type} [Task τ α] [Task σ β]

/-- What a call of an operation comes to that has not written its document: nothing has changed, and
the operation goes on or ends; or the document is written, and the operation stands for the upkeep
that follows, with its report settled. -/
inductive Turns (db : Database) (table : Table) (key : String) (ready : τ → Prop) (idle : α → Prop)
    (makes : SlotWrite → α → Prop) (after : Database) (progress : Progress τ α) : Prop
  /-- Nothing has changed. -/
  | idle (same : after = db) (goes : progress.Satisfies ready idle)
  /-- The document is written. -/
  | writes (write : SlotWrite) (report : α) (wrap : IndexSync → τ)
      (tries : table.retry.maxAttempts ≠ some 0)
      (accepts : write.Accepts ((db.backend.store table.documents).get? (Utf8.encode key)))
      (makes : makes write report)
      (written : after = (db.perform (write.call table.documents (Utf8.encode key)) none).2)
      (call : ∀ sync, Task.call (wrap sync) = Task.call sync)
      (resume : ∀ sync reply, Task.resume (wrap sync) reply
        = (Task.resume sync reply).map wrap fun _ => report)
      (goes : progress = .waiting (wrap (.following db table key write)))

variable {ready : τ → Prop} {idle : α → Prop} {makes : SlotWrite → α → Prop}
  {progress : Progress τ α}

/-- The same of the operation that stands for another one. -/
theorem Turns.map (h : Turns db table key ready idle makes after progress) (wrap : τ → σ)
    (convert : α → β) (call : ∀ t, Task.call (wrap t) = Task.call t)
    (resume : ∀ t reply, Task.resume (wrap t) reply = (Task.resume t reply).map wrap convert)
    {ready' : σ → Prop} {idle' : β → Prop} {makes' : SlotWrite → β → Prop}
    (hr : ∀ t, ready t → ready' (wrap t)) (hi : ∀ a, idle a → idle' (convert a))
    (hm : ∀ write a, makes write a → makes' write (convert a)) :
    Turns db table key ready' idle' makes' after (progress.map wrap convert) := by
  cases h with
  | idle same goes => exact .idle same (Progress.satisfies_map.2 (goes.imp hr hi))
  | writes write report inner tries accepts made written call' resume' goes =>
      subst goes
      refine .writes write (convert report) (wrap ∘ inner) tries accepts (hm _ _ made) written
        (fun sync => (call _).trans (call' sync)) (fun sync reply => ?_) rfl
      rw [Function.comp_apply, resume, resume']
      cases Task.resume sync reply <;> rfl

end Turns

/-! ### Writing -/

namespace DocumentWrite

/-- A write that has planned nothing yet, or has planned for what is stored now. -/
structure Ready (db : Database) (table : Table) (key : String) (data : Bytes)
    (expected : Option Counter) (w : DocumentWrite) : Prop where
  ofTable : w.table = table
  ofKey : w.key = key
  ofData : w.data = data
  ofExpected : w.expected = expected
  tries : table.retry.maxAttempts ≠ some 0
  planned : ∀ old write, w.stage = .writing old write →
    w.plan ((db.backend.store table.documents).get? (Utf8.encode key)) = .ok (old, write)
  unsynced : ∀ counter sync, w.stage ≠ .syncing counter sync

/-- What a write of these bytes comes to: they are written, at the expected counter if there is one,
and the counter is reported that they get. -/
structure Makes (documents : Store) (key : String) (data : Bytes) (expected : Option Counter)
    (write : SlotWrite) (result : Except Error Counter) : Prop where
  value : write.value? = some data
  found : ∀ c, expected = some c → documents.liveCounter? (Utf8.encode key) = some c
  report : result = .ok (documents.next (Utf8.encode key))

variable {data : Bytes} {expected : Option Counter} {w : DocumentWrite}

/-- These are the documents after a write, and its report. -/
theorem Makes.written_eq {documents : Store} {write : SlotWrite} {result : Except Error Counter}
    (h : Makes documents key data expected write result) {value : Value}
    (hv : value.encode? = some data) :
    documents.written key value = (result, write.applied documents (Utf8.encode key)) := by
  rw [h.report, SlotWrite.applied, h.value]
  simp only [Store.written, hv]
  rfl

/-- Another attempt begins, or the write has failed. -/
theorem ready_again (h : w.Ready db table key data expected) :
    w.again.Satisfies (Ready db table key data expected) fun a => ∃ e, a = .error e := by
  unfold again
  cases w.attempts.begin with
  | ok attempts =>
      exact ⟨h.ofTable, h.ofKey, h.ofData, h.ofExpected, h.tries, by simp, by simp⟩
  | error e => exact ⟨e, rfl⟩

/-- A write begins ready. -/
theorem ready_start (db : Database) (table : Table) (key : String) {value : Value}
    (hv : value.encode? = some data) (expected : Option Counter) :
    (start table key value expected).Satisfies (Ready db table key data expected)
      fun a => ∃ e, a = .error e := by
  simp only [start, again, hv]
  cases hb : (table.retry.attempts (Utf8.encode key)).begin with
  | ok attempts =>
      exact ⟨rfl, rfl, rfl, rfl, RetryPolicy.tries_of_begin hb, by simp, by simp⟩
  | error e => exact ⟨e, rfl⟩

/-- **A write that is ready stays so, or goes through.** -/
theorem turns_resume (h : w.Ready db table key data expected) (fault : Option Error) :
    Turns db table key (Ready db table key data expected) (fun a => ∃ e, a = .error e)
      (Makes (db.backend.store table.documents) key data expected)
      (db.perform (Task.call w) fault).2
      (Task.resume w (db.perform (Task.call w) fault).1) := by
  obtain ⟨owner, name, bytes, wanted, attempts, stage⟩ := w
  have h' := h
  obtain ⟨rfl, rfl, rfl, rfl, tries, planned, unsynced⟩ := h
  cases stage with
  | reading =>
      rw [show Task.call (⟨owner, name, bytes, wanted, attempts, .reading⟩ : DocumentWrite)
        = .get owner.documents (Utf8.encode name) from rfl]
      rcases db.perform_get_cases owner.documents (Utf8.encode name) fault with ⟨e, hp⟩ | hp
      · rw [hp]
        exact .idle rfl ⟨e, rfl⟩
      · rw [hp]
        refine .idle rfl ?_
        cases plan : plan ⟨owner, name, bytes, wanted, attempts, .reading⟩
            ((db.backend.store owner.documents).get? (Utf8.encode name)) with
        | error e =>
            rw [resume_of_plan_eq_error rfl plan]
            exact ⟨e, rfl⟩
        | ok next =>
            obtain ⟨old, write⟩ := next
            rw [resume_of_plan rfl plan]
            refine ⟨rfl, rfl, rfl, rfl, tries, ?_, by simp⟩
            rintro _ _ same
            cases same
            exact plan
  | writing old write =>
      have plan := planned old write rfl
      obtain ⟨replies, value, accepts_iff⟩ := write_of_plan plan
      rw [show Task.call
          (⟨owner, name, bytes, wanted, attempts, .writing old write⟩ : DocumentWrite)
        = write.call owner.documents (Utf8.encode name) from rfl]
      cases fault with
      | some e =>
          rw [db.perform_write_some, replies]
          refine .idle rfl ?_
          rcases resume_failed (w := ⟨owner, name, bytes, wanted, attempts, .writing old write⟩) rfl
            e with ⟨e', failed⟩ | again
          · rw [failed]
            exact ⟨e', rfl⟩
          · rw [again]
            exact ready_again h'
      | none =>
          obtain ⟨accepts, was⟩ := accepts_of_plan plan
          have reply := congrArg Prod.fst (db.perform_write accepts)
          rw [reply, replies]
          refine .writes write (.ok ((db.backend.store owner.documents).next (Utf8.encode name)))
            (fun sync => ⟨owner, name, bytes, wanted, attempts, .syncing _ sync⟩) tries accepts
            ⟨value, fun c hc => (accepts_iff c hc _).1 accepts, rfl⟩ rfl (fun _ => rfl)
            (fun _ _ => rfl) ?_
          rw [IndexSync.following, value, ← was]
          rfl
  | syncing counter sync => exact absurd rfl (unsynced counter sync)

end DocumentWrite

/-! ### Deleting -/

namespace DocumentDelete

/-- A deletion that has planned nothing yet, or has planned for what is stored now. -/
structure Ready (db : Database) (table : Table) (key : String) (expected : Option Counter)
    (d : DocumentDelete) : Prop where
  ofTable : d.table = table
  ofKey : d.key = key
  ofExpected : d.expected = expected
  tries : table.retry.maxAttempts ≠ some 0
  planned : ∀ old counter, d.stage = .erasing old counter →
    (db.backend.store table.documents).get? (Utf8.encode key) = some ⟨old, counter⟩ ∧
      ∀ c, expected = some c → c = counter
  unsynced : ∀ sync, d.stage ≠ .syncing sync

/-- What a deletion comes to: the document is deleted, at the expected counter if there is one. -/
structure Makes (documents : Store) (key : String) (expected : Option Counter) (write : SlotWrite)
    (result : Except Error Unit) : Prop where
  value : write.value? = none
  found : ∃ counter, documents.liveCounter? (Utf8.encode key) = some counter ∧
    ∀ c, expected = some c → c = counter
  report : result = .ok ()

variable {expected : Option Counter} {d : DocumentDelete} {missing : Prop}

/-- Another attempt begins, or the deletion has failed. -/
theorem ready_again (h : d.Ready db table key expected) :
    d.again.Satisfies (Ready db table key expected) (Idle missing) := by
  unfold again
  cases d.attempts.begin with
  | ok attempts => exact ⟨h.ofTable, h.ofKey, h.ofExpected, h.tries, by simp, by simp⟩
  | error e => exact idle_error e

/-- A deletion begins ready. -/
theorem ready_start (db : Database) (table : Table) (key : String) (expected : Option Counter) :
    (start table key expected).Satisfies (Ready db table key expected) (Idle missing) := by
  simp only [start, again]
  cases hb : (table.retry.attempts (Utf8.encode key)).begin with
  | ok attempts => exact ⟨rfl, rfl, rfl, RetryPolicy.tries_of_begin hb, by simp, by simp⟩
  | error e => exact idle_error e

/-- **A deletion that is ready stays so, or goes through.** -/
theorem turns_resume (h : d.Ready db table key expected) (fault : Option Error) :
    Turns db table key (Ready db table key expected)
      (Idle ((db.backend.store table.documents).get? (Utf8.encode key) = none))
      (Makes (db.backend.store table.documents) key expected)
      (db.perform (Task.call d) fault).2
      (Task.resume d (db.perform (Task.call d) fault).1) := by
  obtain ⟨owner, name, wanted, attempts, stage⟩ := d
  have h' := h
  obtain ⟨rfl, rfl, rfl, tries, planned, unsynced⟩ := h
  cases stage with
  | reading =>
      rw [show Task.call (⟨owner, name, wanted, attempts, .reading⟩ : DocumentDelete)
        = .get owner.documents (Utf8.encode name) from rfl]
      rcases db.perform_get_cases owner.documents (Utf8.encode name) fault with ⟨e, hp⟩ | hp
      · rw [hp]
        exact .idle rfl (idle_error e)
      · rw [hp]
        refine .idle rfl ?_
        cases hs : (db.backend.store owner.documents).get? (Utf8.encode name) with
        | none => exact fun _ => rfl
        | some stored =>
            rcases resume_found (d := ⟨owner, name, wanted, attempts, .reading⟩) rfl stored with
              ⟨c, -, -, failed⟩ | ⟨agrees, goes⟩
            · rw [failed]
              exact idle_error _
            · rw [goes]
              refine ⟨rfl, rfl, rfl, tries, ?_, by simp⟩
              rintro _ _ same
              cases same
              exact ⟨hs, agrees⟩
  | erasing old counter =>
      obtain ⟨stored, agrees⟩ := planned old counter rfl
      rw [show Task.call (⟨owner, name, wanted, attempts, .erasing old counter⟩ : DocumentDelete)
        = (SlotWrite.erase counter).call owner.documents (Utf8.encode name) from rfl]
      cases fault with
      | some e =>
          rw [db.perform_write_some]
          refine .idle rfl ?_
          change (Task.resume (⟨owner, name, wanted, attempts, .erasing old counter⟩ :
            DocumentDelete) (.done (.error e))).Satisfies _ _
          rcases resume_failed (d := ⟨owner, name, wanted, attempts, .erasing old counter⟩) rfl e
            with ⟨e', failed⟩ | again
          · rw [failed]
            exact idle_error e'
          · rw [again]
            exact ready_again h'
      | none =>
          have accepts : (SlotWrite.erase counter).Accepts
              ((db.backend.store owner.documents).get? (Utf8.encode name)) :=
            congrArg (Option.map Versioned.counter) stored
          have reply := congrArg Prod.fst (db.perform_write accepts)
          rw [reply]
          refine .writes (.erase counter) (.ok ())
            (fun sync => ⟨owner, name, wanted, attempts, .syncing sync⟩) tries accepts
            ⟨rfl, ⟨counter, Store.liveCounter?_of_get? stored, agrees⟩, rfl⟩ rfl (fun _ => rfl)
            (fun _ _ => rfl) ?_
          rw [IndexSync.following, stored]
          rfl
  | syncing sync => exact absurd rfl (unsynced sync)

end DocumentDelete

/-! ### What is asked for -/

namespace DocumentRequest

/-- An operation that ends with this, and has written nothing, has failed, or it has the outcome and
leaves the documents that it does by itself. -/
def Rests (request : DocumentRequest) (documents : Store) (outcome : DocumentOutcome) : Prop :=
  outcome.isFailure = false → request.apply documents = (outcome, documents)

/-- An operation that makes this write has the outcome and leaves the documents that it does by
itself. -/
def Makes (request : DocumentRequest) (documents : Store) (write : SlotWrite)
    (outcome : DocumentOutcome) : Prop :=
  request.apply documents = (outcome, write.applied documents (Utf8.encode request.key))

variable {request : DocumentRequest} {documents : Store} {value : Value} {data : Bytes}

theorem rests_of_isFailure {outcome : DocumentOutcome} (h : outcome.isFailure = true) :
    request.Rests documents outcome := by
  intro success
  rw [h] at success
  cases success

/-- A write that is asked for at an expected counter makes its write where it is found. -/
theorem makes_setIf (hd : value.encode? = some data) {expected : Counter} {write : SlotWrite}
    {result : Except Error Counter}
    (h : DocumentWrite.Makes documents key data (some expected) write result) :
    (setIf key value expected).Makes documents write (.written result) := by
  have found := h.found expected rfl
  simp only [Makes, apply, found, ne_eq, not_true, and_false, if_false, h.written_eq hd]
  rfl

/-- A deletion that is asked for at an expected counter makes its write where it is found. -/
theorem makes_deleteIf {expected : Counter} {write : SlotWrite} {result : Except Error Unit}
    (h : DocumentDelete.Makes documents key (some expected) write result) :
    (deleteIf key expected).Makes documents write (.deleted result) := by
  obtain ⟨value, ⟨counter, found, agrees⟩, rfl⟩ := h
  obtain rfl := agrees expected rfl
  simp only [Makes, apply, found, if_true, SlotWrite.applied, value]
  rfl

/-- A deletion that has found nothing has nothing to delete. -/
theorem rests_of_missing {result : Except Error Unit}
    (h : DocumentDelete.Idle (documents.get? (Utf8.encode key) = none) result) :
    (delete key).Rests documents (.deleted result) ∧
      ∀ expected, (deleteIf key expected).Rests documents (.deleted result) := by
  cases result with
  | error e => exact ⟨rests_of_isFailure rfl, fun _ => rests_of_isFailure rfl⟩
  | ok made =>
      have missing := h rfl
      refine ⟨fun _ => ?_, fun _ _ => ?_⟩
      · rw [apply, Store.delete_of_get?_eq_none missing]
      · simp only [apply, Store.liveCounter?, missing, Option.map_none]

end DocumentRequest

/-! ### Updating -/

namespace DocumentUpdate

/-- What an update has read, and reads as long as nobody writes. -/
structure Reads (documents : Store) (key : String) (modifier : Modifier)
    (stored : Versioned Bytes) (current : Versioned Value) : Prop where
  found : documents.get? (Utf8.encode key) = some stored
  decoded : stored.decode modifier.shape = .ok current

/-- An update that has read nothing yet, or has read what is stored now, and whose write is
ready. -/
structure Ready (db : Database) (table : Table) (key : String) (modifier : Modifier)
    (u : DocumentUpdate) : Prop where
  ofTable : u.table = table
  ofKey : u.key = key
  ofModifier : u.modifier = modifier
  modifying : ∀ current, u.stage = .modifying current → ∃ stored,
    Reads (db.backend.store table.documents) key modifier stored current
  writing : ∀ write, u.stage = .writing write → ∃ stored current value data,
    Reads (db.backend.store table.documents) key modifier stored current ∧
      modifier.apply current.value = .ok value ∧ value.encode? = some data ∧
      write.Ready db table key data (some stored.counter)

variable {modifier : Modifier} {u : DocumentUpdate}

/-- Another attempt begins, or the update has failed. -/
theorem ready_again (db : Database) (ofTable : u.table = table) (ofKey : u.key = key)
    (ofModifier : u.modifier = modifier) :
    u.again.Satisfies (Ready db table key modifier) fun a => ∃ e, a = .error e := by
  unfold again
  cases u.attempts.begin with
  | ok attempts => exact ⟨ofTable, ofKey, ofModifier, by simp, by simp⟩
  | error e => exact ⟨_, rfl⟩

variable {stored : Versioned Bytes} {current : Versioned Value} {value : Value} {data : Bytes}
  (reads : Reads (db.backend.store table.documents) key modifier stored current)
  (hv : modifier.apply current.value = .ok value) (hd : value.encode? = some data)
include reads hv hd

/-- An update whose write is ready is ready, too; one whose write has failed fails or starts
over. -/
theorem ready_written (h : u.Ready db table key modifier)
    {progress : Progress DocumentWrite (Except Error Counter)}
    (ready : progress.Satisfies (DocumentWrite.Ready db table key data (some stored.counter))
      fun a => ∃ e, a = .error e) :
    (u.written progress).Satisfies (Ready db table key modifier) fun a => ∃ e, a = .error e := by
  cases progress with
  | waiting write =>
      refine ⟨h.ofTable, h.ofKey, h.ofModifier, by simp, ?_⟩
      rintro _ same
      cases same
      exact ⟨stored, current, value, data, reads, hv, hd, ready⟩
  | finished result =>
      obtain ⟨e, rfl⟩ := ready
      cases e with
      | counterChanged => exact ready_again db h.ofTable h.ofKey h.ofModifier
      | _ => exact ⟨_, rfl⟩

/-- An update makes the write that its own write makes. -/
theorem turns_written (h : u.Ready db table key modifier)
    {progress : Progress DocumentWrite (Except Error Counter)}
    (turns : Turns db table key (DocumentWrite.Ready db table key data (some stored.counter))
      (fun a => ∃ e, a = .error e)
      (DocumentWrite.Makes (db.backend.store table.documents) key data (some stored.counter))
      after progress) :
    Turns db table key (Ready db table key modifier) (fun a => ∃ e, a = .error e)
      (fun write result => (DocumentRequest.update key modifier).Makes
        (db.backend.store table.documents) write (.updated result)) after (u.written progress) := by
  cases turns with
  | idle same goes => exact .idle same (ready_written reads hv hd h goes)
  | writes write report wrap tries accepts makes written call resume goes =>
      subst goes
      have own := makes.written_eq hd
      have told := makes.report
      refine .writes write (.ok ((db.backend.store table.documents).next (Utf8.encode key)))
        (fun sync => { u with stage := .writing (wrap sync) }) tries accepts ?_ written
        (fun sync => call sync) (fun sync reply => ?_) rfl
      · simp only [DocumentRequest.Makes, DocumentRequest.apply, reads.found, reads.decoded, hv,
          own, told]
        rfl
      · change u.written (Task.resume (wrap sync) reply) = _
        rw [resume, told]
        cases Task.resume sync reply <;> rfl

omit hv hd

/-- An update that applies its modifier goes on with its write, unless there is nothing to be
written. -/
theorem ready_modified (h : u.Ready db table key modifier) (modifying : u.stage = .modifying current)
    (result : Except Error Unit) :
    (Task.resume u (.done result)).Satisfies (Ready db table key modifier)
      fun a => ∃ e, a = .error e := by
  obtain ⟨owner, name, change, attempts, stage⟩ := u
  obtain rfl : stage = .modifying current := modifying
  have h' := h
  obtain ⟨rfl, rfl, rfl, -, -⟩ := h
  simp only [Task.resume]
  cases hv : change.apply current.value with
  | error reason => exact ⟨_, rfl⟩
  | ok value =>
      cases hd : value.encode? with
      | none =>
          simp only [Table.setIf, DocumentWrite.start, hd]
          exact ⟨_, rfl⟩
      | some data =>
          have begun := DocumentWrite.ready_start db owner name hd (some stored.counter)
          refine ready_written reads hv hd h' ?_
          rw [Table.setIf, Versioned.counter_of_decode reads.decoded]
          exact begun

omit reads

/-- **An update that is ready stays so, or its write goes through.** -/
theorem turns_resume (h : u.Ready db table key modifier) (fault : Option Error) :
    Turns db table key (Ready db table key modifier) (fun a => ∃ e, a = .error e)
      (fun write result => (DocumentRequest.update key modifier).Makes
        (db.backend.store table.documents) write (.updated result))
      (db.perform (Task.call u) fault).2
      (Task.resume u (db.perform (Task.call u) fault).1) := by
  obtain ⟨owner, name, change, attempts, stage⟩ := u
  have h' := h
  obtain ⟨rfl, rfl, rfl, modifying, writing⟩ := h
  cases stage with
  | reading =>
      rw [show Task.call (⟨owner, name, change, attempts, .reading⟩ : DocumentUpdate)
        = .get owner.documents (Utf8.encode name) from rfl]
      rcases db.perform_get_cases owner.documents (Utf8.encode name) fault with ⟨e, hp⟩ | hp
      · rw [hp]
        exact .idle rfl ⟨_, rfl⟩
      · rw [hp]
        refine .idle rfl ?_
        cases hs : (db.backend.store owner.documents).get? (Utf8.encode name) with
        | none => exact ⟨_, rfl⟩
        | some stored =>
            simp only [Task.resume]
            cases hd : stored.decode change.shape with
            | error e => exact ⟨_, rfl⟩
            | ok current =>
                refine ⟨rfl, rfl, rfl, ?_, by simp⟩
                rintro _ same
                cases same
                exact ⟨stored, hs, hd⟩
  | modifying current =>
      obtain ⟨stored, reads⟩ := modifying current rfl
      -- the modifier is applied without any access to the storage, so that nothing can fail
      have applied : db.perform (Task.call
          (⟨owner, name, change, attempts, .modifying current⟩ : DocumentUpdate)) fault
          = (.done (.ok ()), db) := by
        cases fault <;> rfl
      rw [applied]
      exact .idle rfl (ready_modified reads h' rfl _)
  | writing write =>
      obtain ⟨stored, current, value, data, reads, hv, hd, ready⟩ := writing write rfl
      exact turns_written reads hv hd h' (DocumentWrite.turns_resume ready fault)

end DocumentUpdate

/-! ### Any operation -/

namespace DocumentTask

/-- An operation that was begun by this request, and has planned nothing yet, or has planned for
what is stored now. -/
def Ready (db : Database) (table : Table) : DocumentRequest → DocumentTask → Prop
  | .get key shape, .reading t => t = ⟨⟨table, key⟩, shape⟩
  | .set key value, .writing w => ∃ data, value.encode? = some data ∧ w.Ready db table key data none
  | .setIf key value expected, .writing w =>
      ∃ data, value.encode? = some data ∧ w.Ready db table key data (some expected)
  | .delete key, .deleting d => d.Ready db table key none
  | .deleteIf key expected, .deleting d => d.Ready db table key (some expected)
  | .update key modifier, .updating u => u.Ready db table key modifier
  | _, _ => False

variable {request : DocumentRequest} {task : DocumentTask}

/-- A document is read by one call, and nothing is written. -/
theorem turns_get (shape : Shape) (fault : Option Error) :
    Turns db table key (Ready db table (.get key shape))
      ((DocumentRequest.get key shape).Rests (db.backend.store table.documents))
      ((DocumentRequest.get key shape).Makes (db.backend.store table.documents))
      (db.perform (.get table.documents (Utf8.encode key)) fault).2
      (Task.resume (DocumentTask.reading ⟨⟨table, key⟩, shape⟩)
        (db.perform (.get table.documents (Utf8.encode key)) fault).1) := by
  rcases db.perform_get_cases table.documents (Utf8.encode key) fault with ⟨e, hp⟩ | hp
  · rw [hp]
    exact .idle rfl (DocumentRequest.rests_of_isFailure rfl)
  · rw [hp]
    refine .idle rfl ?_
    cases hs : (db.backend.store table.documents).get? (Utf8.encode key) with
    | none => exact DocumentRequest.rests_of_isFailure rfl
    | some stored =>
        intro success
        simp only [DocumentRequest.apply, hs]
        rfl

/-- **An operation that is ready stays so, or makes its write.** -/
theorem turns_resume (h : task.Ready db table request) (fault : Option Error) :
    Turns db table request.key (Ready db table request)
      (request.Rests (db.backend.store table.documents))
      (request.Makes (db.backend.store table.documents))
      (db.perform (Task.call task) fault).2
      (Task.resume task (db.perform (Task.call task) fault).1) := by
  have failed : ∀ (request : DocumentRequest) (a : Except Error Counter), (∃ e, a = .error e) →
      request.Rests (db.backend.store table.documents) (.written a) := by
    rintro request _ ⟨e, rfl⟩
    exact DocumentRequest.rests_of_isFailure rfl
  cases task with
  | reading t =>
      cases request <;> try exact h.elim
      rename_i key shape
      obtain rfl := h
      exact turns_get shape fault
  | writing w =>
      cases request <;> try exact h.elim
      · obtain ⟨data, hd, ready⟩ := h
        refine (DocumentWrite.turns_resume ready fault).map DocumentTask.writing
          DocumentOutcome.written (fun _ => rfl) (fun _ _ => rfl)
          (fun v hv => ⟨data, hd, hv⟩) (failed _) fun write result made => ?_
        simp only [DocumentRequest.Makes, DocumentRequest.apply, made.written_eq hd]
        rfl
      · obtain ⟨data, hd, ready⟩ := h
        exact (DocumentWrite.turns_resume ready fault).map DocumentTask.writing
          DocumentOutcome.written (fun _ => rfl) (fun _ _ => rfl) (fun v hv => ⟨data, hd, hv⟩)
          (failed _) fun _ _ made => DocumentRequest.makes_setIf hd made
  | deleting d =>
      cases request <;> try exact h.elim
      · refine (DocumentDelete.turns_resume h fault).map DocumentTask.deleting
          DocumentOutcome.deleted (fun _ => rfl) (fun _ _ => rfl) (fun _ hd => hd)
          (fun _ idle => (DocumentRequest.rests_of_missing idle).1) fun write result made => ?_
        simp only [DocumentRequest.Makes, DocumentRequest.apply, SlotWrite.applied, made.value,
          made.report]
        rfl
      · exact (DocumentDelete.turns_resume h fault).map DocumentTask.deleting
          DocumentOutcome.deleted (fun _ => rfl) (fun _ _ => rfl) (fun _ hd => hd)
          (fun _ idle => (DocumentRequest.rests_of_missing idle).2 _)
          fun _ _ made => DocumentRequest.makes_deleteIf made
  | updating u =>
      cases request <;> try exact h.elim
      refine (DocumentUpdate.turns_resume h fault).map DocumentTask.updating
        DocumentOutcome.updated (fun _ => rfl) (fun _ _ => rfl) (fun _ hu => hu) ?_
        fun _ _ made => made
      rintro _ ⟨e, rfl⟩
      exact DocumentRequest.rests_of_isFailure rfl

end DocumentTask

/-- An operation begins ready, or it has failed. -/
theorem DocumentRequest.ready_start (db : Database) (table : Table) (request : DocumentRequest) :
    (request.start table).Satisfies (DocumentTask.Ready db table request)
      (request.Rests (db.backend.store table.documents)) := by
  have written : ∀ (request : DocumentRequest) (key : String) (value : Value)
      (expected : Option Counter), (DocumentWrite.start table key value expected).Satisfies
        (fun w => ∃ data, value.encode? = some data ∧ w.Ready db table key data expected)
        fun a => request.Rests (db.backend.store table.documents) (.written a) := by
    intro request key value expected
    cases hd : value.encode? with
    | none =>
        simp only [DocumentWrite.start, hd]
        exact rests_of_isFailure rfl
    | some data =>
        refine (DocumentWrite.ready_start db table key hd expected).imp
          (fun w hw => ⟨data, rfl, hw⟩) ?_
        rintro _ ⟨e, rfl⟩
        exact rests_of_isFailure rfl
  cases request with
  | get key shape => exact rfl
  | set key value => exact Progress.satisfies_map.2 (written _ key value none)
  | setIf key value expected =>
      exact Progress.satisfies_map.2 (written _ key value (some expected))
  | delete key =>
      exact Progress.satisfies_map.2 ((DocumentDelete.ready_start db table key none).imp
        (fun _ hd => hd) fun _ idle => (rests_of_missing idle).1)
  | deleteIf key expected =>
      exact Progress.satisfies_map.2 ((DocumentDelete.ready_start db table key (some expected)).imp
        (fun _ hd => hd) fun _ idle => (rests_of_missing idle).2 expected)
  | update key modifier =>
      refine Progress.satisfies_map.2 ((DocumentUpdate.ready_again db rfl rfl rfl).imp
        (fun _ hu => hu) ?_)
      rintro _ ⟨e, rfl⟩
      exact rests_of_isFailure rfl

/-! ### Until the end -/

section Ends

variable {faults : Database → Call → Option Error → Prop} {steps : List Footprint}
  {outcome : DocumentOutcome} {request : DocumentRequest}

/-- **An operation that has succeeded had nothing to write, or what remained after its write was the
upkeep.** -/
theorem Ends.rests_or_writes {progress : Progress DocumentTask DocumentOutcome}
    (ends : Ends (.alone DocumentTask faults) db progress steps outcome after)
    (ready : progress.Satisfies (DocumentTask.Ready db table request)
      (request.Rests (db.backend.store table.documents))) :
    request.Rests (db.backend.store table.documents) outcome ∧ after = db ∨
      ∃ write later, table.retry.maxAttempts ≠ some 0 ∧
        write.Accepts ((db.backend.store table.documents).get? (Utf8.encode request.key)) ∧
        request.Makes (db.backend.store table.documents) write outcome ∧
        Ends (.alone IndexSync faults)
          (db.perform (write.call table.documents (Utf8.encode request.key)) none).2
          (.waiting (.following db table request.key write)) later () after := by
  -- by induction on the calls, of which those before the write leave the database as it is
  induction ends with
  | finished db outcome => exact .inl ⟨ready, rfl⟩
  | @waiting db seen after task now fault steps outcome meanwhile varied possible rest ih =>
      obtain rfl : seen = db := meanwhile
      obtain rfl : now = task := varied
      cases DocumentTask.turns_resume ready fault with
      | idle same goes =>
          rw [same] at ih
          exact ih goes
      | writes write report wrap tries accepts makes written call resume goes =>
          rw [goes, written] at rest
          have mapped : Ends (.alone DocumentTask faults) _
            (Progress.map wrap (fun _ : Unit => report)
              (.waiting (.following seen table request.key write))) steps outcome after := rest
          obtain ⟨_, rfl, upkeep⟩ := mapped.of_alone_map call resume
          exact .inr ⟨write, _, tries, accepts, makes, upkeep⟩

/-- The upkeep of the indexes leaves the documents alone until it ends. -/
theorem Ends.documents_of_alone {sync : IndexSync}
    (ends : Ends (.alone IndexSync faults) db (.waiting sync) steps () after)
    (holds : db.Holds table) (apart : sync.ApartFrom table) :
    after.backend.store table.documents = db.backend.store table.documents := by
  refine ends.alone_satisfies
    (P := fun now (s : IndexSync) => now.Holds table ∧ s.ApartFrom table ∧
      now.backend.store table.documents = db.backend.store table.documents)
    (Q := fun now _ => now.backend.store table.documents = db.backend.store table.documents)
    ?_ ⟨holds, apart, rfl⟩
  rintro now s fault ⟨held, own, same⟩ -
  obtain ⟨spares, goes⟩ := IndexSync.spares_resume held own fault
  have kept := spares.trans same
  exact goes.imp (fun _ next => ⟨held.perform fault s.call_isAccess, next, kept⟩) fun _ _ => kept

/-- The bytes of a document before an operation on it, and after it. -/
def DocumentRequest.versions (request : DocumentRequest) (documents : Store) : Bytes × Bytes :=
  ((documents.get? (Utf8.encode request.key)).elim [] Versioned.value,
    ((request.apply documents).2.get? (Utf8.encode request.key)).elim [] Versioned.value)

/-- **The documents and the slots of the indexes after an operation that has succeeded**: the
documents are those that it leaves by itself, and each slot is as the change of the document
demands, if the faults do not hit the calls on it or if it cannot be decoded. -/
theorem DocumentRequest.slots_of_ends (arranged : db.Arranged table)
    (ends : Ends (.alone DocumentTask faults) db (request.start table) steps outcome after)
    (success : outcome.isFailure = false) :
    request.apply (db.backend.store table.documents)
        = (outcome, after.backend.store table.documents) ∧
      ∀ index indexKey, db.Registered table index →
        FaultsSpare faults index.buckets indexKey ∨
          (db.backend.store index.buckets).bucket? indexKey = none →
        after.slot? index.buckets indexKey
          = Bucket.slotAfter index.buckets indexKey
              (IndexSync.changes ((db.indexesOf table.id).entries.map (·.2)) request.key
                (request.versions (db.backend.store table.documents)).1
                (request.versions (db.backend.store table.documents)).2)
              (db.slot? index.buckets indexKey) := by
  rcases ends.rests_or_writes (request.ready_start db table) with
    ⟨rests, rfl⟩ | ⟨write, later, tries, accepts, makes, upkeep⟩
  · have own := rests success
    refine ⟨own, fun index indexKey hi _ => ?_⟩
    -- the document stays, so that nothing is demanded of any bucket
    rw [versions, own]
    exact (IndexSync.slotAfter_changes_of_iff arranged hi Iff.rfl).symm
  · obtain ⟨arranged', writes⟩ := arranged.perform_document accepts
    have counter : (((db.perform (write.call table.documents (Utf8.encode request.key))
        none).2.backend.store table.documents).get? (Utf8.encode request.key)).map Versioned.counter
        = write.value?.map fun _ =>
            (db.backend.store table.documents).next (Utf8.encode request.key) := by
      rw [writes.documents, Store.get?_applied, if_pos rfl, Option.map_map]
      rfl
    have new : (request.versions (db.backend.store table.documents)).2 = write.value?.getD [] := by
      rw [versions, show request.apply _ = _ from makes, Store.get?_applied, if_pos rfl]
      cases write.value? <;> rfl
    have slots : ∀ index indexKey, db.Registered table index →
        (db.perform (write.call table.documents (Utf8.encode request.key)) none).2.slot?
          index.buckets indexKey = db.slot? index.buckets indexKey := by
      intro index indexKey hi
      rw [Database.slot?, writes.buckets index hi]
      rfl
    have documents := upkeep.documents_of_alone arranged'.holds
      (IndexSync.apartFrom_start _ _ _ _ _)
    refine ⟨?_, fun index indexKey hi sure => ?_⟩
    · rw [documents, writes.documents]
      exact makes
    · rw [← slots index indexKey hi]
      have along := IndexSync.slot_of_ends tries
        ⟨arranged', rfl, rfl, sure.imp_right fun undecodable => by
          rw [slots index indexKey hi]
          exact undecodable⟩ counter upkeep
      rw [along, writes.indexes, new]
      rfl

end Ends

end DocStore
