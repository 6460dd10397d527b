/-
What an operation on a document does among others that disturb it.

Whatever others do to the database between the calls of an operation, and whichever of its calls
fail, the operation writes its document at most once.  A call of an operation that has not written
yet either changes nothing or is that write (`Footprint.Leads`), and what comes after the write
concerns the indexes alone and cannot fail the operation any more.  So a failure tells that nothing
has been changed, and a counter that is returned is that of the one write.

* `DocumentWrite.Unwritten`, `DocumentDelete.Unwritten`, `DocumentUpdate.Unwritten`,
  `DocumentTask.Unwritten` — an operation that has not written its document yet;
* `DocumentWrite.Wrote`, `DocumentDelete.Wrote`, `DocumentUpdate.Wrote`, `DocumentTask.Wrote` — an
  operation that has written it;
* `DocumentOutcome.Idle`, `DocumentOutcome.Tells` — what is reported of no write, and of a write;
* `DocumentTask.leads_resume`, `DocumentTask.wrote_resume` — what a call of each does;
* `DocumentTask.amid` — others that disturb an operation as they like;
* `DocumentRequest.all_or_nothing` — **an operation that fails has changed nothing, and one that
  succeeds has written its document once.**
-/

import DocStore.Proofs.Documents.Effects
import DocStore.Proofs.Run.Disturbed

set_option autoImplicit false

namespace DocStore

/-! ### Calls -/

/-- What a call of an operation comes to that has not written yet: it changes nothing, and the
operation goes on or ends with a result of no write; or it writes the slot of a key. -/
inductive Footprint.Leads {τ α : Type} (step : Footprint) (id : StoreId) (key : Bytes)
    (unwritten : τ → Prop) (idle : α → Prop) (wrote : Counter → τ → Prop)
    (tells : Counter → α → Prop) (progress : Progress τ α) : Prop
  /-- Nothing has changed. -/
  | idle (same : step.Idle) (goes : progress.Satisfies unwritten idle)
  /-- The slot is written. -/
  | writes {counter : Counter} (writes : step.Writes id key counter)
      (goes : progress.Satisfies (wrote counter) (tells counter))

/-- The same of the operation that stands for another one. -/
theorem Footprint.Leads.map {τ σ α β : Type} {step : Footprint} {id : StoreId} {key : Bytes}
    {unwritten : τ → Prop} {idle : α → Prop} {wrote : Counter → τ → Prop}
    {tells : Counter → α → Prop} {progress : Progress τ α}
    (h : step.Leads id key unwritten idle wrote tells progress) (wrap : τ → σ) (convert : α → β)
    {unwritten' : σ → Prop} {idle' : β → Prop} {wrote' : Counter → σ → Prop}
    {tells' : Counter → β → Prop} (hu : ∀ t, unwritten t → unwritten' (wrap t))
    (hi : ∀ a, idle a → idle' (convert a)) (hw : ∀ c t, wrote c t → wrote' c (wrap t))
    (ht : ∀ c a, tells c a → tells' c (convert a)) :
    step.Leads id key unwritten' idle' wrote' tells' (progress.map wrap convert) := by
  cases h with
  | idle same goes => exact .idle same (Progress.satisfies_map.2 (goes.imp hu hi))
  | writes writes goes => exact .writes writes (Progress.satisfies_map.2 (goes.imp (hw _) (ht _)))

/-- The upkeep of indexes that starts after a write stays apart from the documents. -/
theorem IndexSync.apartFrom_start (table : Table) (document : String) (old new : Bytes)
    (written : Option Counter) : (start table document old new written).ApartFrom table :=
  ⟨rfl, trivial⟩

/-- The upkeep of indexes leaves the documents alone, and goes on so. -/
theorem IndexSync.spares_resume {db : Database} {table : Table} (holds : db.Holds table)
    {sync : IndexSync} (h : sync.ApartFrom table) (fault : Option Error) :
    Footprint.Spares ⟨db, (db.perform (Task.call sync) fault).2⟩ table.documents ∧
      (Task.resume sync (db.perform (Task.call sync) fault).1).Satisfies (ApartFrom table)
        fun _ => True :=
  ⟨db.store_perform_of_spares fault holds.stored (call_spares h), apartFrom_resume holds h fault⟩

/-! ### Writing -/

namespace DocumentWrite

/-- A write that has not gone through. -/
structure Unwritten (table : Table) (key : String) (w : DocumentWrite) : Prop where
  ofTable : w.table = table
  ofKey : w.key = key
  replies : ∀ old write, w.stage = .writing old write →
    ∀ result, write.reply result = .counter result
  unsynced : ∀ counter sync, w.stage ≠ .syncing counter sync

/-- A write that has gone through at a counter. -/
def Wrote (table : Table) (counter : Counter) (w : DocumentWrite) : Prop :=
  ∃ sync, w.stage = .syncing counter sync ∧ sync.ApartFrom table

variable {db : Database} {table : Table} {key : String} {w : DocumentWrite}

/-- Another attempt begins, or the write has failed. -/
theorem unwritten_again (ofTable : w.table = table) (ofKey : w.key = key) :
    w.again.Satisfies (Unwritten table key) fun a => ∃ e, a = .error e := by
  unfold again
  cases w.attempts.begin with
  | ok attempts => exact ⟨ofTable, ofKey, by simp, by simp⟩
  | error e => exact ⟨e, rfl⟩

/-- A write that begins has not gone through. -/
theorem unwritten_start (table : Table) (key : String) (value : Value)
    (expected : Option Counter) :
    (start table key value expected).Satisfies (Unwritten table key)
      fun a => ∃ e, a = .error e := by
  unfold start
  cases value.encode? with
  | some data => exact unwritten_again rfl rfl
  | none => exact ⟨.encode, rfl⟩

/-- A conditional write that does not go through fails the operation, or starts it over. -/
theorem unwritten_failed (h : w.Unwritten table key) {old : Bytes} {write : SlotWrite}
    (writing : w.stage = .writing old write) (e : Error) :
    (Task.resume w (.counter (.error e))).Satisfies (Unwritten table key)
      fun a => ∃ e, a = .error e := by
  rcases resume_failed writing e with ⟨e', failed⟩ | again
  · rw [failed]
    exact ⟨e', rfl⟩
  · rw [again]
    exact unwritten_again h.ofTable h.ofKey

/-- **A call of a write that has not gone through changes nothing, or it is the write.** -/
theorem leads_resume (holds : db.Holds table) (h : w.Unwritten table key) (fault : Option Error) :
    let performed := db.perform (Task.call w) fault
    Footprint.Leads ⟨db, performed.2⟩ table.documents (Utf8.encode key) (Unwritten table key)
      (fun a => ∃ e, a = .error e) (Wrote table) (fun c a => a = .ok c)
      (Task.resume w performed.1) := by
  intro performed
  obtain ⟨owner, name, data, expected, attempts, stage⟩ := w
  have h' := h
  obtain ⟨rfl, rfl, replies, unsynced⟩ := h
  cases stage with
  | reading =>
      have read : performed = db.perform (.get owner.documents (Utf8.encode name)) fault := rfl
      rcases db.perform_get_cases owner.documents (Utf8.encode name) fault with ⟨e, hp⟩ | hp
      · rw [read, hp]
        exact .idle rfl ⟨e, rfl⟩
      · rw [read, hp]
        refine .idle rfl ?_
        cases hplan : plan ⟨owner, name, data, expected, attempts, .reading⟩
            ((db.backend.store owner.documents).get? (Utf8.encode name)) with
        | ok next =>
            obtain ⟨old, write⟩ := next
            rw [resume_of_plan rfl hplan]
            refine ⟨rfl, rfl, ?_, by simp⟩
            rintro _ _ same
            cases same
            exact (write_of_plan hplan).1
        | error e =>
            rw [resume_of_plan_eq_error rfl hplan]
            exact ⟨e, rfl⟩
  | writing old write =>
      have wrote : performed
        = db.perform (write.call owner.documents (Utf8.encode name)) fault := rfl
      rcases db.perform_write_cases write holds.stored fault with
        ⟨e, hp⟩ | ⟨counter, after, hp, writes⟩
      · rw [wrote, hp, replies old write rfl]
        exact .idle rfl (unwritten_failed h' rfl e)
      · rw [wrote, hp, replies old write rfl]
        exact .writes writes ⟨_, rfl, IndexSync.apartFrom_start _ _ _ _ _⟩
  | syncing counter sync => exact absurd rfl (unsynced counter sync)

/-- A write that has gone through leaves the documents alone, and succeeds. -/
theorem wrote_resume (holds : db.Holds table) {counter : Counter} (h : w.Wrote table counter)
    (fault : Option Error) :
    let performed := db.perform (Task.call w) fault
    Footprint.Spares ⟨db, performed.2⟩ table.documents ∧
      (Task.resume w performed.1).Satisfies (Wrote table counter) fun a => a = .ok counter := by
  obtain ⟨owner, name, data, expected, attempts, stage⟩ := w
  obtain ⟨sync, rfl, apart⟩ := h
  obtain ⟨spares, goes⟩ := IndexSync.spares_resume holds apart fault
  exact ⟨spares, Progress.satisfies_map.2 (goes.imp (fun s hs => ⟨s, rfl, hs⟩) fun _ _ => rfl)⟩

end DocumentWrite

/-! ### Deleting -/

namespace DocumentDelete

/-- A deletion that has not gone through. -/
structure Unwritten (table : Table) (key : String) (d : DocumentDelete) : Prop where
  ofTable : d.table = table
  ofKey : d.key = key
  unsynced : ∀ sync, d.stage ≠ .syncing sync

/-- A deletion that has gone through. -/
def Wrote (table : Table) (d : DocumentDelete) : Prop :=
  ∃ sync, d.stage = .syncing sync ∧ sync.ApartFrom table

/-- What a deletion reports that has deleted nothing: a failure, or that the document is missing,
where it is. -/
def Idle (missing : Prop) (result : Except Error Unit) : Prop :=
  result = .ok () → missing

variable {db : Database} {table : Table} {key : String} {d : DocumentDelete} {missing : Prop}

theorem idle_error (e : Error) : Idle missing (.error e) := by
  intro ok
  cases ok

/-- Another attempt begins, or the deletion has failed. -/
theorem unwritten_again (ofTable : d.table = table) (ofKey : d.key = key) :
    d.again.Satisfies (Unwritten table key) (Idle missing) := by
  unfold again
  cases d.attempts.begin with
  | ok attempts => exact ⟨ofTable, ofKey, by simp⟩
  | error e => exact idle_error e

/-- A conditional deletion that does not go through fails the operation, or starts it over. -/
theorem unwritten_failed (h : d.Unwritten table key) {old : Bytes} {counter : Counter}
    (erasing : d.stage = .erasing old counter) (e : Error) :
    (Task.resume d (.done (.error e))).Satisfies (Unwritten table key) (Idle missing) := by
  rcases resume_failed erasing e with ⟨e', failed⟩ | again
  · rw [failed]
    exact idle_error e'
  · rw [again]
    exact unwritten_again h.ofTable h.ofKey

/-- **A call of a deletion that has not gone through changes nothing, or it is the deletion.** -/
theorem leads_resume (holds : db.Holds table) (h : d.Unwritten table key) (fault : Option Error) :
    let performed := db.perform (Task.call d) fault
    Footprint.Leads ⟨db, performed.2⟩ table.documents (Utf8.encode key) (Unwritten table key)
      (Idle ((db.backend.store table.documents).get? (Utf8.encode key) = none))
      (fun _ => Wrote table) (fun _ a => a = .ok ()) (Task.resume d performed.1) := by
  intro performed
  obtain ⟨owner, name, expected, attempts, stage⟩ := d
  have h' := h
  obtain ⟨rfl, rfl, unsynced⟩ := h
  cases stage with
  | reading =>
      have read : performed = db.perform (.get owner.documents (Utf8.encode name)) fault := rfl
      rcases db.perform_get_cases owner.documents (Utf8.encode name) fault with ⟨e, hp⟩ | hp
      · rw [read, hp]
        exact .idle rfl (idle_error e)
      · rw [read, hp]
        refine .idle rfl ?_
        cases hs : (db.backend.store owner.documents).get? (Utf8.encode name) with
        | none => exact fun _ => rfl
        | some stored =>
            rcases resume_found (d := ⟨owner, name, expected, attempts, .reading⟩) rfl stored with
              ⟨c, -, -, failed⟩ | ⟨-, goes⟩
            · rw [failed]
              exact idle_error _
            · rw [goes]
              exact ⟨rfl, rfl, by simp⟩
  | erasing old counter =>
      have erased : performed = db.perform
        ((SlotWrite.erase counter).call owner.documents (Utf8.encode name)) fault := rfl
      rcases db.perform_write_cases (.erase counter) holds.stored fault with
        ⟨e, hp⟩ | ⟨next, after, hp, writes⟩
      · rw [erased, hp]
        exact .idle rfl (unwritten_failed h' rfl e)
      · rw [erased, hp]
        exact .writes writes ⟨_, rfl, IndexSync.apartFrom_start _ _ _ _ _⟩
  | syncing sync => exact absurd rfl (unsynced sync)

/-- A deletion that has gone through leaves the documents alone, and succeeds. -/
theorem wrote_resume (holds : db.Holds table) (h : d.Wrote table) (fault : Option Error) :
    let performed := db.perform (Task.call d) fault
    Footprint.Spares ⟨db, performed.2⟩ table.documents ∧
      (Task.resume d performed.1).Satisfies (Wrote table) fun a => a = .ok () := by
  obtain ⟨owner, name, expected, attempts, stage⟩ := d
  obtain ⟨sync, rfl, apart⟩ := h
  obtain ⟨spares, goes⟩ := IndexSync.spares_resume holds apart fault
  exact ⟨spares, Progress.satisfies_map.2 (goes.imp (fun s hs => ⟨s, rfl, hs⟩) fun _ _ => rfl)⟩

end DocumentDelete

/-! ### Updating -/

namespace DocumentUpdate

/-- An update whose write has not gone through. -/
structure Unwritten (table : Table) (key : String) (u : DocumentUpdate) : Prop where
  ofTable : u.table = table
  ofKey : u.key = key
  writing : ∀ write, u.stage = .writing write → write.Unwritten table key

/-- An update whose write has gone through at a counter. -/
def Wrote (table : Table) (counter : Counter) (u : DocumentUpdate) : Prop :=
  ∃ write, u.stage = .writing write ∧ write.Wrote table counter

variable {db : Database} {table : Table} {key : String} {u : DocumentUpdate}

/-- Another attempt begins, or the update has failed. -/
theorem unwritten_again (ofTable : u.table = table) (ofKey : u.key = key) :
    u.again.Satisfies (Unwritten table key) fun a => ∃ e, a = .error e := by
  unfold again
  cases u.attempts.begin with
  | ok attempts => exact ⟨ofTable, ofKey, by simp⟩
  | error e => exact ⟨_, rfl⟩

/-- The write goes on, or it has failed, which fails the update or starts it over. -/
theorem unwritten_written (ofTable : u.table = table) (ofKey : u.key = key)
    {progress : Progress DocumentWrite (Except Error Counter)}
    (h : progress.Satisfies (DocumentWrite.Unwritten table key) fun a => ∃ e, a = .error e) :
    (u.written progress).Satisfies (Unwritten table key) fun a => ∃ e, a = .error e := by
  cases progress with
  | waiting write =>
      refine ⟨ofTable, ofKey, ?_⟩
      rintro _ same
      cases same
      exact h
  | finished result =>
      obtain ⟨e, rfl⟩ := h
      by_cases changed : e = .counterChanged
      · subst changed
        exact unwritten_again ofTable ofKey
      · have failed : u.written (.finished (.error e)) = .finished (.error (.store e)) := by
          unfold written
          split <;> simp_all
        rw [failed]
        exact ⟨_, rfl⟩

/-- The write has gone through, and the update succeeds with it. -/
theorem wrote_written (u : DocumentUpdate) {counter : Counter}
    {progress : Progress DocumentWrite (Except Error Counter)}
    (h : progress.Satisfies (DocumentWrite.Wrote table counter) fun a => a = .ok counter) :
    (u.written progress).Satisfies (Wrote table counter) fun a => a = .ok counter := by
  cases progress with
  | waiting write => exact ⟨write, rfl, h⟩
  | finished result =>
      obtain rfl : result = .ok counter := h
      rfl

/-- **A call of an update that has not gone through changes nothing, or it is its write.** -/
theorem leads_resume (holds : db.Holds table) (h : u.Unwritten table key) (fault : Option Error) :
    let performed := db.perform (Task.call u) fault
    Footprint.Leads ⟨db, performed.2⟩ table.documents (Utf8.encode key) (Unwritten table key)
      (fun a => ∃ e, a = .error e) (Wrote table) (fun c a => a = .ok c)
      (Task.resume u performed.1) := by
  intro performed
  obtain ⟨owner, name, modifier, attempts, stage⟩ := u
  obtain ⟨rfl, rfl, writing⟩ := h
  cases stage with
  | reading =>
      have read : performed = db.perform (.get owner.documents (Utf8.encode name)) fault := rfl
      rcases db.perform_get_cases owner.documents (Utf8.encode name) fault with ⟨e, hp⟩ | hp
      · rw [read, hp]
        exact .idle rfl ⟨_, rfl⟩
      · rw [read, hp]
        refine .idle rfl ?_
        cases (db.backend.store owner.documents).get? (Utf8.encode name) with
        | none => exact ⟨_, rfl⟩
        | some stored =>
            simp only [Task.resume]
            cases stored.decode modifier.shape with
            | ok current => exact ⟨rfl, rfl, by simp⟩
            | error e => exact ⟨_, rfl⟩
  | modifying current =>
      -- the modifier is applied without any access to the storage, so that nothing can fail
      have applied : performed = (.done (.ok ()), db) := by
        cases fault <;> rfl
      rw [applied]
      refine .idle rfl ?_
      simp only [Task.resume]
      cases modifier.apply current.value with
      | error reason => exact ⟨_, rfl⟩
      | ok value => exact unwritten_written rfl rfl (DocumentWrite.unwritten_start _ _ _ _)
  | writing write =>
      cases DocumentWrite.leads_resume holds (writing write rfl) fault with
      | idle same goes => exact .idle same (unwritten_written rfl rfl goes)
      | writes writes goes => exact .writes writes (wrote_written _ goes)

/-- An update that has gone through leaves the documents alone, and succeeds. -/
theorem wrote_resume (holds : db.Holds table) {counter : Counter} (h : u.Wrote table counter)
    (fault : Option Error) :
    let performed := db.perform (Task.call u) fault
    Footprint.Spares ⟨db, performed.2⟩ table.documents ∧
      (Task.resume u performed.1).Satisfies (Wrote table counter) fun a => a = .ok counter := by
  obtain ⟨owner, name, modifier, attempts, stage⟩ := u
  obtain ⟨write, rfl, wrote⟩ := h
  obtain ⟨spares, goes⟩ := DocumentWrite.wrote_resume holds wrote fault
  exact ⟨spares, wrote_written _ goes⟩

end DocumentUpdate

/-! ### Any operation -/

namespace DocumentOutcome

/-- What an operation reports that has written nothing: what it has read, a failure, or that a
document to be deleted is missing, where it is. -/
def Idle (missing : Prop) : DocumentOutcome → Prop
  | .read _ => True
  | .written result => ∃ e, result = .error e
  | .deleted result => DocumentDelete.Idle missing result
  | .updated result => ∃ e, result = .error e

/-- What an operation reports that has written its document at a counter. -/
def Tells (counter : Counter) : DocumentOutcome → Prop
  | .read _ => False
  | .written result => result = .ok counter
  | .deleted result => result = .ok ()
  | .updated result => result = .ok counter

/-- The counter that is returned. -/
def counter? : DocumentOutcome → Option Counter
  | .written (.ok counter) => some counter
  | .updated (.ok counter) => some counter
  | _ => none

variable {outcome : DocumentOutcome} {counter : Counter} {missing : Prop}

/-- A failure tells of no write. -/
theorem Tells.isFailure (h : outcome.Tells counter) : outcome.isFailure = false := by
  cases outcome with
  | read result => exact h.elim
  | written result => rw [show result = .ok counter from h]; rfl
  | deleted result => rw [show result = .ok () from h]; rfl
  | updated result => rw [show result = .ok counter from h]; rfl

/-- The counter that is returned is that of the write. -/
theorem Tells.eq_of_counter? (h : outcome.Tells counter) {returned : Counter}
    (hr : outcome.counter? = some returned) : returned = counter := by
  cases outcome with
  | read result => exact h.elim
  | written result =>
      rw [show result = .ok counter from h] at hr
      exact (Option.some.inj hr).symm
  | deleted result => cases hr
  | updated result =>
      rw [show result = .ok counter from h] at hr
      exact (Option.some.inj hr).symm

/-- No counter is returned without a write. -/
theorem Idle.counter? (h : outcome.Idle missing) : outcome.counter? = none := by
  cases outcome with
  | read result => rfl
  | written result =>
      obtain ⟨e, rfl⟩ := h
      rfl
  | deleted result => rfl
  | updated result =>
      obtain ⟨e, rfl⟩ := h
      rfl

end DocumentOutcome

namespace DocumentTask

/-- An operation on a document that has not written it. -/
def Unwritten (table : Table) (key : String) : DocumentTask → Prop
  | .reading t => t.read = ⟨table, key⟩
  | .writing w => w.Unwritten table key
  | .deleting d => d.Unwritten table key
  | .updating u => u.Unwritten table key

/-- An operation on a document that has written it, and is going to report this. -/
def Wrote (table : Table) (report : DocumentOutcome) : DocumentTask → Prop
  | .reading _ => False
  | .writing w => ∃ counter, report = .written (.ok counter) ∧ w.Wrote table counter
  | .deleting d => report = .deleted (.ok ()) ∧ d.Wrote table
  | .updating u => ∃ counter, report = .updated (.ok counter) ∧ u.Wrote table counter

/-- The same operation, but for what its modifier gives, which may differ from one attempt to the
next. -/
def Varies (task now : DocumentTask) : Prop :=
  now = task ∨ ∃ u modifier, task = .updating u ∧ modifier.shape = u.modifier.shape ∧
    now = .updating { u with modifier }

/-- Others disturb an operation as they like, as long as the table stays; any call may fail, or be
told that it has lost a race; and a modifier may give something else each time. -/
def amid (table : Table) : Disturbance DocumentTask where
  others before after := before.Holds table → after.Holds table
  faults _ _ _ := True
  varies := Varies

instance (table : Table) (db : Database) (call : Call) (fault : Option Error) :
    Decidable ((amid table).faults db call fault) :=
  inferInstanceAs (Decidable True)

variable {db : Database} {table : Table} {key : String} {task now : DocumentTask}
  {report : DocumentOutcome}

theorem Unwritten.varies (h : task.Unwritten table key) (varied : task.Varies now) :
    now.Unwritten table key := by
  rcases varied with rfl | ⟨u, modifier, rfl, -, rfl⟩
  · exact h
  · exact ⟨h.ofTable, h.ofKey, h.writing⟩

theorem Wrote.varies (h : task.Wrote table report) (varied : task.Varies now) :
    now.Wrote table report := by
  rcases varied with rfl | ⟨u, modifier, rfl, -, rfl⟩
  · exact h
  · exact h

/-- **A call of an operation that has not written its document changes nothing, or it is the
write.** -/
theorem leads_resume (holds : db.Holds table) (h : task.Unwritten table key)
    (fault : Option Error) :
    let performed := db.perform (Task.call task) fault
    Footprint.Leads ⟨db, performed.2⟩ table.documents (Utf8.encode key) (Unwritten table key)
      (DocumentOutcome.Idle ((db.backend.store table.documents).get? (Utf8.encode key) = none))
      (fun c t => ∃ report, report.Tells c ∧ t.Wrote table report) DocumentOutcome.Tells
      (Task.resume task performed.1) := by
  intro performed
  cases task with
  | reading t =>
      obtain ⟨read, shape⟩ := t
      obtain rfl : read = ⟨table, key⟩ := h
      have read : performed = db.perform (.get table.documents (Utf8.encode key)) fault := rfl
      rcases db.perform_get_cases table.documents (Utf8.encode key) fault with ⟨e, hp⟩ | hp
      · rw [read, hp]
        exact .idle rfl trivial
      · rw [read, hp]
        refine .idle rfl ?_
        cases (db.backend.store table.documents).get? (Utf8.encode key) <;> trivial
  | writing w =>
      exact (DocumentWrite.leads_resume holds h fault).map DocumentTask.writing
        DocumentOutcome.written (fun _ h => h) (fun _ h => h)
        (fun c _ hw => ⟨.written (.ok c), rfl, c, rfl, hw⟩) fun _ _ h => h
  | deleting d =>
      exact (DocumentDelete.leads_resume holds h fault).map DocumentTask.deleting
        DocumentOutcome.deleted (fun _ h => h) (fun _ h => h)
        (fun _ _ hw => ⟨.deleted (.ok ()), rfl, rfl, hw⟩) fun _ _ h => h
  | updating u =>
      exact (DocumentUpdate.leads_resume holds h fault).map DocumentTask.updating
        DocumentOutcome.updated (fun _ h => h) (fun _ h => h)
        (fun c _ hw => ⟨.updated (.ok c), rfl, c, rfl, hw⟩) fun _ _ h => h

/-- An operation that has just written its document is going to report one thing. -/
theorem reports_of_wrote {counter : Counter} {progress : Progress DocumentTask DocumentOutcome}
    (h : progress.Satisfies (fun t => ∃ report, report.Tells counter ∧ t.Wrote table report)
      (DocumentOutcome.Tells counter)) :
    ∃ report, report.Tells counter ∧ progress.Satisfies (Wrote table report) (· = report) := by
  cases progress with
  | waiting task => exact h
  | finished report => exact ⟨report, h, rfl⟩

/-- **An operation that has written its document leaves the documents alone, and reports it.** -/
theorem wrote_resume (holds : db.Holds table) (h : task.Wrote table report)
    (fault : Option Error) :
    let performed := db.perform (Task.call task) fault
    Footprint.Spares ⟨db, performed.2⟩ table.documents ∧
      (Task.resume task performed.1).Satisfies (Wrote table report) fun a => a = report := by
  cases task with
  | reading t => exact h.elim
  | writing w =>
      obtain ⟨counter, rfl, wrote⟩ := h
      obtain ⟨spares, goes⟩ := DocumentWrite.wrote_resume holds wrote fault
      exact ⟨spares, Progress.satisfies_map.2
        (goes.imp (fun _ hw => ⟨counter, rfl, hw⟩) fun _ ha => congrArg _ ha)⟩
  | deleting d =>
      obtain ⟨rfl, wrote⟩ := h
      obtain ⟨spares, goes⟩ := DocumentDelete.wrote_resume holds wrote fault
      exact ⟨spares, Progress.satisfies_map.2
        (goes.imp (fun _ hd => ⟨rfl, hd⟩) fun _ ha => congrArg _ ha)⟩
  | updating u =>
      obtain ⟨counter, rfl, wrote⟩ := h
      obtain ⟨spares, goes⟩ := DocumentUpdate.wrote_resume holds wrote fault
      exact ⟨spares, Progress.satisfies_map.2
        (goes.imp (fun _ hu => ⟨counter, rfl, hu⟩) fun _ ha => congrArg _ ha)⟩

end DocumentTask

/-- An operation that begins has not written its document. -/
theorem DocumentRequest.unwritten_start (table : Table) (request : DocumentRequest) :
    (request.start table).Satisfies (DocumentTask.Unwritten table request.key)
      (DocumentOutcome.Idle False) := by
  cases request with
  | get key shape => exact rfl
  | set key value =>
      exact Progress.satisfies_map.2 (DocumentWrite.unwritten_start table key value none)
  | setIf key value expected =>
      exact Progress.satisfies_map.2 (DocumentWrite.unwritten_start table key value (some expected))
  | delete key =>
      exact Progress.satisfies_map.2 (DocumentDelete.unwritten_again rfl rfl)
  | deleteIf key expected =>
      exact Progress.satisfies_map.2 (DocumentDelete.unwritten_again rfl rfl)
  | update key modifier =>
      exact Progress.satisfies_map.2 (DocumentUpdate.unwritten_again rfl rfl)

/-! ### Among others -/

namespace Ends

variable {db after : Database} {table : Table} {key : String}
  {progress : Progress DocumentTask DocumentOutcome} {steps : List Footprint}
  {outcome : DocumentOutcome}

/-- After the write, an operation leaves the documents alone until it ends, and reports it. -/
theorem spares_of_wrote {report : DocumentOutcome}
    (ends : Ends (DocumentTask.amid table) db progress steps outcome after)
    (holds : db.Holds table)
    (h : progress.Satisfies (DocumentTask.Wrote table report) fun a => a = report) :
    (∀ f ∈ steps, f.Spares table.documents) ∧ outcome = report := by
  induction ends with
  | finished db result => exact ⟨by simp, h⟩
  | @waiting db seen _ task now fault _ _ meanwhile varied _ _ ih =>
      have seen : seen.Holds table := meanwhile holds
      obtain ⟨spares, goes⟩ :=
        DocumentTask.wrote_resume seen (DocumentTask.Wrote.varies h varied) fault
      obtain ⟨later, told⟩ := ih (seen.perform fault now.call_isAccess) goes
      exact ⟨List.forall_mem_cons.2 ⟨spares, later⟩, told⟩

/-- Until the write, an operation changes nothing; so it has changed nothing when it ends, or one
of its calls is the write.  The last of its calls tells whether the document was missing. -/
theorem idle_or_writes {missing : Prop}
    (ends : Ends (DocumentTask.amid table) db progress steps outcome after)
    (holds : db.Holds table)
    (h : progress.Satisfies (DocumentTask.Unwritten table key) (DocumentOutcome.Idle missing)) :
    (∀ f ∈ steps, f.Idle) ∧ outcome.Idle (steps.getLast?.elim missing fun f =>
        (f.before.backend.store table.documents).get? (Utf8.encode key) = none) ∨
      ∃ counter, WritesOnce steps table.documents (Utf8.encode key) counter ∧
        outcome.Tells counter := by
  -- by induction on the calls, of which only the last one tells about the document
  induction ends generalizing missing with
  | finished db result => exact Or.inl ⟨by simp, h⟩
  | @waiting db seen _ task now fault steps _ meanwhile varied _ rest ih =>
      have held : seen.Holds table := meanwhile holds
      have next := held.perform fault now.call_isAccess
      cases DocumentTask.leads_resume held (DocumentTask.Unwritten.varies h varied) fault with
      | writes writes goes =>
          obtain ⟨report, tells, goes⟩ := DocumentTask.reports_of_wrote goes
          obtain ⟨spares, rfl⟩ := rest.spares_of_wrote next goes
          exact Or.inr ⟨_, writes.once spares, tells⟩
      | idle same goes =>
          rcases ih next goes with ⟨idle, told⟩ | ⟨counter, once, told⟩
          · refine Or.inl ⟨List.forall_mem_cons.2 ⟨same, idle⟩, ?_⟩
            cases hl : steps.getLast? with
            | none => simpa [List.getLast?_cons, hl] using told
            | some last => simpa [List.getLast?_cons, hl] using told
          · exact Or.inr ⟨counter, once.cons same, told⟩

end Ends

/-- **An operation that fails has changed nothing, and one that succeeds has written its document
once**, whatever others do in between and whichever calls fail.  The counter that it returns is that
of the write; and a deletion succeeds also where its last call has found no document. -/
theorem DocumentRequest.all_or_nothing {db after : Database} {table : Table}
    (holds : db.Holds table) (request : DocumentRequest) {steps : List Footprint}
    {outcome : DocumentOutcome}
    (ends : Ends (DocumentTask.amid table) db (request.start table) steps outcome after) :
    (outcome.isFailure = true → ∀ f ∈ steps, f.Idle) ∧
      (∀ counter, outcome.counter? = some counter →
        WritesOnce steps table.documents (Utf8.encode request.key) counter) ∧
      (outcome = .deleted (.ok ()) →
        (∃ counter, WritesOnce steps table.documents (Utf8.encode request.key) counter) ∨
          (∀ f ∈ steps, f.Idle) ∧ ∃ f, steps.getLast? = some f ∧
            (f.before.backend.store table.documents).get? (Utf8.encode request.key) = none) := by
  rcases ends.idle_or_writes holds (request.unwritten_start table) with
    ⟨idle, reported⟩ | ⟨counter, once, told⟩
  · refine ⟨fun _ => idle, ?_, ?_⟩
    · intro counter returned
      rw [reported.counter?] at returned
      cases returned
    · rintro rfl
      have missing := reported rfl
      cases hl : steps.getLast? with
      | none =>
          rw [hl] at missing
          exact missing.elim
      | some last =>
          rw [hl] at missing
          exact Or.inr ⟨idle, last, rfl, missing⟩
  · refine ⟨?_, ?_, fun _ => Or.inl ⟨counter, once⟩⟩
    · intro failure
      rw [told.isFailure] at failure
      cases failure
    · intro returned hr
      rw [told.eq_of_counter? hr]
      exact once

/-- A write that loses its first attempt to another one, and whose indexes cannot be read in time:
it has written once, over what the other one left. -/
theorem DocumentRequest.all_or_nothing_of_race :
    (Database.fresh .default "t").2.Holds (Database.fresh .default "t").1 ∧
      ∃ steps outcome after, Ends (DocumentTask.amid (Database.fresh .default "t").1)
          (Database.fresh .default "t").2
          ((DocumentRequest.set "x" .null).start (Database.fresh .default "t").1)
          steps outcome after ∧
        outcome.counter? = some 2 ∧
        WritesOnce steps (Database.fresh .default "t").1.documents (Utf8.encode "x") 2 := by
  have holds := (Database.arranged_fresh .default "t").holds
  have suffered : (Database.suffer? (DocumentTask.amid (Database.fresh .default "t").1)
      [(id, none),
        (fun db => (db.perform (.create (Database.fresh .default "t").1.documents
          (Utf8.encode "x") [1]) none).2, none),
        (id, none), (id, none), (id, some .swapMismatch)]
      (Database.fresh .default "t").2
      ((DocumentRequest.set "x" .null).start (Database.fresh .default "t").1)).any
      (fun ended => ended.2.1.counter? == some 2) = true := by
    decide +kernel
  obtain ⟨steps, outcome, after, ends, returned⟩ := Ends.exists_of_suffer?
    (p := fun outcome : DocumentOutcome => outcome.counter? == some 2) suffered
    (fun _ => Or.inl rfl) (by
      intro move hm db
      simp only [List.mem_cons, List.not_mem_nil, or_false] at hm
      rcases hm with rfl | rfl | rfl | rfl | rfl
      · exact fun held => held
      · exact fun held => held.perform none trivial
      · exact fun held => held
      · exact fun held => held
      · exact fun held => held)
  have counter := beq_iff_eq.1 returned
  exact ⟨holds, steps, outcome, after, ends, counter,
    (DocumentRequest.all_or_nothing holds _ ends).2.1 2 counter⟩

end DocStore
