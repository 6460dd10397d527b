/-
What the upkeep of indexes does to each slot.

A change of a document touches the buckets of many keys in many indexes.  They are changed one after
another, and what becomes of one of them does not depend on the others: not on what they hold, not
on whether they can be decoded, and not on whether their storage fails.  So the upkeep is described
slot by slot.  The slot after it is the slot before it with those changes made that are for this
bucket, and a bucket that cannot be decoded takes no change.

The upkeep is alone here, but its calls may fail.  Nobody writes the document meanwhile, so that it
is found as it was written, and nothing is settled a second time.

* `Bucket.Change.slot`, `Bucket.slotStep`, `Bucket.slotAfter` — a slot after one change, after a
  change of some bucket, and after several; `Bucket.Change.slot_of_ne` — what is in it then;
* `Call.On` — the call reads or writes a key of a store;
* `BucketEdit.Ready`, `BucketEdit.resume_ready` — a change that has planned for what is stored now,
  and what it does in one step;
* `IndexSync.pending?`, `IndexSync.Heading` — the changes that are still to be made, and the upkeep
  on its way to a slot;
* `IndexSync.heading_resume` — **every step of the upkeep keeps the way**;
* `IndexSync.slot_of_ends` — **a slot ends as its own changes demand**, unless its own calls fail;
* `FieldPath.Demands` — what a change of a document demands of a bucket;
* `IndexSync.slotAfter_changes_of_demands`, `IndexSync.slotAfter_changes_of_iff` — the changes of a
  bucket are the one that is demanded of it.
-/

import DocStore.Proofs.Index.Edits
import DocStore.Proofs.Run.Alone

set_option autoImplicit false

namespace DocStore

/-! ### Slots -/

namespace Bucket

/-- The slot of a bucket after a change.  It stays as it is where nothing is to be done, and where
it cannot be decoded. -/
def Change.slot (change : Change) (document : String) (slot : Option Slot) : Option Slot :=
  match plan change document (slot.bind Slot.versioned?) with
  | .ok (some write) => some ⟨write.value?, slot.elim 0 Slot.counter + 1⟩
  | _ => slot

/-- A slot after a change of some bucket, which may be another one. -/
def slotStep (id : StoreId) (indexKey : Bytes) (slot : Option Slot) (c : Membership × Change) :
    Option Slot :=
  if c.1.index.buckets = id ∧ c.1.indexKey = indexKey then c.2.slot c.1.document slot else slot

/-- A slot after several changes of buckets. -/
def slotAfter (id : StoreId) (indexKey : Bytes) (changes : List (Membership × Change))
    (slot : Option Slot) : Option Slot :=
  changes.foldl (slotStep id indexKey) slot

variable {id : StoreId} {indexKey : Bytes} {change : Change} {document : String}
  {slot : Option Slot} {c : Membership × Change}

theorem Change.slot_of_plan {write : SlotWrite}
    (h : plan change document (slot.bind Slot.versioned?) = .ok (some write)) :
    change.slot document slot = some ⟨write.value?, slot.elim 0 Slot.counter + 1⟩ := by
  simp only [Change.slot, h]

/-- A bucket that is as it should be stays as it is. -/
theorem Change.slot_of_plan_none
    (h : plan change document (slot.bind Slot.versioned?) = .ok none) :
    change.slot document slot = slot := by
  simp only [Change.slot, h]

theorem Change.slot_of_plan_error {e : Error}
    (h : plan change document (slot.bind Slot.versioned?) = .error e) :
    change.slot document slot = slot := by
  simp only [Change.slot, h]

/-- A bucket that cannot be decoded stays as it is. -/
theorem Change.slot_of_undecodable (h : documents? (slot.bind Slot.versioned?) = none) :
    change.slot document slot = slot :=
  slot_of_plan_error (plan_of_documents?_eq_none h)

/-- The slot of a bucket that lists these documents; there is nothing in that of an empty one. -/
def slotOf (documents : List String) (counter : Counter) : Slot :=
  ⟨if documents = [] then none else some (encode documents), counter⟩

/-- **A bucket that is changed** lists the documents after the change, and its counter has moved by
one. -/
theorem Change.slot_of_ne {documents : List String}
    (h : documents? (slot.bind Slot.versioned?) = some documents)
    (changed : change.apply document documents ≠ documents) :
    change.slot document slot = some (slotOf (change.apply document documents)
      (slot.elim 0 Slot.counter + 1)) := by
  have planned := @plan_eq change document _ _ h
  rw [if_neg changed] at planned
  rw [slot_of_plan planned, slotOf]
  refine congrArg (fun value => some (Slot.mk value _)) ?_
  cases stored : slot.bind Slot.versioned? with
  | some v =>
      cases change.apply document documents with
      | nil => rfl
      | cons d rest => rfl
  | none =>
      rw [stored] at h
      obtain rfl := Option.some.inj h
      -- no list without documents is ever created
      cases change with
      | add => rfl
      | remove => exact absurd rfl changed

theorem slotStep_of_undecodable (h : documents? (slot.bind Slot.versioned?) = none) :
    slotStep id indexKey slot c = slot := by
  unfold slotStep
  split
  · exact Change.slot_of_undecodable h
  · rfl

theorem slotAfter_cons (c : Membership × Change) (changes : List (Membership × Change))
    (slot : Option Slot) :
    slotAfter id indexKey (c :: changes) slot
      = slotAfter id indexKey changes (slotStep id indexKey slot c) := rfl

/-- No change reaches a bucket that cannot be decoded. -/
theorem slotAfter_of_undecodable (h : documents? (slot.bind Slot.versioned?) = none)
    (changes : List (Membership × Change)) : slotAfter id indexKey changes slot = slot := by
  induction changes with
  | nil => rfl
  | cons c changes ih => rw [slotAfter_cons, slotStep_of_undecodable h, ih]

end Bucket

/-- The call reads or writes this key of this store. -/
def Call.On (id : StoreId) (key : Bytes) : Call → Prop
  | .get store other => store = id ∧ other = key
  | .create store other _ => store = id ∧ other = key
  | .compareAndSet store other _ _ => store = id ∧ other = key
  | .compareAndDelete store other _ => store = id ∧ other = key
  | _ => False

instance (id : StoreId) (key : Bytes) : DecidablePred (Call.On id key) := fun call => by
  cases call <;> unfold Call.On <;> infer_instance

/-- A call is on one key. -/
theorem Call.On.key_eq {id other : StoreId} {key otherKey : Bytes} {call : Call}
    (h : call.On id key) (ho : call.On other otherKey) : key = otherKey := by
  cases call <;> first
    | exact h.2.symm.trans ho.2
    | exact h.elim

/-- What is remembered of a key of a store. -/
def Database.slot? (db : Database) (id : StoreId) (key : Bytes) : Option Slot :=
  (db.backend.store id).slots.find? key

/-! ### One change -/

namespace BucketEdit

variable {db : Database} {edit : BucketEdit}

/-- A change that has planned nothing yet, or has planned for what is stored now. -/
def Ready (db : Database) (edit : BucketEdit) : Prop :=
  ∀ write, edit.write = some write →
    Bucket.plan edit.change edit.document
      ((db.backend.store edit.index.buckets).get? edit.indexKey) = .ok (some write)

/-- All calls of a change are on its bucket. -/
theorem call_on (edit : BucketEdit) :
    (Task.call edit).On edit.index.buckets edit.indexKey := by
  rcases edit.call_cases with ⟨-, hc⟩ | ⟨write, -, hc⟩
  · rw [hc]
    exact ⟨rfl, rfl⟩
  · rw [hc]
    cases write <;> exact ⟨rfl, rfl⟩

/-- What a change has done that has ended with a call that met this fault, if there was one: every
slot is as after the change, or that call was on it and has failed. -/
structure Made (db : Database) (edit : BucketEdit) (fault : Option Error) (after : Database) :
    Prop where
  slots : ∀ id key,
    after.slot? id key = Bucket.slotStep id key (db.slot? id key) (edit.membership, edit.change) ∨
      fault ≠ none ∧ (Task.call edit).On id key ∧ after.slot? id key = db.slot? id key
  elsewhere : ∀ id, id ≠ edit.index.buckets → after.backend.store id = db.backend.store id

variable {fault : Option Error}

/-- A call that fails has done nothing. -/
theorem made_of_fault (failed : fault ≠ none) : edit.Made db fault db := by
  refine ⟨fun id key => ?_, fun _ _ => rfl⟩
  by_cases own : edit.index.buckets = id ∧ edit.indexKey = key
  · obtain ⟨rfl, rfl⟩ := own
    exact .inr ⟨failed, edit.call_on, rfl⟩
  · exact .inl (if_neg own).symm

/-- A bucket that takes no change is as after it. -/
theorem made_of_slot_eq
    (same : edit.change.slot edit.document (db.slot? edit.index.buckets edit.indexKey)
      = db.slot? edit.index.buckets edit.indexKey) : edit.Made db fault db := by
  refine ⟨fun id key => .inl ?_, fun _ _ => rfl⟩
  unfold Bucket.slotStep
  split
  · rename_i own
    obtain ⟨rfl, rfl⟩ := own
    exact same.symm
  · rfl

/-- The write that is planned for what is stored makes the change. -/
theorem made_of_plan (stored : edit.index.buckets < db.backend.stores.length) {write : SlotWrite}
    (plan : Bucket.plan edit.change edit.document
      ((db.backend.store edit.index.buckets).get? edit.indexKey) = .ok (some write)) :
    write.Accepts ((db.backend.store edit.index.buckets).get? edit.indexKey) ∧
      edit.Made db fault (db.putStore edit.index.buckets
        (write.applied (db.backend.store edit.index.buckets) edit.indexKey)) := by
  obtain ⟨list, -, -, rfl⟩ := Bucket.eq_rewrite_of_plan plan
  have accepts := Bucket.accepts_rewrite
    ((db.backend.store edit.index.buckets).get? edit.indexKey)
    (edit.change.apply edit.document list)
  refine ⟨accepts, fun id key => .inl ?_, fun id other => ?_⟩
  · rw [Database.slot?, Database.putStore, Backend.store_putStore, Bucket.slotStep]
    by_cases ours : edit.index.buckets = id
    · subst ours
      rw [if_pos ⟨rfl, stored⟩, Store.find?_applied accepts]
      by_cases own : edit.indexKey = key
      · subst own
        rw [if_pos rfl]
        exact ((if_pos ⟨rfl, rfl⟩).trans (Bucket.Change.slot_of_plan plan)).symm
      · rw [if_neg (Ne.symm own)]
        exact (if_neg fun same => own same.2).symm
    · rw [if_neg fun same => ours same.1.symm]
      exact (if_neg fun same => ours same.1).symm
  · rw [Database.putStore, Backend.store_putStore, if_neg fun same => other same.1]

/-- A new attempt reads the bucket again. -/
theorem ready_again (edit : BucketEdit) {made : Prop} (h : made) :
    edit.again.Satisfies
      (fun e => e.membership = edit.membership ∧ e.change = edit.change ∧ e.Ready db)
      fun _ => made := by
  refine edit.satisfies_again.imp ?_ fun _ _ => h
  rintro e ⟨same, change, unread⟩
  refine ⟨same, change, fun write planned => ?_⟩
  rw [unread] at planned
  cases planned

/-- **A change that nobody disturbs** has done nothing as long as it goes on, and its write goes
through unless it fails. -/
theorem resume_ready (stored : edit.index.buckets < db.backend.stores.length)
    (ready : edit.Ready db) (fault : Option Error) :
    let performed := db.perform (Task.call edit) fault
    (Task.resume edit performed.1).Satisfies
      (fun e => performed.2 = db ∧ e.membership = edit.membership ∧ e.change = edit.change ∧
        e.Ready db)
      fun _ => edit.Made db fault performed.2 := by
  intro performed
  rcases edit.call_cases with ⟨unread, hc⟩ | ⟨write, hw, hc⟩
  · have read : performed = db.perform (.get edit.index.buckets edit.indexKey) fault :=
      congrArg (db.perform · fault) hc
    cases fault with
    | some e =>
        have failed : Task.resume edit (.document (.error e)) = .finished (.error e) := by
          simp only [Task.resume, unread]
        rw [show performed = (.document (.error e), db) from read, failed]
        exact made_of_fault (Option.some_ne_none e)
    | none =>
        rw [read, Database.perform_get]
        simp only [Task.resume, unread]
        cases plan : Bucket.plan edit.change edit.document
            ((db.backend.store edit.index.buckets).get? edit.indexKey) with
        | error e => exact made_of_slot_eq (Bucket.Change.slot_of_plan_error plan)
        | ok write? =>
            cases write? with
            | none => exact made_of_slot_eq (Bucket.Change.slot_of_plan_none plan)
            | some write =>
                refine ⟨trivial, rfl, rfl, ?_⟩
                rintro _ ⟨⟩
                exact plan
  · have made : performed = db.perform (write.call edit.index.buckets edit.indexKey) fault :=
      congrArg (db.perform · fault) hc
    cases fault with
    | some e =>
        have failed : edit.Made db (some e) db := made_of_fault (Option.some_ne_none e)
        rw [made, db.perform_write_some, resume_reply hw]
        change (edit.written (.error e)).Satisfies _ _
        unfold written
        split
        · exact (edit.ready_again failed).imp (fun _ again => ⟨rfl, again⟩) fun _ h => h
        · exact failed
    | none =>
        obtain ⟨accepts, changed⟩ := @made_of_plan db edit none stored write (ready write hw)
        rw [made, db.perform_write accepts, resume_reply hw]
        exact changed

end BucketEdit

/-! ### The database meanwhile -/

/-- The faults do not hit the calls on a key of a store.  A run in which no such call has met a
fault is also a run among the other faults, so that this says what the run has met. -/
def FaultsSpare (faults : Database → Call → Option Error → Prop) (id : StoreId) (key : Bytes) :
    Prop :=
  ∀ db call e, call.On id key → ¬ faults db call (some e)

/-- A database while the indexes of a table are brought in line: the table has the indexes and the
documents that it had at the beginning, and the bucket is one that the faults do not hit, or one
that cannot be decoded. -/
structure Database.Steady (db : Database) (faults : Database → Call → Option Error → Prop)
    (origin : Database) (table : Table) (id : StoreId) (key : Bytes) : Prop where
  arranged : db.Arranged table
  indexes : db.indexesOf table.id = origin.indexesOf table.id
  documents : db.backend.store table.documents = origin.backend.store table.documents
  sure : FaultsSpare faults id key ∨
    Bucket.documents? ((db.slot? id key).bind Slot.versioned?) = none

variable {faults : Database → Call → Option Error → Prop} {origin db : Database} {table : Table}
  {id : StoreId} {key : Bytes} {final : Option Slot}

/-- A change of a bucket that has ended makes its step in the slot, and the rest stays. -/
theorem Database.Steady.made {edit : BucketEdit} {fault : Option Error}
    (steady : db.Steady faults origin table id key) (hi : db.Registered table edit.index)
    (possible : faults db (Task.call edit) fault)
    (made : edit.Made db fault (db.perform (Task.call edit) fault).2) :
    let after := (db.perform (Task.call edit) fault).2
    after.Steady faults origin table id key ∧
      after.slot? id key
        = Bucket.slotStep id key (db.slot? id key) (edit.membership, edit.change) := by
  intro after
  obtain ⟨-, indexes, -⟩ := db.perform_of_isAccess fault edit.call_isAccess
  have registered : after.indexesOf table.id = db.indexesOf table.id := by
    rw [indexesOf, indexes]
    rfl
  have documents := made.elsewhere _ (hi.apart steady.arranged).symm
  have slot : after.slot? id key
      = Bucket.slotStep id key (db.slot? id key) (edit.membership, edit.change) := by
    rcases made.slots id key with step | ⟨failed, on, same⟩
    · exact step
    · obtain ⟨e, rfl⟩ := Option.ne_none_iff_exists'.1 failed
      rcases steady.sure with spared | undecodable
      · exact absurd possible (spared db _ e on)
      · rw [Bucket.slotStep_of_undecodable undecodable]
        exact same
  refine ⟨⟨steady.arranged.perform fault edit.call_isAccess, registered.trans steady.indexes,
    documents.trans steady.documents, steady.sure.imp_right fun undecodable => ?_⟩, slot⟩
  rw [slot, Bucket.slotStep_of_undecodable undecodable]
  exact undecodable

/-! ### All changes -/

namespace IndexSync

/-- The changes of buckets that are still to be made, if there is nothing else to be done. -/
def pending? (indexes : List Index) (sync : IndexSync) :
    Option (List (Membership × Bucket.Change)) :=
  match sync.stage with
  | .reading old new => some (changes indexes sync.document old new)
  | .editing edit rest _ => some ((edit.membership, edit.change) :: rest)
  | .rechecking _ => some []
  | .settling _ => none

/-- The upkeep for a document is on its way to this slot: the changes that are still to be made lead
there from what is stored now. -/
structure Heading (faults : Database → Call → Option Error → Prop) (origin : Database)
    (table : Table) (id : StoreId) (key : Bytes) (final : Option Slot) (db : Database)
    (sync : IndexSync) : Prop where
  steady : db.Steady faults origin table id key
  ofTable : sync.table = table
  written : ((origin.backend.store table.documents).get? (Utf8.encode sync.document)).map
    Versioned.counter = sync.written
  way : ∃ changes, sync.pending? ((origin.indexesOf table.id).entries.map (·.2)) = some changes ∧
    (∀ c ∈ changes, db.Registered table c.1.index) ∧
    Bucket.slotAfter id key changes (db.slot? id key) = final
  ready : ∀ edit rest touched, sync.stage = .editing edit rest touched → edit.Ready db

variable {sync : IndexSync} (tries : table.retry.maxAttempts ≠ some 0)

include tries in
/-- The upkeep goes on with the next change, or looks at the document again. -/
theorem heading_edit (steady : db.Steady faults origin table id key) (ofTable : sync.table = table)
    (written : ((origin.backend.store table.documents).get? (Utf8.encode sync.document)).map
      Versioned.counter = sync.written)
    (touched : List Membership) {changes : List (Membership × Bucket.Change)}
    (registered : ∀ c ∈ changes, db.Registered table c.1.index)
    (way : Bucket.slotAfter id key changes (db.slot? id key) = final) :
    (sync.edit touched changes).Heading faults origin table id key final db := by
  cases changes with
  | nil => exact ⟨steady, ofTable, written, ⟨[], rfl, registered, way⟩, nofun⟩
  | cons c rest =>
      obtain ⟨m, change⟩ := c
      have same := (registered _ List.mem_cons_self).retry steady.arranged
      have begun : sync.edit touched ((m, change) :: rest)
          = { sync with stage := .editing ⟨m.index, m.indexKey, change, m.document,
              (m.index.retry.attempts m.indexKey).counted, none⟩ rest touched } := by
        have first := RetryPolicy.begin_attempts (same ▸ tries) m.indexKey
        simp only [edit, BucketEdit.start, BucketEdit.again, first]
      rw [begun]
      refine ⟨steady, ofTable, written, ⟨_, rfl, registered, way⟩, ?_⟩
      rintro edit _ _ ⟨⟩ write ⟨⟩

include tries in
/-- A change that is under way stays the first one to be made, and when it has been made, those that
are left lead on from there. -/
theorem heading_editing {document : String} {written : Option Counter} {edit : BucketEdit}
    {rest : List (Membership × Bucket.Change)} {touched : List Membership}
    (h : Heading faults origin table id key final db
      ⟨table, document, written, .editing edit rest touched⟩)
    {fault : Option Error} (possible : faults db (Task.call edit) fault) :
    let performed := db.perform (Task.call edit) fault
    (Task.resume (⟨table, document, written, .editing edit rest touched⟩ : IndexSync)
        performed.1).Satisfies
      (fun s => s.Heading faults origin table id key final performed.2)
      fun _ => performed.2.slot? id key = final := by
  intro performed
  obtain ⟨steady, -, counter, ⟨changes, pending, registered, way⟩, ready⟩ := h
  obtain rfl := Option.some.inj pending
  have hi : db.Registered table edit.index := registered _ List.mem_cons_self
  have step := edit.resume_ready (hi.lt_length steady.arranged) (ready _ _ _ rfl) fault
  change (Task.resume edit performed.1).Satisfies _ _ at step
  have goes := resume_editing ⟨table, document, written, .editing edit rest touched⟩ edit rest
    touched performed.1
  rw [goes]
  cases progress : Task.resume edit performed.1 with
  | waiting e =>
      rw [progress] at step
      obtain ⟨same, membership, change, ready⟩ := step
      change performed.2 = db at same
      rw [same]
      refine ⟨steady, rfl, counter, ⟨_, rfl, ?_, ?_⟩, ?_⟩
      · rw [membership, change]
        exact registered
      · rw [membership, change]
        exact way
      · rintro _ _ _ ⟨⟩
        exact ready
  | finished result =>
      rw [progress] at step
      obtain ⟨steady', slot⟩ := steady.made hi possible step
      refine heading_edit tries steady' rfl counter touched ?_ ?_
      · intro c hc
        rw [Database.Registered, steady'.indexes, ← steady.indexes]
        exact registered c (List.mem_cons_of_mem _ hc)
      · rw [slot]
        exact way

include tries in
/-- **Every step of the upkeep keeps the way**, and what has ended has arrived. -/
theorem heading_resume (heading : sync.Heading faults origin table id key final db)
    {fault : Option Error} (possible : faults db (Task.call sync) fault) :
    let performed := db.perform (Task.call sync) fault
    (Task.resume sync performed.1).Satisfies
      (fun s => s.Heading faults origin table id key final performed.2)
      fun _ => performed.2.slot? id key = final := by
  intro performed
  obtain ⟨owner, document, written, stage⟩ := sync
  obtain rfl : owner = table := heading.ofTable
  have steady := heading.steady
  have counter := heading.written
  obtain ⟨changes, pending, registered, way⟩ := heading.way
  cases stage with
  | reading old new =>
      -- looking up the indexes is no access to the storage, and does not fail
      have read : performed = (.indexes ((db.indexesOf owner.id).entries.map (·.2)), db) := by
        cases fault <;> rfl
      rw [read, steady.indexes]
      have demanded := Option.some.inj pending
      cases changes with
      | nil =>
          rw [resume_reading_of_nil rfl demanded]
          exact way
      | cons c rest =>
          rw [resume_reading_of_cons rfl demanded]
          exact heading_edit tries steady rfl counter _ registered way
  | editing edit rest touched =>
      exact heading_editing tries heading possible
  | rechecking touched =>
      obtain rfl := Option.some.inj pending
      have read : performed = db.perform (.get owner.documents (Utf8.encode document)) fault := rfl
      rcases db.perform_get_cases owner.documents (Utf8.encode document) fault with ⟨e, hp⟩ | hp
      · rw [read, hp]
        exact way
      · rw [← steady.documents] at counter
        -- nobody has written the document since
        rw [read, hp, show Task.resume
          (⟨owner, document, written, .rechecking touched⟩ : IndexSync) _ = .finished ()
          from if_pos counter]
        exact way
  | settling queue => cases pending

/-- **A slot ends as its own changes demand**, if the faults do not hit its own calls or if it
cannot be decoded. -/
theorem slot_of_ends {after : Database} {steps : List Footprint} {document : String}
    {old new : Bytes} {written : Option Counter} (tries : table.retry.maxAttempts ≠ some 0)
    (steady : db.Steady faults db table id key)
    (counter : ((db.backend.store table.documents).get? (Utf8.encode document)).map
      Versioned.counter = written)
    (ends : Ends (.alone IndexSync faults) db
      (.waiting (start table document old new written)) steps () after) :
    after.slot? id key
      = Bucket.slotAfter id key
          (changes ((db.indexesOf table.id).entries.map (·.2)) document old new)
          (db.slot? id key) := by
  generalize arrives : Bucket.slotAfter id key (changes _ document old new) (db.slot? id key)
    = final
  have registered : ∀ c ∈ changes ((db.indexesOf table.id).entries.map (·.2)) document old new,
      db.Registered table c.1.index :=
    fun c hc => (Database.mem_indexes steady.arranged).1 (of_mem_changes hc).1
  have begins : (start table document old new written).Heading faults db table id key final db :=
    ⟨steady, rfl, counter, ⟨_, rfl, registered, arrives⟩, nofun⟩
  exact ends.alone_satisfies
    (P := fun now (s : IndexSync) => s.Heading faults db table id key final now)
    (Q := fun now _ => now.slot? id key = final)
    (fun _ _ _ heading possible => heading_resume tries heading possible) begins

end IndexSync

/-! ### The changes of one bucket -/

namespace Bucket

variable {changes : List (Membership × Change)} {c : Membership × Change} {slot : Option Slot}

/-- Changes of other buckets leave a slot as it is. -/
theorem slotAfter_of_forall
    (h : ∀ c ∈ changes, ¬ (c.1.index.buckets = id ∧ c.1.indexKey = key)) :
    slotAfter id key changes slot = slot := by
  induction changes with
  | nil => rfl
  | cons c changes ih =>
      obtain ⟨first, others⟩ := List.forall_mem_cons.1 h
      rw [slotAfter_cons, slotStep, if_neg first, ih others]

/-- A slot that has one change is as after this one. -/
theorem slotAfter_of_mem (nodup : changes.Nodup) (mem : c ∈ changes)
    (own : c.1.index.buckets = id ∧ c.1.indexKey = key)
    (only : ∀ d ∈ changes, d.1.index.buckets = id ∧ d.1.indexKey = key → d = c) :
    slotAfter id key changes slot = c.2.slot c.1.document slot := by
  induction changes with
  | nil => cases mem
  | cons d changes ih =>
      obtain ⟨once, nodup⟩ := List.nodup_cons.1 nodup
      obtain ⟨first, others⟩ := List.forall_mem_cons.1 only
      rw [slotAfter_cons, slotStep]
      rcases List.mem_cons.1 mem with rfl | mem
      · rw [if_pos own]
        refine slotAfter_of_forall fun d hd ours => once ?_
        rw [← others d hd ours]
        exact hd
      · rw [if_neg fun ours => once (first ours ▸ mem), ih nodup mem others]

end Bucket

namespace IndexDiff

/-- The buckets that a document enters or leaves are told once each. -/
theorem nodup_flatMap_missing {indexes : List (String × FieldPath)}
    (distinct : indexes.Pairwise fun i j => i.1 ≠ j.1) (these those : Bytes) :
    (indexes.flatMap fun i => missing i.1 (i.2.indexKeys these) (i.2.indexKeys those)).Nodup := by
  refine List.nodup_flatMap.2 ⟨fun i _ => ?_, distinct.imp fun ne b hb hb' => ?_⟩
  · have nodup := (i.2.inFoundOrder_filter these those).nodup
    exact nodup.map fun _ _ same => (BucketId.mk.inj same).2
  · exact ne ((mem_missing.1 hb).1.symm.trans (mem_missing.1 hb').1)

end IndexDiff

namespace IndexSync

/-- **No change is made twice**, if the indexes have different names. -/
theorem nodup_changes {indexes : List Index}
    (distinct : indexes.Pairwise fun i j => i.name ≠ j.name) (document : String)
    (old new : Bytes) : (changes indexes document old new).Nodup := by
  have names : (indexes.map fun i => (i.name, i.path)).Pairwise fun i j => i.1 ≠ j.1 :=
    List.pairwise_map.2 distinct
  -- a bucket is told by the name of its index and its key, which the membership has
  have told : ∀ (change : Bucket.Change) (b b' : BucketId) (c : Membership × Bucket.Change),
      (indexes.find? fun i => i.name == b.index).map
        (fun i => ((⟨i, b.indexKey, document⟩ : Membership), change)) = some c →
      (indexes.find? fun i => i.name == b'.index).map
        (fun i => ((⟨i, b'.indexKey, document⟩ : Membership), change)) = some c → b = b' := by
    intro change b b' c h h'
    obtain ⟨i, hi, rfl⟩ := Option.map_eq_some_iff.1 h
    obtain ⟨j, hj, same⟩ := Option.map_eq_some_iff.1 h'
    obtain ⟨⟨rfl, key, -⟩, -⟩ := by simpa only [Prod.mk.injEq, Membership.mk.injEq] using same
    have name : j.name = b.index := by simpa using List.find?_some hi
    have name' : j.name = b'.index := by simpa using List.find?_some hj
    exact congrArg₂ BucketId.mk (name.symm.trans name') key.symm
  refine List.nodup_append.2 ⟨?_, ?_, ?_⟩
  · exact (IndexDiff.nodup_flatMap_missing names old new).filterMap (told .remove)
  · exact (IndexDiff.nodup_flatMap_missing names new old).filterMap (told .add)
  · intro c hc d hd same
    obtain ⟨b, -, hb⟩ := List.mem_filterMap.1 hc
    obtain ⟨b', -, hb'⟩ := List.mem_filterMap.1 hd
    obtain ⟨i, -, rfl⟩ := Option.map_eq_some_iff.1 hb
    obtain ⟨j, -, rfl⟩ := Option.map_eq_some_iff.1 hb'
    cases (Prod.mk.inj same).2

end IndexSync

/-- A change of a document demands this change of the bucket of a key. -/
def FieldPath.Demands (path : FieldPath) (old new indexKey : Bytes) : Bucket.Change → Prop
  | .add => path.Yields new indexKey ∧ ¬ path.Yields old indexKey
  | .remove => path.Yields old indexKey ∧ ¬ path.Yields new indexKey

/-- The indexes of a table have different names. -/
theorem Database.Arranged.pairwise_name (arranged : db.Arranged table) :
    ((db.indexesOf table.id).entries.map (·.2)).Pairwise fun i j => i.name ≠ j.name := by
  have named : ∀ e ∈ (db.indexesOf table.id).entries, e.2.name = e.1 := fun e he =>
    (arranged.registered _ _ (SortedMap.find?_eq_some_iff.2 he)).1.ofName
  refine List.pairwise_map.2
    ((db.indexesOf table.id).ascending.imp_of_mem fun ha hb less same => ?_)
  rw [named _ ha, named _ hb] at same
  exact String.lt_irrefl _ (same ▸ less)

namespace IndexSync

variable {index : Index} {document : String} {old new : Bytes} {indexKey : Bytes}
  {slot : Option Slot} (arranged : db.Arranged table) (hi : db.Registered table index)
include arranged hi

/-- The changes of one bucket are the one that is demanded of it. -/
theorem eq_of_mem_changes {c : Membership × Bucket.Change}
    (hc : c ∈ changes ((db.indexesOf table.id).entries.map (·.2)) document old new)
    (own : c.1.index.buckets = index.buckets ∧ c.1.indexKey = indexKey) :
    c.1 = ⟨index, indexKey, document⟩ ∧ index.path.Demands old new indexKey c.2 := by
  obtain ⟨⟨i, k, d⟩, change⟩ := c
  obtain ⟨same, rfl⟩ := own
  obtain ⟨listed, rfl, demands⟩ :=
    (mem_changes_iff fun i hi j hj => Database.eq_of_name arranged hi hj).1 hc
  obtain rfl := ((Database.mem_indexes arranged).1 listed).eq_of_buckets arranged hi same
  refine ⟨rfl, ?_⟩
  cases change <;> exact demands

/-- **The slot of a bucket after a change of a document**, of which the change demands something. -/
theorem slotAfter_changes_of_demands {change : Bucket.Change}
    (demands : index.path.Demands old new indexKey change) :
    Bucket.slotAfter index.buckets indexKey
        (changes ((db.indexesOf table.id).entries.map (·.2)) document old new) slot
      = change.slot document slot := by
  have mem : (⟨index, indexKey, document⟩, change)
      ∈ changes ((db.indexesOf table.id).entries.map (·.2)) document old new := by
    refine (mem_changes_iff fun i hi j hj => Database.eq_of_name arranged hi hj).2
      ⟨(Database.mem_indexes arranged).2 hi, rfl, ?_⟩
    cases change <;> exact demands
  refine Bucket.slotAfter_of_mem (nodup_changes arranged.pairwise_name document old new) mem
    ⟨rfl, rfl⟩ fun d hd own => ?_
  obtain ⟨membership, also⟩ := eq_of_mem_changes arranged hi hd own
  have same : d.2 = change := by
    cases hd2 : d.2 <;> cases change <;> first
      | rfl
      | (rw [hd2] at also; exact absurd also.1 demands.2)
  exact Prod.ext membership same

/-- The slot of a bucket of which a change of a document demands nothing. -/
theorem slotAfter_changes_of_iff
    (same : index.path.Yields old indexKey ↔ index.path.Yields new indexKey) :
    Bucket.slotAfter index.buckets indexKey
        (changes ((db.indexesOf table.id).entries.map (·.2)) document old new) slot = slot := by
  refine Bucket.slotAfter_of_forall fun c hc own => ?_
  obtain ⟨-, demands⟩ := eq_of_mem_changes arranged hi hc own
  cases hc2 : c.2 with
  | add =>
      rw [hc2] at demands
      exact demands.2 (same.2 demands.1)
  | remove =>
      rw [hc2] at demands
      exact demands.2 (same.1 demands.1)

end IndexSync

end DocStore
