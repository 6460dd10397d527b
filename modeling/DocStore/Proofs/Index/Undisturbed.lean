/-
The upkeep of indexes when nobody disturbs it.

Alone, a change of a bucket reads the bucket and writes it once, a settling makes one such change,
and bringing the indexes in line with a document makes the changes that the document demands, one
after another.  A bucket that cannot be decoded is left alone and costs nothing else.

* `Database.edited`, `Database.settled` — the database after one change of a bucket, and after the
  change that the present document demands;
* `Database.editedAll`, `Database.settledAll` — the same for several, one after another;
* `BucketEdit.completes`, `Settling.completes`, `SettleQueue.completes`, `IndexSync.completes` —
  **the operations end, and this is what they do.**

An operation whose policy allows no attempt at all does nothing; it is left out here.
-/

import DocStore.Proofs.Index.Buckets
import DocStore.Proofs.Index.Memberships
import DocStore.Proofs.Index.Steps
import DocStore.Proofs.Run.Completion

set_option autoImplicit false

namespace DocStore

/-! ### One bucket -/

namespace Database

/-- The database after a change of a bucket; one that cannot be decoded is left alone. -/
def edited (db : Database) (m : Membership) (change : Bucket.Change) : Database :=
  match (db.backend.store m.index.buckets).bucket? m.indexKey with
  | some list =>
      if change.apply m.document list = list then db
      else
        let write := Bucket.rewrite ((db.backend.store m.index.buckets).get? m.indexKey)
          (change.apply m.document list)
        (db.perform (write.call m.index.buckets m.indexKey) none).2
  | none => db

variable {db : Database} {m : Membership} {change : Bucket.Change}

/-- Only the buckets of the index are written. -/
theorem store_edited_of_ne {id : StoreId} (ne : id ≠ m.index.buckets) :
    (db.edited m change).backend.store id = db.backend.store id := by
  unfold edited
  split
  · split
    · rfl
    · rename_i list _ _
      have accepts := Bucket.accepts_rewrite ((db.backend.store m.index.buckets).get? m.indexKey)
        (change.apply m.document list)
      dsimp only
      rw [db.perform_write accepts, putStore, Backend.store_putStore, if_neg fun h => ne h.1]
  · rfl

end Database

/-- **A change of a bucket ends**, and has failed if the bucket cannot be decoded. -/
theorem BucketEdit.completes (db : Database) {m : Membership}
    (tries : m.index.retry.maxAttempts ≠ some 0) (change : Bucket.Change) :
    Completes db (start m.index m.indexKey change m.document)
      (if ((db.backend.store m.index.buckets).bucket? m.indexKey).isSome then .ok ()
        else .error .decode) (db.edited m change) := by
  have begun : start m.index m.indexKey change m.document
      = .waiting ⟨m.index, m.indexKey, change, m.document,
          (m.index.retry.attempts m.indexKey).counted, none⟩ := by
    unfold start again
    rw [RetryPolicy.begin_attempts tries]
  rw [begun]
  refine .waits (db.perform_get _ _) ?_
  unfold Database.edited
  cases hb : (db.backend.store m.index.buckets).bucket? m.indexKey with
  | none =>
      have undecodable := @Bucket.plan_of_documents?_eq_none change m.document _ hb
      simp only [Task.resume, undecodable]
      exact .finished db _
  | some list =>
      have plan := @Bucket.plan_eq change m.document _ _ hb
      simp only [Task.resume, plan]
      by_cases same : change.apply m.document list = list
      · simp only [if_pos same]
        exact .finished db _
      · simp only [if_neg same]
        -- the bucket is still what was read, so that the write goes through at once
        have accepts := Bucket.accepts_rewrite ((db.backend.store m.index.buckets).get? m.indexKey)
          (change.apply m.document list)
        have performed := db.perform_write accepts
        rw [performed]
        refine .waits performed ?_
        have written : ∀ (edit : BucketEdit) (write : SlotWrite) (counter : Counter),
            edit.write = some write →
              Task.resume edit (write.reply (.ok counter)) = .finished (.ok ()) := by
          intro edit write counter hw
          cases write <;> simp only [Task.resume, hw, SlotWrite.reply] <;> rfl
        rw [written _ _ _ rfl]
        exact .finished _ _

/-! ### Settling -/

/-- The database after a membership was made right. -/
def Database.settled (db : Database) (m : Membership) : Database :=
  db.edited m (if m.wanted ((db.backend.store m.index.documents).get? (Utf8.encode m.document))
    then .add else .remove)

/-- **A settling ends**, and has failed if the bucket cannot be decoded. -/
theorem Settling.completes (db : Database) {m : Membership}
    (tries : m.index.retry.maxAttempts ≠ some 0) (apart : m.index.buckets ≠ m.index.documents) :
    Completes db (start m)
      (if ((db.backend.store m.index.buckets).bucket? m.indexKey).isSome then .ok ()
        else .error .decode) (db.settled m) := by
  have begun : start m
      = .waiting ⟨m, (m.index.retry.attempts m.indexKey).counted, .before⟩ := by
    unfold start again
    rw [RetryPolicy.begin_attempts tries]
  rw [begun]
  refine .waits (db.perform_get _ _) ?_
  have gone : ∀ stored, Task.resume
      (⟨m, (m.index.retry.attempts m.indexKey).counted, .before⟩ : Settling)
      (.document (.ok stored)) = _ := fun stored => edited_eq_andThen _ _ _
  rw [gone]
  refine (BucketEdit.completes db tries _).bind (fun _ => rfl) ?_ ?_
  · exact fun edit reply => edited_eq_andThen _ _ _
  · by_cases decodable : ((db.backend.store m.index.buckets).bucket? m.indexKey).isSome
    · -- the document is read again, and has not been written meanwhile
      rw [if_pos decodable]
      refine .waits (Database.perform_get _ _ _) ?_
      have same := congrArg (fun store => (store.get? (Utf8.encode m.document)).map
        Versioned.counter) (@Database.store_edited_of_ne db m (if m.wanted ((db.backend.store
          m.index.documents).get? (Utf8.encode m.document)) then .add else .remove) _ apart.symm)
      rw [show Task.resume _ _ = .finished (.ok ()) from if_pos same]
      exact .finished _ _
    · rw [if_neg decodable]
      exact .finished _ _

/-! ### Several settlings -/

/-- The database after several memberships were made right, one after another. -/
def Database.settledAll (db : Database) (memberships : List Membership) : Database :=
  memberships.foldl Database.settled db

/-- **A queue of settlings ends.** -/
theorem SettleQueue.completes (db : Database) {memberships : List Membership}
    (tries : ∀ m ∈ memberships, m.index.retry.maxAttempts ≠ some 0)
    (apart : ∀ m ∈ memberships, m.index.buckets ≠ m.index.documents) :
    Completes db (start memberships) () (db.settledAll memberships) := by
  induction memberships generalizing db with
  | nil => exact .finished db ()
  | cons m rest ih =>
      rw [start_cons]
      refine (Settling.completes db (tries m List.mem_cons_self)
        (apart m List.mem_cons_self)).bind (fun _ => rfl) ?_ ?_
      · exact fun current reply => resume_eq_andThen ⟨current, rest⟩ reply
      · exact ih (db.settled m) (fun n hn => tries n (List.mem_cons_of_mem m hn))
          fun n hn => apart n (List.mem_cons_of_mem m hn)

/-! ### Documents that change -/

/-- The database after several changes of buckets, one after another. -/
def Database.editedAll (db : Database) (changes : List (Membership × Bucket.Change)) : Database :=
  changes.foldl (fun db c => db.edited c.1 c.2) db

namespace IndexSync

/-- **The changes of the buckets are made one after another**, and the document has not been
written meanwhile. -/
theorem completes_edit (db : Database) (sync : IndexSync) (touched : List Membership)
    {changes : List (Membership × Bucket.Change)}
    (tries : ∀ c ∈ changes, c.1.index.retry.maxAttempts ≠ some 0)
    (apart : ∀ c ∈ changes, c.1.index.buckets ≠ sync.table.documents)
    (written : ((db.backend.store sync.table.documents).get? (Utf8.encode sync.document)).map
      Versioned.counter = sync.written) :
    Completes db (.waiting (sync.edit touched changes)) () (db.editedAll changes) := by
  induction changes generalizing db with
  | nil =>
      refine .waits (db.perform_get _ _) ?_
      rw [show Task.resume (sync.edit touched []) _ = .finished () from if_pos written]
      exact .finished db ()
  | cons c rest ih =>
      obtain ⟨m, change⟩ := c
      rw [edit_cons]
      refine (BucketEdit.completes db (tries _ List.mem_cons_self) change).bind (fun _ => rfl) ?_ ?_
      · exact fun edit reply => sync.resume_editing edit rest touched reply
      · -- the change has written a bucket, and the document is what it was
        refine ih (db.edited m change) (fun c hc => tries c (List.mem_cons_of_mem _ hc))
          (fun c hc => apart c (List.mem_cons_of_mem _ hc)) ?_
        rw [Database.store_edited_of_ne (apart _ List.mem_cons_self).symm]
        exact written

/-- **The indexes are brought in line with a document.** -/
theorem completes (db : Database) (table : Table) (document : String) (old new : Bytes)
    {written : Option Counter}
    (tries : ∀ index ∈ (db.indexesOf table.id).entries.map (·.2), index.retry.maxAttempts ≠ some 0)
    (apart : ∀ index ∈ (db.indexesOf table.id).entries.map (·.2),
      index.buckets ≠ table.documents)
    (same : ((db.backend.store table.documents).get? (Utf8.encode document)).map
      Versioned.counter = written) :
    Completes db (.waiting (start table document old new written)) ()
      (db.editedAll (changes ((db.indexesOf table.id).entries.map (·.2)) document old new)) := by
  refine .waiting ?_
  change Completes db (Task.resume (start table document old new written)
    (.indexes ((db.indexesOf table.id).entries.map (·.2)))) () _
  have listed : ∀ c ∈ changes ((db.indexesOf table.id).entries.map (·.2)) document old new,
      c.1.index ∈ (db.indexesOf table.id).entries.map (·.2) := fun c hc => (of_mem_changes hc).1
  cases hc : changes ((db.indexesOf table.id).entries.map (·.2)) document old new with
  | nil =>
      rw [resume_reading_of_nil rfl hc]
      exact .finished db ()
  | cons c rest =>
      rw [hc] at listed
      rw [resume_reading_of_cons rfl hc]
      exact completes_edit db _ _ (fun d hd => tries _ (listed d hd))
        (fun d hd => apart _ (listed d hd)) same

end IndexSync

end DocStore
