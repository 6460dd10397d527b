/-
Bringing the indexes in line with a document that has changed.

* `IndexSync` — the operation: look up the indexes of the table, take the document out of the
  buckets that it leaves, put it into those that it enters, and read it again; if somebody wrote it
  meanwhile, make each of these memberships right.

The buckets are changed one after another, whatever becomes of each: a bucket that cannot be
changed costs the document only that one membership.
-/

import DocStore.Index.Settle

set_option autoImplicit false

namespace DocStore

/-- What bringing indexes in line is in the middle of. -/
inductive IndexSync.Stage
  /-- The indexes are looked up; the bytes of the document have changed from `old` to `new`. -/
  | reading (old new : Bytes)
  /-- A bucket is changed; further changes are to come. -/
  | editing (edit : BucketEdit) (rest : List (Membership × Bucket.Change))
      (touched : List Membership)
  /-- The document is read again. -/
  | rechecking (touched : List Membership)
  /-- The memberships are made right. -/
  | settling (queue : SettleQueue)

/-- The indexes of a table that are brought in line with one document. -/
structure IndexSync where
  /-- The table. -/
  table : Table
  /-- The document. -/
  document : String
  /-- The counter of the change; none if it was a deletion. -/
  written : Option Counter
  /-- What is under way. -/
  stage : IndexSync.Stage

namespace IndexSync

/-- The memberships that a change of a document touches: first those that it ends, then those that
it begins. -/
def changes (indexes : List Index) (document : String) (old new : Bytes) :
    List (Membership × Bucket.Change) :=
  let diff := IndexDiff.between old new (indexes.map fun i => (i.name, i.path))
  let named (change : Bucket.Change) (b : BucketId) : Option (Membership × Bucket.Change) :=
    (indexes.find? fun i => i.name == b.index).map fun i => (⟨i, b.indexKey, document⟩, change)
  diff.removals.filterMap (named .remove) ++ diff.additions.filterMap (named .add)

/-- Begins to bring the indexes in line with a document. -/
def start (table : Table) (document : String) (old new : Bytes) (written : Option Counter) :
    IndexSync :=
  ⟨table, document, written, .reading old new⟩

/-- Begins the next change of a bucket that has an attempt; after the last one the document is
read again. -/
def edit (sync : IndexSync) (touched : List Membership) :
    List (Membership × Bucket.Change) → IndexSync
  | [] => { sync with stage := .rechecking touched }
  | (m, change) :: rest =>
      match BucketEdit.start m.index m.indexKey change m.document with
      | .waiting edit => { sync with stage := .editing edit rest touched }
      | .finished _ => sync.edit touched rest

/-- Goes on with the memberships that are made right. -/
def settled (sync : IndexSync) : Progress SettleQueue Unit → Progress IndexSync Unit :=
  Progress.map (fun queue => { sync with stage := .settling queue }) id

instance : Task IndexSync Unit where
  call sync :=
    match sync.stage with
    | .reading _ _ => .readIndexes sync.table.id
    | .editing edit _ _ => Task.call edit
    | .rechecking _ => .get sync.table.documents (Utf8.encode sync.document)
    | .settling queue => Task.call queue
  resume sync reply :=
    match sync.stage, reply with
    | .reading old new, .indexes indexes =>
        match changes indexes sync.document old new with
        | [] => .finished ()
        | changes => .waiting (sync.edit (changes.map (·.1)) changes)
    | .editing edit rest touched, reply =>
        match Task.resume edit reply with
        | .waiting edit => .waiting { sync with stage := .editing edit rest touched }
        | .finished _ => .waiting (sync.edit touched rest)
    | .rechecking _, .document (.error _) => .finished ()
    | .rechecking touched, .document (.ok stored) =>
        if stored.map Versioned.counter = sync.written then .finished ()
        else sync.settled (SettleQueue.start touched)
    | .settling queue, reply => sync.settled (Task.resume queue reply)
    | _, _ => .waiting sync

end IndexSync

end DocStore
