/-
Deleting documents.

* `DocumentDelete` — the operation: read the key, delete it if nobody wrote it in between, and
  bring the indexes in line; if somebody did, start over, or give up if the caller expected a
  counter;
* `Table.delete`, `Table.deleteIf` — a document deleted whatever it is, and one deleted only at the
  expected counter.

A document that does not exist is deleted without touching anything.
-/

import DocStore.Index.Sync

set_option autoImplicit false

namespace DocStore

/-- What deleting a document is in the middle of. -/
inductive DocumentDelete.Stage
  /-- The key is read. -/
  | reading
  /-- The key is deleted at a counter; these bytes were there before. -/
  | erasing (old : Bytes) (counter : Counter)
  /-- The key was deleted, and the indexes are brought in line. -/
  | syncing (sync : IndexSync)

/-- A document that is being deleted. -/
structure DocumentDelete where
  /-- The table. -/
  table : Table
  /-- The key of the document. -/
  key : String
  /-- The counter that the caller expects, if any. -/
  expected : Option Counter
  /-- The attempts so far. -/
  attempts : Attempts
  /-- What is under way. -/
  stage : DocumentDelete.Stage

namespace DocumentDelete

/-- Begins an attempt by reading the key. -/
def again (d : DocumentDelete) : Progress DocumentDelete (Except Error Unit) :=
  match d.attempts.begin with
  | .ok attempts => .waiting { d with attempts, stage := .reading }
  | .error e => .finished (.error e)

/-- Begins to delete a document. -/
def start (table : Table) (key : String) (expected : Option Counter) :
    Progress DocumentDelete (Except Error Unit) :=
  again ⟨table, key, expected, table.retry.attempts (Utf8.encode key), .reading⟩

/-- Goes on with the indexes. -/
def synced (d : DocumentDelete) :
    Progress IndexSync Unit → Progress DocumentDelete (Except Error Unit) :=
  Progress.map (fun sync => { d with stage := .syncing sync }) .ok

instance : Task DocumentDelete (Except Error Unit) where
  call d :=
    match d.stage with
    | .reading => .get d.table.documents (Utf8.encode d.key)
    | .erasing _ counter => .compareAndDelete d.table.documents (Utf8.encode d.key) counter
    | .syncing sync => Task.call sync
  resume d reply :=
    match d.stage, reply with
    | .reading, .document (.error e) => .finished (.error e)
    | .reading, .document (.ok none) => .finished (.ok ())
    | .reading, .document (.ok (some stored)) =>
        if d.expected.any (· != stored.counter) then .finished (.error .counterChanged)
        else .waiting { d with stage := .erasing stored.value stored.counter }
    | .erasing old _, .done (.ok ()) =>
        d.synced (.waiting (IndexSync.start d.table d.key old [] none))
    | .erasing _ _, .done (.error .swapMismatch) =>
        if d.expected.isSome then .finished (.error .counterChanged) else d.again
    | .erasing _ _, .done (.error e) => .finished (.error e)
    | .syncing sync, reply => d.synced (Task.resume sync reply)
    | _, _ => .waiting d

end DocumentDelete

namespace Table

/-- Deletes a document, if it exists. -/
def delete (table : Table) (key : String) : Progress DocumentDelete (Except Error Unit) :=
  DocumentDelete.start table key none

/-- Deletes a document, if it exists, at the expected counter. -/
def deleteIf (table : Table) (key : String) (expected : Counter) :
    Progress DocumentDelete (Except Error Unit) :=
  DocumentDelete.start table key (some expected)

end Table

end DocStore
