/-
Writing documents.

* `DocumentWrite` — the operation: read the key, write it if nobody else did in between, and bring
  the indexes in line; if somebody did, start over, or give up if the caller expected a counter;
* `Table.set`, `Table.setIf` — a document written whatever is there, and one written only over the
  expected counter.

The document is the unit of success: once it is written, nothing that happens to an index makes
the operation fail.
-/

import DocStore.Index.Sync

set_option autoImplicit false

namespace DocStore

/-- What writing a document is in the middle of. -/
inductive DocumentWrite.Stage
  /-- The key is read. -/
  | reading
  /-- The key is written; these bytes were there before. -/
  | writing (old : Bytes) (write : SlotWrite)
  /-- The key was written at this counter, and the indexes are brought in line. -/
  | syncing (counter : Counter) (sync : IndexSync)

/-- A document that is being written. -/
structure DocumentWrite where
  /-- The table. -/
  table : Table
  /-- The key of the document. -/
  key : String
  /-- The bytes to be written. -/
  data : Bytes
  /-- The counter that the caller expects, if any. -/
  expected : Option Counter
  /-- The attempts so far. -/
  attempts : Attempts
  /-- What is under way. -/
  stage : DocumentWrite.Stage

namespace DocumentWrite

/-- Begins an attempt by reading the key. -/
def again (w : DocumentWrite) : Progress DocumentWrite (Except Error Counter) :=
  match w.attempts.begin with
  | .ok attempts => .waiting { w with attempts, stage := .reading }
  | .error e => .finished (.error e)

/-- Begins to write a value. -/
def start (table : Table) (key : String) (value : Value) (expected : Option Counter) :
    Progress DocumentWrite (Except Error Counter) :=
  match value.encode? with
  | some data =>
      again ⟨table, key, data, expected, table.retry.attempts (Utf8.encode key), .reading⟩
  | none => .finished (.error .encode)

/-- The write for what is stored now, with the bytes that it replaces. -/
def plan (w : DocumentWrite) : Option (Versioned Bytes) → Except Error (Bytes × SlotWrite)
  | some stored =>
      if w.expected.any (· != stored.counter) then .error .counterChanged
      else .ok (stored.value, .replace w.data stored.counter)
  | none =>
      if w.expected.isSome then .error .counterChanged
      else .ok ([], .create w.data)

/-- Goes on with the indexes. -/
def synced (w : DocumentWrite) (counter : Counter) :
    Progress IndexSync Unit → Progress DocumentWrite (Except Error Counter) :=
  Progress.map (fun sync => { w with stage := .syncing counter sync }) fun _ => .ok counter

instance : Task DocumentWrite (Except Error Counter) where
  call w :=
    match w.stage with
    | .reading => .get w.table.documents (Utf8.encode w.key)
    | .writing _ write => write.call w.table.documents (Utf8.encode w.key)
    | .syncing _ sync => Task.call sync
  resume w reply :=
    match w.stage, reply with
    | .reading, .document (.error e) => .finished (.error e)
    | .reading, .document (.ok stored) =>
        match w.plan stored with
        | .ok (old, write) => .waiting { w with stage := .writing old write }
        | .error e => .finished (.error e)
    | .writing old _, .counter (.ok counter) =>
        w.synced counter (.waiting (IndexSync.start w.table w.key old w.data (some counter)))
    | .writing _ _, .counter (.error .swapMismatch) =>
        if w.expected.isSome then .finished (.error .counterChanged) else w.again
    | .writing _ _, .counter (.error e) => .finished (.error e)
    | .syncing counter sync, reply => w.synced counter (Task.resume sync reply)
    | _, _ => .waiting w

end DocumentWrite

namespace Table

/-- Writes a document, whatever is there, and gives its new counter. -/
def set (table : Table) (key : String) (value : Value) :
    Progress DocumentWrite (Except Error Counter) :=
  DocumentWrite.start table key value none

/-- Writes a document that is at the expected counter, and gives its new one. -/
def setIf (table : Table) (key : String) (value : Value) (expected : Counter) :
    Progress DocumentWrite (Except Error Counter) :=
  DocumentWrite.start table key value (some expected)

end Table

end DocStore
