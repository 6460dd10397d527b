/-
Read-modify-write of documents.

* `Modifier` — a function on documents that may give up;
* `DocumentUpdate` — the operation: read the document, apply the modifier, and write the result
  over the counter that was read; if somebody wrote in between, start over from a fresh reading;
* `Table.update` — the update of one document.
-/

import DocStore.Table.Read
import DocStore.Table.Write

set_option autoImplicit false

namespace DocStore

/-- A function on documents of a shape; it gives up with a reason. -/
structure Modifier where
  /-- The shape at which the document is read. -/
  shape : Shape
  /-- The new document. -/
  apply : Value → Except String Value

/-- What updating a document is in the middle of. -/
inductive DocumentUpdate.Stage
  /-- The document is read. -/
  | reading
  /-- The modifier is applied to this document. -/
  | modifying (current : Versioned Value)
  /-- The result is written. -/
  | writing (write : DocumentWrite)

/-- A document that is being updated. -/
structure DocumentUpdate where
  /-- The table. -/
  table : Table
  /-- The key of the document. -/
  key : String
  /-- The modifier. -/
  modifier : Modifier
  /-- The attempts so far. -/
  attempts : Attempts
  /-- What is under way. -/
  stage : DocumentUpdate.Stage

namespace DocumentUpdate

/-- Begins an attempt by reading the document. -/
def again (u : DocumentUpdate) : Progress DocumentUpdate (Except UpdateError Counter) :=
  match u.attempts.begin with
  | .ok attempts => .waiting { u with attempts, stage := .reading }
  | .error e => .finished (.error (.store e))

/-- Begins to update a document. -/
def start (table : Table) (key : String) (modifier : Modifier) :
    Progress DocumentUpdate (Except UpdateError Counter) :=
  again ⟨table, key, modifier, table.retry.attempts (Utf8.encode key), .reading⟩

/-- Goes on with the writing: a lost race starts over. -/
def written (u : DocumentUpdate) :
    Progress DocumentWrite (Except Error Counter) →
      Progress DocumentUpdate (Except UpdateError Counter)
  | .waiting write => .waiting { u with stage := .writing write }
  | .finished (.ok counter) => .finished (.ok counter)
  | .finished (.error .counterChanged) => u.again
  | .finished (.error e) => .finished (.error (.store e))

instance : Task DocumentUpdate (Except UpdateError Counter) where
  call u :=
    match u.stage with
    | .reading => .get u.table.documents (Utf8.encode u.key)
    | .modifying _ => .modify
    | .writing write => Task.call write
  resume u reply :=
    match u.stage, reply with
    | .reading, .document (.error e) => .finished (.error (.store e))
    | .reading, .document (.ok none) => .finished (.error (.store .notFound))
    | .reading, .document (.ok (some stored)) =>
        match stored.decode u.modifier.shape with
        | .ok current => .waiting { u with stage := .modifying current }
        | .error e => .finished (.error (.store e))
    | .modifying current, .done _ =>
        match u.modifier.apply current.value with
        | .ok value => u.written (u.table.setIf u.key value current.counter)
        | .error reason => .finished (.error (.aborted reason))
    | .writing write, reply => u.written (Task.resume write reply)
    | _, _ => .waiting u

end DocumentUpdate

/-- Reads a document, applies a modifier and writes the result, and gives its new counter. -/
def Table.update (table : Table) (key : String) (modifier : Modifier) :
    Progress DocumentUpdate (Except UpdateError Counter) :=
  DocumentUpdate.start table key modifier

end DocStore
