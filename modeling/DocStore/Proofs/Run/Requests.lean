/-
What can be asked of a table.

The operations on a table are brought together here, so that runs can mix them: what is asked for,
the operation that it begins, and what comes of it.

* `DocumentRequest`, `DocumentTask`, `DocumentOutcome` — operations on one document;
* `TableRequest`, `TableTask`, `TableOutcome` — these, and creating and dropping indexes;
* `DocumentRequest.start`, `TableRequest.start` — how each begins;
* `DocumentRequest.key`, `DocumentTask.key`, `TableTask.document?` — the document that is
  concerned;
* `TableRequest.Names`, `TableRequest.drops` — which requests a run is about.
-/

import DocStore.Proofs.Run.System
import DocStore.Table.Delete
import DocStore.Table.Update
import Mathlib.Data.Set.Defs

set_option autoImplicit false

namespace DocStore

/-! ### Operations on documents -/

/-- What is asked of one document. -/
inductive DocumentRequest
  /-- To read it at a shape. -/
  | get (key : String) (shape : Shape)
  /-- To write it, whatever is there. -/
  | set (key : String) (value : Value)
  /-- To write it over an expected counter. -/
  | setIf (key : String) (value : Value) (expected : Counter)
  /-- To delete it. -/
  | delete (key : String)
  /-- To delete it at an expected counter. -/
  | deleteIf (key : String) (expected : Counter)
  /-- To modify it. -/
  | update (key : String) (modifier : Modifier)

/-- An operation on one document that is under way. -/
inductive DocumentTask
  | reading (task : DocumentDecode)
  | writing (task : DocumentWrite)
  | deleting (task : DocumentDelete)
  | updating (task : DocumentUpdate)

/-- What came of an operation on one document. -/
inductive DocumentOutcome
  | read (result : Except Error (Versioned Value))
  | written (result : Except Error Counter)
  | deleted (result : Except Error Unit)
  | updated (result : Except UpdateError Counter)

/-- The document that is concerned. -/
def DocumentRequest.key : DocumentRequest → String
  | .get key _ => key
  | .set key _ => key
  | .setIf key _ _ => key
  | .delete key => key
  | .deleteIf key _ => key
  | .update key _ => key

/-- How an operation on a document of a table begins. -/
def DocumentRequest.start (table : Table) :
    DocumentRequest → Progress DocumentTask DocumentOutcome
  | .get key shape => (table.get key shape).map .reading .read
  | .set key value => (table.set key value).map .writing .written
  | .setIf key value expected => (table.setIf key value expected).map .writing .written
  | .delete key => (table.delete key).map .deleting .deleted
  | .deleteIf key expected => (table.deleteIf key expected).map .deleting .deleted
  | .update key modifier => (table.update key modifier).map .updating .updated

namespace DocumentTask

instance : Task DocumentTask DocumentOutcome where
  call
    | .reading task => Task.call task
    | .writing task => Task.call task
    | .deleting task => Task.call task
    | .updating task => Task.call task
  resume
    | .reading task, reply => (Task.resume task reply).map .reading .read
    | .writing task, reply => (Task.resume task reply).map .writing .written
    | .deleting task, reply => (Task.resume task reply).map .deleting .deleted
    | .updating task, reply => (Task.resume task reply).map .updating .updated

/-- The document that is concerned. -/
def key : DocumentTask → String
  | .reading task => task.read.key
  | .writing task => task.key
  | .deleting task => task.key
  | .updating task => task.key

end DocumentTask

/-! ### Operations on a table -/

/-- What is asked of a table. -/
inductive TableRequest
  /-- Something of one of its documents. -/
  | document (request : DocumentRequest)
  /-- A new index of the values at a path. -/
  | createIndex (name path : String)
  /-- To drop an index. -/
  | dropIndex (name : String)

/-- An operation on a table that is under way. -/
inductive TableTask
  | document (task : DocumentTask)
  | creating (task : IndexCreation)
  | dropping (task : IndexDrop)

/-- What came of an operation on a table. -/
inductive TableOutcome
  | document (outcome : DocumentOutcome)
  | created (result : Except Error Index)
  | dropped (result : Except Error Unit)

/-- How an operation on a table begins. -/
def TableRequest.start (table : Table) : TableRequest → Progress TableTask TableOutcome
  | .document request => (request.start table).map .document .document
  | .createIndex name path => (table.createIndex name path).map .creating .created
  | .dropIndex name => (table.dropIndex name).map .dropping .dropped

namespace TableTask

instance : Task TableTask TableOutcome where
  call
    | .document task => Task.call task
    | .creating task => Task.call task
    | .dropping task => Task.call task
  resume
    | .document task, reply => (Task.resume task reply).map .document .document
    | .creating task, reply => (Task.resume task reply).map .creating .created
    | .dropping task, reply => (Task.resume task reply).map .dropping .dropped

/-- The document on which an operation works, if it works on one. -/
def document? : TableTask → Option String
  | .document task => some task.key
  | .creating _ => none
  | .dropping _ => none

end TableTask

/-- The document on which an operation works, if it works on one. -/
def TableRequest.document? : TableRequest → Option String
  | .document request => some request.key
  | .createIndex _ _ => none
  | .dropIndex _ => none

namespace TableRequest

/-- The document that is concerned, if there is one, is among these. -/
def Names (documents : Set String) (request : TableRequest) : Prop :=
  ∀ key, request.document? = some key → key ∈ documents

instance (documents : Set String) [DecidablePred (· ∈ documents)] (request : TableRequest) :
    Decidable (request.Names documents) :=
  decidable_of_iff (request.document?.all (· ∈ documents)) <| by
    unfold Names
    cases request.document? <;> simp

/-- Whether an index is to be dropped. -/
def drops : TableRequest → Bool
  | .dropIndex _ => true
  | _ => false

end TableRequest

end DocStore
