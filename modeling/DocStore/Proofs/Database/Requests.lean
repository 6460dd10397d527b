/-
What can be asked of a database.

All operations are brought together here, so that runs can mix them: those on tables that were
given out, the making and dropping of tables, and everything that only reads.  Ranges are no
operations but are pulled and closed in one step, and others may use the backend as well; what they
may do is said here too.

* `Query`, `QueryTask`, `QueryOutcome` — operations that only read;
* `DatabaseRequest`, `DatabaseTask`, `DatabaseOutcome` — all operations;
* `QueryTask.call_reads` — a query makes no other calls than those that read;
* `Completes.slots_eq` — an operation that makes no others leaves the slots of all stores alone;
* `Database.Elsewhere` — what can happen to a database besides its operations, as long as nobody
  writes buckets.
-/

import DocStore.Database.Catalog
import DocStore.Proofs.Run.Completion
import DocStore.Proofs.Run.Requests

set_option autoImplicit false

namespace DocStore

deriving instance DecidableEq for Table

/-! ### Operations that only read -/

/-- What is asked of a table or an index that is not changed by it. -/
inductive Query
  /-- A document as bytes. -/
  | getRaw (table : Table) (key : String)
  /-- The documents between two bounds. -/
  | between (table : Table) (lower upper : Bound) (reverse : Bool)
  /-- The documents filed under an index key. -/
  | bucket (index : Index) (indexKey : Bytes)
  /-- The documents filed under a value. -/
  | keys (index : Index) (value : Value)
  /-- Their entries. -/
  | getAll (index : Index) (value : Value)
  /-- The first of them. -/
  | one (index : Index) (value : Value) (shape : Shape)
  /-- The documents filed between two bounds. -/
  | filed (index : Index) (lower upper : Bound) (reverse : Bool)
  /-- The next of these. -/
  | pull (range : IndexRange)

/-- A query that is under way. -/
inductive QueryTask
  | reading (task : DocumentRead)
  | opening (task : RangeOpening)
  | listing (task : BucketRead)
  | loading (task : BucketLoad)
  | seeking (task : BucketFirst)
  | walking (task : IndexOpening)
  | pulling (task : IndexPull)

/-- What came of a query. -/
inductive QueryOutcome
  | read (result : Except Error (Versioned Bytes))
  | opened (result : Except Error Range)
  | listed (result : Except Error (List String))
  | loaded (result : Except Error (List Entry))
  | sought (result : Except Error (String × Versioned Value))
  | walked (result : Except Error IndexRange)
  | pulled (result : IndexPull.Result)

/-- How a query begins. -/
def Query.start : Query → Progress QueryTask QueryOutcome
  | .getRaw table key => (table.getRaw key).map .reading .read
  | .between table lower upper reverse => (table.between lower upper reverse).map .opening .opened
  | .bucket index indexKey => (index.bucket indexKey).map .listing .listed
  | .keys index value => (index.keys value).map .listing .listed
  | .getAll index value => (index.getAll value).map .loading .loaded
  | .one index value shape => (index.one value shape).map .seeking .sought
  | .filed index lower upper reverse => (index.between lower upper reverse).map .walking .walked
  | .pull range => range.pull.map .pulling .pulled

instance : Task QueryTask QueryOutcome where
  call
    | .reading task => Task.call task
    | .opening task => Task.call task
    | .listing task => Task.call task
    | .loading task => Task.call task
    | .seeking task => Task.call task
    | .walking task => Task.call task
    | .pulling task => Task.call task
  resume
    | .reading task, reply => (Task.resume task reply).map .reading .read
    | .opening task, reply => (Task.resume task reply).map .opening .opened
    | .listing task, reply => (Task.resume task reply).map .listing .listed
    | .loading task, reply => (Task.resume task reply).map .loading .loaded
    | .seeking task, reply => (Task.resume task reply).map .seeking .sought
    | .walking task, reply => (Task.resume task reply).map .walking .walked
    | .pulling task, reply => (Task.resume task reply).map .pulling .pulled

/-- A call that reads a key, or opens or gives back a cursor. -/
def Call.Reads : Call → Prop
  | .get _ _ => True
  | .iter _ _ => True
  | .release _ => True
  | _ => False

/-- A query makes no other calls than those that read. -/
theorem QueryTask.call_reads (task : QueryTask) : (Task.call task).Reads := by
  cases task with
  | reading task => trivial
  | opening task => trivial
  | listing task => trivial
  | loading task =>
      obtain ⟨index, stage⟩ := task
      cases stage <;> trivial
  | seeking task =>
      obtain ⟨index, shape, stage⟩ := task
      cases stage <;> trivial
  | walking task => trivial
  | pulling task =>
      obtain ⟨range, stage⟩ := task
      cases stage <;> trivial

/-- A call that reads leaves the slots of all stores alone. -/
theorem Database.slots_perform_of_reads (db : Database) {call : Call} (fault : Option Error)
    (reads : call.Reads) (id : StoreId) :
    ((db.perform call fault).2.backend.store id).slots = (db.backend.store id).slots := by
  rcases db.perform_cases call fault with ⟨e, -, he⟩ | hf
  · rw [he]
  rw [hf]
  cases call with
  | get target key => rfl
  | iter target reverse => exact (slots_putStore_cursors db.backend target id _).1
  | release target => exact (slots_putStore_cursors db.backend target id _).1
  | create | compareAndSet | compareAndDelete | readIndexes | registerIndex | unregisterIndex
  | takeIndexes | registerTable | unregisterTable | dropKeyspace | modify => exact reads.elim

/-- An operation whose calls all read leaves the slots of all stores alone. -/
theorem Completes.slots_eq {τ α : Type} [Task τ α] {db after : Database}
    {progress : Progress τ α} {result : α} (reads : ∀ task : τ, (Task.call task).Reads)
    (h : Completes db progress result after) (id : StoreId) :
    (after.backend.store id).slots = (db.backend.store id).slots := by
  induction h with
  | finished db result => rfl
  | @waiting db _ task result rest ih =>
      exact ih.trans (db.slots_perform_of_reads none (reads task) id)

/-! ### All operations -/

/-- What is asked of a database. -/
inductive DatabaseRequest
  /-- A new table. -/
  | createTable (name : String)
  /-- To drop a table. -/
  | dropTable (name : String)
  /-- Something of a table. -/
  | table (table : Table) (request : TableRequest)
  /-- Something that only reads. -/
  | query (query : Query)

/-- An operation that is under way. -/
inductive DatabaseTask
  | creating (task : TableCreation)
  | dropping (task : TableDrop)
  | table (task : TableTask)
  | query (task : QueryTask)

/-- What came of an operation. -/
inductive DatabaseOutcome
  | created (result : Except Error Table)
  | dropped (result : Except Error Unit)
  | table (outcome : TableOutcome)
  | query (outcome : QueryOutcome)

/-- How an operation begins. -/
def DatabaseRequest.start : DatabaseRequest → Progress DatabaseTask DatabaseOutcome
  | .createTable name => (DocStore.createTable name).map .creating .created
  | .dropTable name => (DocStore.dropTable name).map .dropping .dropped
  | .table owner request => (request.start owner).map .table .table
  | .query asked => asked.start.map .query .query

instance : Task DatabaseTask DatabaseOutcome where
  call
    | .creating task => Task.call task
    | .dropping task => Task.call task
    | .table task => Task.call task
    | .query task => Task.call task
  resume
    | .creating task, reply => (Task.resume task reply).map .creating .created
    | .dropping task, reply => (Task.resume task reply).map .dropping .dropped
    | .table task, reply => (Task.resume task reply).map .table .table
    | .query task, reply => (Task.resume task reply).map .query .query

/-! ### What else can happen -/

/-- What can happen to a database besides its operations, as long as nobody writes buckets: ranges
are pulled and closed, and others use the backend.  What they write under has a text among these. -/
inductive Database.Elsewhere (documents : Set String) (db : Database) : Database → Prop
  /-- A range is pulled. -/
  | pull (range : Range) : Elsewhere documents db (db.pull range).2.2
  /-- A range is closed. -/
  | close (range : Range) : Elsewhere documents db (db.close range).2
  /-- A key is written in a store without buckets. -/
  | set {id : StoreId} {key : Bytes} (value : Bytes)
      (apart : ∀ table index, (db.backend.store id).keyspace ≠ Name.buckets table index)
      (listed : Utf8.lossy key ∈ documents) :
      Elsewhere documents db (db.putStore id ((db.backend.store id).set key value).2)
  /-- A key is deleted in a store without buckets. -/
  | delete {id : StoreId} (key : Bytes)
      (apart : ∀ table index, (db.backend.store id).keyspace ≠ Name.buckets table index) :
      Elsewhere documents db (db.putStore id ((db.backend.store id).delete key))
  /-- A keyspace is opened. -/
  | openKeyspace (name : String) :
      Elsewhere documents db (db.putBackend (db.backend.openKeyspace name).2)
  /-- A keyspace is dropped. -/
  | dropKeyspace (name : String) :
      Elsewhere documents db (db.putBackend (db.backend.dropKeyspace name))

end DocStore
