/-
The database: tables, their indexes, and the stores in which both are kept.

* `Database` — the whole state; `Database.empty` — a fresh one;
* `Database.perform` — what a call does to the state, and the reply to it; a call that is made to
  fail does nothing;
* `Database.site?` — the access to the storage that a call amounts to, if any.

Making a table or an index and entering its name happen in one call: nobody sees the one without
the other.
-/

import DocStore.Config
import DocStore.Index.Walk
import DocStore.Name
import DocStore.Table.Indexing

set_option autoImplicit false

namespace DocStore

/-- The state of a database. -/
structure Database where
  /-- The settings. -/
  config : Config
  /-- The stores. -/
  backend : Backend
  /-- The indexes of every table that was ever made; the position is the number of the table. -/
  indexes : List (SortedMap String Index)
  /-- The tables, by name. -/
  catalog : SortedMap String Table

/-- The ways to access the storage. -/
inductive Access
  | get
  | set
  | create
  | delete
  | compareAndSet
  | compareAndDelete
  | iter
  | openKeyspace
  | dropKeyspace
  deriving DecidableEq

/-- One access to the storage: which keyspace, and how. -/
structure Site where
  /-- The name of the keyspace. -/
  keyspace : String
  /-- The way of access. -/
  access : Access
  deriving DecidableEq

namespace Database

/-- A database without tables. -/
def empty (config : Config) : Database :=
  ⟨config, .empty, [], .empty⟩

/-! ### Looking -/

/-- A table, if it is in the catalog. -/
def table? (db : Database) (name : String) : Option Table :=
  db.catalog.find? name

/-- The names of the tables, ascending. -/
def tables (db : Database) : List String :=
  db.catalog.keys

/-- The registered indexes of a table. -/
def indexesOf (db : Database) (table : TableId) : SortedMap String Index :=
  db.indexes[table]?.getD .empty

/-- How many documents a table has. -/
def count (db : Database) (table : Table) : Nat :=
  (db.backend.store table.documents).size

/-- How many buckets an index has. -/
def bucketCount (db : Database) (index : Index) : Nat :=
  (db.backend.store index.buckets).size

/-! ### Changing -/

/-- Replaces the indexes of a table. -/
def putIndexes (db : Database) (table : TableId) (indexes : SortedMap String Index) : Database :=
  { db with indexes := db.indexes.set table indexes }

/-- Replaces a store. -/
def putStore (db : Database) (id : StoreId) (store : Store) : Database :=
  { db with backend := db.backend.putStore id store }

/-- Replaces the backend. -/
def putBackend (db : Database) (backend : Backend) : Database :=
  { db with backend := backend }

/-- Enters a new index. -/
def addIndex (db : Database) (table : Table) (name : String) (path : FieldPath) :
    Index × Database :=
  let (buckets, backend) := db.backend.openKeyspace (Name.buckets table.name name)
  let index : Index := ⟨table.name, name, path, buckets, table.documents, table.retry⟩
  (index,
    (db.putBackend backend).putIndexes table.id ((db.indexesOf table.id).insert name index))

/-- Enters a new table. -/
def addTable (db : Database) (name : String) : Table × Database :=
  let (documents, backend) := db.backend.openKeyspace (Name.documents name)
  let table : Table := ⟨db.indexes.length, name, documents, db.config.retry⟩
  (table,
    { db with
      backend := backend
      indexes := db.indexes ++ [.empty]
      catalog := db.catalog.insert name table })

/-! ### Calls -/

/-- The access to the storage that a call amounts to; none if it makes none, as for a name that is
taken. -/
def site? (db : Database) : Call → Option Site
  | .get id _ => some ⟨(db.backend.store id).keyspace, .get⟩
  | .create id _ _ => some ⟨(db.backend.store id).keyspace, .create⟩
  | .compareAndSet id _ _ _ => some ⟨(db.backend.store id).keyspace, .compareAndSet⟩
  | .compareAndDelete id _ _ => some ⟨(db.backend.store id).keyspace, .compareAndDelete⟩
  | .iter id _ => some ⟨(db.backend.store id).keyspace, .iter⟩
  | .registerIndex table name _ =>
      match (db.indexesOf table.id).find? name with
      | some _ => none
      | none => some ⟨Name.buckets table.name name, .openKeyspace⟩
  | .registerTable name =>
      match db.table? name with
      | some _ => none
      | none => some ⟨Name.documents name, .openKeyspace⟩
  | .dropKeyspace name => some ⟨name, .dropKeyspace⟩
  | _ => none

/-- The reply to a call whose access to the storage fails. -/
def failed (call : Call) (e : Error) : Reply :=
  match call with
  | .get _ _ => .document (.error e)
  | .create _ _ _ => .counter (.error e)
  | .compareAndSet _ _ _ _ => .counter (.error e)
  | .iter _ _ => .cursor (.error e)
  | .registerIndex _ _ _ => .index (.error e)
  | .registerTable _ => .table (.error e)
  | _ => .done (.error e)

/-- The reply to a conditional write, and the state after it: a write that found another state than
it expected changes nothing. -/
def conditional (db : Database) (id : StoreId) :
    Option (Counter × Store) → Reply × Database
  | some (counter, store) => (.counter (.ok counter), db.putStore id store)
  | none => (.counter (.error .swapMismatch), db)

/-- What a call does, when its access to the storage does not fail. -/
def forward (db : Database) : Call → Reply × Database
  | .get id key => (.document (.ok ((db.backend.store id).get? key)), db)
  | .create id key value => db.conditional id ((db.backend.store id).create? key value)
  | .compareAndSet id key value expected =>
      db.conditional id ((db.backend.store id).compareAndSet? key value expected)
  | .compareAndDelete id key expected =>
      match (db.backend.store id).compareAndDelete? key expected with
      | some store => (.done (.ok ()), db.putStore id store)
      | none => (.done (.error .swapMismatch), db)
  | .iter id reverse =>
      let (cursor, backend) := db.backend.openCursor id reverse
      (.cursor (.ok cursor), db.putBackend backend)
  | .release id => (.done (.ok ()), db.putBackend (db.backend.releaseCursor id))
  | .readIndexes table => (.indexes ((db.indexesOf table).entries.map (·.2)), db)
  | .registerIndex table name path =>
      match (db.indexesOf table.id).find? name with
      | some _ => (.index (.error (.alreadyExists (Name.qualified table.name name))), db)
      | none =>
          let (index, db) := db.addIndex table name path
          (.index (.ok index), db)
  | .unregisterIndex table name =>
      match (db.indexesOf table).find? name with
      | some index => (.index (.ok index), db.putIndexes table ((db.indexesOf table).erase name))
      | none => (.index (.error .notFound), db)
  | .takeIndexes table =>
      (.indexes ((db.indexesOf table).entries.map (·.2)), db.putIndexes table .empty)
  | .registerTable name =>
      match db.table? name with
      | some _ => (.table (.error (.alreadyExists name)), db)
      | none =>
          let (table, db) := db.addTable name
          (.table (.ok table), db)
  | .unregisterTable name =>
      match db.table? name with
      | some table => (.table (.ok table), { db with catalog := db.catalog.erase name })
      | none => (.table (.error .notFound), db)
  | .dropKeyspace name => (.done (.ok ()), db.putBackend (db.backend.dropKeyspace name))
  | .modify => (.done (.ok ()), db)

/-- The reply to a call and the state after it.  If there is a fault and the call accesses the
storage, the access fails with it and nothing changes. -/
def perform (db : Database) (call : Call) (fault : Option Error) : Reply × Database :=
  match fault, db.site? call with
  | some e, some _ => (failed call e, db)
  | _, _ => db.forward call

/-! ### Ranges -/

/-- The next entry of a range, the range after it, and the state: at its end a range gives its
cursor back. -/
def pull (db : Database) (range : Range) : Except Error Entry × Range × Database :=
  match range.pull with
  | .entry e rest => (.ok e, rest, db)
  | .ended rest =>
      (.error .endOfRange, rest, db.putBackend (db.backend.releaseCursor range.store))
  | .nothing => (.error .endOfRange, range, db)

/-- Closes a range, which gives its cursor back if it has one. -/
def close (db : Database) (range : Range) : Range × Database :=
  if range.isClosed then (range, db)
  else (range.close, db.putBackend (db.backend.releaseCursor range.store))

/-- The next item of a range, for those who iterate over it: there is none at its end, and after a
failure the range is closed. -/
def next (db : Database) (range : Range) : Option (Except Error Entry) × Range × Database :=
  match db.pull range with
  | (.ok e, rest, db) => (some (.ok e), rest, db)
  | (.error .endOfRange, rest, db) => (none, rest, db)
  | (.error e, rest, db) => (some (.error e), db.close rest)

end Database

end DocStore
