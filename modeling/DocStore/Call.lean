/-
What an operation asks of the database, one call at a time.

* `Index`, `Table` — the handles through which operations are started;
* `Call`, `Reply` — one access to a store, to the backend or to the names in use, and what comes
  back from it;
* `Task`, `Progress` — an operation that is under way: it waits for the reply to one call and goes
  on from there.

Operations are data, so that they can be interleaved: whoever drives several tasks performs the
call of any of them and hands it the reply, and between two calls nothing of an operation happens.
-/

import DocStore.Backend
import DocStore.FieldPath
import DocStore.Retry

set_option autoImplicit false

namespace DocStore

/-! ### Handles -/

/-- The number by which the indexes of a table are known. -/
abbrev TableId := Nat

/-- A handle of a table.  It stays usable after the table was dropped. -/
structure Table where
  /-- The number of the table. -/
  id : TableId
  /-- The name of the table. -/
  name : String
  /-- The store of its documents. -/
  documents : StoreId
  /-- How its operations are retried. -/
  retry : RetryPolicy

/-- A handle of an index.  It stays usable after the index was dropped. -/
structure Index where
  /-- The name of its table. -/
  table : String
  /-- The name of the index. -/
  name : String
  /-- Where in a document the indexed values are. -/
  path : FieldPath
  /-- The store of its buckets. -/
  buckets : StoreId
  /-- The store of the documents. -/
  documents : StoreId
  /-- How its operations are retried. -/
  retry : RetryPolicy

/-! ### Calls -/

/-- One access that an operation makes. -/
inductive Call
  /-- Reads a key of a store. -/
  | get (store : StoreId) (key : Bytes)
  /-- Writes a key that has no value. -/
  | create (store : StoreId) (key value : Bytes)
  /-- Writes a key that has a value, at a counter. -/
  | compareAndSet (store : StoreId) (key value : Bytes) (expected : Counter)
  /-- Deletes a key that has a value, at a counter. -/
  | compareAndDelete (store : StoreId) (key : Bytes) (expected : Counter)
  /-- Opens a cursor. -/
  | iter (store : StoreId) (reverse : Bool)
  /-- Gives a cursor back. -/
  | release (store : StoreId)
  /-- Reads the indexes of a table. -/
  | readIndexes (table : TableId)
  /-- Makes an index and registers it with its table. -/
  | registerIndex (table : Table) (name : String) (path : FieldPath)
  /-- Takes an index from its table. -/
  | unregisterIndex (table : TableId) (name : String)
  /-- Takes all indexes from a table. -/
  | takeIndexes (table : TableId)
  /-- Makes a table and puts it into the catalog. -/
  | registerTable (name : String)
  /-- Takes a table out of the catalog. -/
  | unregisterTable (name : String)
  /-- Drops a keyspace. -/
  | dropKeyspace (name : String)
  /-- Accesses nothing: the modifier of an update is about to be applied. -/
  | modify

/-- What comes back from a call. -/
inductive Reply
  /-- The value of a key, if it has one. -/
  | document (found : Except Error (Option (Versioned Bytes)))
  /-- The counter of a write. -/
  | counter (written : Except Error Counter)
  /-- Nothing but success or failure. -/
  | done (result : Except Error Unit)
  /-- A cursor. -/
  | cursor (opened : Except Error Cursor)
  /-- The indexes of a table, by ascending name. -/
  | indexes (registered : List Index)
  /-- One index. -/
  | index (found : Except Error Index)
  /-- One table. -/
  | table (found : Except Error Table)

/-! ### Tasks -/

/-- What has become of an operation. -/
inductive Progress (τ α : Type)
  /-- It waits for the reply to its next call. -/
  | waiting (task : τ)
  /-- It has ended with this result. -/
  | finished (result : α)

namespace Progress

/-- The same progress of an operation that stands for another one. -/
def map {τ σ α β : Type} (task : τ → σ) (result : α → β) : Progress τ α → Progress σ β
  | .waiting t => .waiting (task t)
  | .finished a => .finished (result a)

end Progress

/-- Operations under way: the call whose reply they wait for, and how they go on with it. -/
class Task (τ : Type) (α : outParam Type) where
  /-- The call. -/
  call : τ → Call
  /-- How the operation goes on.  A reply that does not answer the call changes nothing. -/
  resume : τ → Reply → Progress τ α

/-! ### Writes to one slot -/

/-- A conditional write to one key. -/
inductive SlotWrite
  /-- To a key that has no value. -/
  | create (value : Bytes)
  /-- To a key that has a value, at a counter. -/
  | replace (value : Bytes) (expected : Counter)
  /-- A deletion of a key that has a value, at a counter. -/
  | erase (expected : Counter)

/-- The call that makes a write. -/
def SlotWrite.call (write : SlotWrite) (store : StoreId) (key : Bytes) : Call :=
  match write with
  | .create value => .create store key value
  | .replace value expected => .compareAndSet store key value expected
  | .erase expected => .compareAndDelete store key expected

end DocStore
