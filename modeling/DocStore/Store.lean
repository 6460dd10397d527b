/-
Stores: sorted, versioned collections of byte strings.

* `Store` — the slots of one keyspace;
* `Store.get?`, `Store.set`, `Store.create?`, `Store.delete`, `Store.compareAndSet?`,
  `Store.compareAndDelete?` — reading and writing one key; a conditional write that finds another
  state than it expects gives none, and nothing is written;
* `Store.snapshot` — the entries, by ascending key.
-/

import DocStore.SortedMap
import DocStore.Store.Slot

set_option autoImplicit false

namespace DocStore

/-- The slots of one keyspace. -/
structure Store where
  /-- The name of the keyspace. -/
  keyspace : String
  /-- What is remembered of each key. -/
  slots : SortedMap Bytes Slot
  /-- How many cursors were opened on the store, less those that were released. -/
  openCursors : Int

namespace Store

/-- A store in which no key was ever written. -/
def empty (keyspace : String) : Store :=
  ⟨keyspace, .empty, 0⟩

/-! ### Reading -/

/-- The value of a key with its counter, if it has a value. -/
def get? (store : Store) (key : Bytes) : Option (Versioned Bytes) :=
  (store.slots.find? key).bind Slot.versioned?

/-- The counter of a key, if it has a value. -/
def liveCounter? (store : Store) (key : Bytes) : Option Counter :=
  (store.get? key).map Versioned.counter

/-- The entry of a key that has a value. -/
def entry? (slot : Bytes × Slot) : Option Entry :=
  slot.2.versioned?.map fun v => ⟨slot.1, v.value, v.counter⟩

/-- The entries, by ascending key. -/
def snapshot (store : Store) : List Entry :=
  store.slots.entries.filterMap entry?

/-- How many keys have a value. -/
def size (store : Store) : Nat :=
  store.snapshot.length

/-! ### Writing -/

/-- Gives a key a slot. -/
def put (store : Store) (key : Bytes) (slot : Slot) : Store :=
  { store with slots := store.slots.insert key slot }

/-- Writes a value and counts the key up. -/
def set (store : Store) (key value : Bytes) : Counter × Store :=
  let slot := Slot.after (store.slots.find? key) value
  (slot.counter, store.put key slot)

/-- Writes a value to a key that has none. -/
def create? (store : Store) (key value : Bytes) : Option (Counter × Store) :=
  match store.liveCounter? key with
  | some _ => none
  | none => some (store.set key value)

/-- Deletes a key that has a value, and counts it up; does nothing to another one. -/
def delete (store : Store) (key : Bytes) : Store :=
  match store.slots.find? key with
  | some slot => if slot.value.isSome then store.put key slot.tombstone else store
  | none => store

/-- Writes a value to a key that has one, at the expected counter. -/
def compareAndSet? (store : Store) (key value : Bytes) (expected : Counter) :
    Option (Counter × Store) :=
  if store.liveCounter? key = some expected then some (store.set key value) else none

/-- Deletes a key that has a value, at the expected counter. -/
def compareAndDelete? (store : Store) (key : Bytes) (expected : Counter) : Option Store :=
  if store.liveCounter? key = some expected then some (store.delete key) else none

end Store

end DocStore
