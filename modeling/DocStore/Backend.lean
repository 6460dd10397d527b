/-
The backend: named keyspaces and their stores.

* `Backend` — every store that was ever opened, and which of them has which name now;
* `Backend.openKeyspace`, `Backend.dropKeyspace` — giving a name a store, and taking it away;
* `Backend.openCursor`, `Backend.releaseCursor` — cursors, which the store counts.

A store that was dropped stays usable for those who hold it, but its name is free for a new one.
-/

import DocStore.Range

set_option autoImplicit false

namespace DocStore

/-- Named keyspaces and their stores. -/
structure Backend where
  /-- Every store that was ever opened; its position is its number. -/
  stores : List Store
  /-- The store of each keyspace. -/
  keyspaces : SortedMap String StoreId

namespace Backend

/-- A backend without keyspaces. -/
def empty : Backend :=
  ⟨[], .empty⟩

/-! ### Stores -/

/-- A store by its number; a number that was never given out stands for a store without keys. -/
def store (backend : Backend) (id : StoreId) : Store :=
  backend.stores[id]?.getD (.empty "")

/-- Replaces a store. -/
def putStore (backend : Backend) (id : StoreId) (store : Store) : Backend :=
  { backend with stores := backend.stores.set id store }

/-! ### Keyspaces -/

/-- The store of a keyspace, if there is one with this name. -/
def find? (backend : Backend) (name : String) : Option StoreId :=
  backend.keyspaces.find? name

/-- The names of the keyspaces, ascending. -/
def names (backend : Backend) : List String :=
  backend.keyspaces.keys

/-- The store of a keyspace, which is made when there is none with this name. -/
def openKeyspace (backend : Backend) (name : String) : StoreId × Backend :=
  match backend.find? name with
  | some id => (id, backend)
  | none =>
      let id := backend.stores.length
      (id, ⟨backend.stores ++ [.empty name], backend.keyspaces.insert name id⟩)

/-- Takes the name away from its store, if it has one. -/
def dropKeyspace (backend : Backend) (name : String) : Backend :=
  { backend with keyspaces := backend.keyspaces.erase name }

/-! ### Cursors -/

/-- A cursor over the present entries of a store, on the first one of its direction. -/
def openCursor (backend : Backend) (id : StoreId) (reverse : Bool) : Cursor × Backend :=
  let store := backend.store id
  (.ofEntries store.snapshot reverse,
    backend.putStore id { store with openCursors := store.openCursors + 1 })

/-- Gives one cursor of a store back. -/
def releaseCursor (backend : Backend) (id : StoreId) : Backend :=
  let store := backend.store id
  backend.putStore id { store with openCursors := store.openCursors - 1 }

end Backend

end DocStore
