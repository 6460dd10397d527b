/-
A table, its indexes and their stores.

The documents of a table and the buckets of each of its indexes have a keyspace of their own, which
is told by the names.  As long as the table stays, registering and dropping indexes keeps this
order, and no other call touches it.

* `Database.fresh` — a table of a fresh database;
* `Index.Belongs` — an index of a table, under a name;
* `Database.Arranged` — a table whose registered indexes belong to it and have their keyspaces, and
  where no other index has one;
* `Database.Arranged.apart`, `Database.Arranged.index_eq` — buckets are apart from the documents,
  and different indexes have different buckets;
* `Database.arranged_fresh`, `Database.Arranged.perform`, `Database.Arranged.registerIndex`,
  `Database.Arranged.dropIndex` — **every operation on the table keeps the order.**
-/

import DocStore.Proofs.Database.Stores
import DocStore.Proofs.Text.Keyspaces

set_option autoImplicit false

namespace DocStore

/-- A table whose documents have a store, apart from those of the buckets of its indexes. -/
structure Database.Holds (db : Database) (table : Table) : Prop where
  stored : table.documents < db.backend.stores.length
  apart : ∀ name index, (db.indexesOf table.id).find? name = some index →
    index.buckets ≠ table.documents

/-- An access to the stores leaves the table where it is. -/
theorem Database.Holds.perform {db : Database} {table : Table} (h : db.Holds table) {call : Call}
    (fault : Option Error) (access : call.IsAccess) : (db.perform call fault).2.Holds table := by
  obtain ⟨-, indexes, -, -, length⟩ := db.perform_of_isAccess fault access
  refine ⟨length ▸ h.stored, ?_⟩
  rw [Database.indexesOf, indexes]
  exact h.apart

/-- An index of a table, under a name. -/
structure Index.Belongs (table : Table) (name : String) (index : Index) : Prop where
  ofTable : index.table = table.name
  ofName : index.name = name
  documents : index.documents = table.documents
  retry : index.retry = table.retry

namespace Database

/-- A table of a fresh database, and the database. -/
def fresh (config : Config) (name : String) : Table × Database :=
  (empty config).addTable name

/-- A table whose registered indexes belong to it and have their keyspaces, and where no other
index has one. -/
structure Arranged (db : Database) (table : Table) : Prop where
  consistent : db.backend.Consistent
  known : table.id < db.indexes.length
  documents : db.backend.find? (Name.documents table.name) = some table.documents
  registered : ∀ name index, (db.indexesOf table.id).find? name = some index →
    index.Belongs table name ∧
      db.backend.find? (Name.buckets table.name name) = some index.buckets
  free : ∀ name, (db.indexesOf table.id).find? name = none →
    db.backend.find? (Name.buckets table.name name) = none

namespace Arranged

variable {db : Database} {table : Table} (h : db.Arranged table)
include h

theorem stored : table.documents < db.backend.stores.length := by
  obtain ⟨store, hs, -⟩ := h.consistent _ _ h.documents
  exact (List.getElem?_eq_some_iff.1 hs).1

theorem buckets_lt {name : String} {index : Index}
    (hi : (db.indexesOf table.id).find? name = some index) :
    index.buckets < db.backend.stores.length := by
  obtain ⟨store, hs, -⟩ := h.consistent _ _ (h.registered name index hi).2
  exact (List.getElem?_eq_some_iff.1 hs).1

theorem keyspace_buckets {name : String} {index : Index}
    (hi : (db.indexesOf table.id).find? name = some index) :
    (db.backend.store index.buckets).keyspace = Name.buckets table.name name := by
  obtain ⟨store, hs, hk⟩ := h.consistent _ _ (h.registered name index hi).2
  rw [Backend.store_of_getElem? hs, hk]

/-- The buckets of an index are apart from the documents. -/
theorem apart {name : String} {index : Index}
    (hi : (db.indexesOf table.id).find? name = some index) : index.buckets ≠ table.documents := by
  intro same
  obtain ⟨store, hs, hk⟩ := h.consistent _ _ h.documents
  have buckets := h.keyspace_buckets hi
  rw [same, Backend.store_of_getElem? hs, hk] at buckets
  exact Name.buckets_ne_documents _ _ _ buckets.symm

/-- Different indexes have different buckets. -/
theorem index_eq {name other : String} {index index' : Index}
    (hi : (db.indexesOf table.id).find? name = some index)
    (hi' : (db.indexesOf table.id).find? other = some index')
    (same : index.buckets = index'.buckets) : index = index' := by
  -- the two have one store, and a store bears one name
  have names : Name.buckets table.name name = Name.buckets table.name other := by
    rw [← h.keyspace_buckets hi, ← h.keyspace_buckets hi', same]
  obtain rfl := Name.buckets_injective _ names
  exact Option.some.inj (hi.symm.trans hi')

theorem holds : db.Holds table :=
  ⟨h.stored, fun _ _ hi => h.apart hi⟩

/-- An access to the stores keeps the order. -/
theorem perform {call : Call} (fault : Option Error) (access : call.IsAccess) :
    (db.perform call fault).2.Arranged table := by
  obtain ⟨-, indexes, -, keyspaces, -⟩ := db.perform_of_isAccess fault access
  have find : ∀ name, (db.perform call fault).2.backend.find? name = db.backend.find? name := by
    intro name
    rw [Backend.find?, keyspaces]
    rfl
  have same : (db.perform call fault).2.indexesOf table.id = db.indexesOf table.id := by
    rw [indexesOf, indexes]
    rfl
  refine ⟨consistent_perform call fault h.consistent, indexes ▸ h.known, ?_, ?_, ?_⟩
  · rw [find]
    exact h.documents
  · intro name index hi
    rw [find]
    exact h.registered name index (same ▸ hi)
  · intro name hn
    rw [find]
    exact h.free name (same ▸ hn)

end Arranged

/-! ### Registering and dropping indexes -/

theorem indexesOf_putIndexes (db : Database) {table : TableId}
    (known : table < db.indexes.length) (indexes : SortedMap String Index) :
    (db.putIndexes table indexes).indexesOf table = indexes := by
  rw [indexesOf, putIndexes, List.getElem?_set_self known, Option.getD_some]

/-- A table gets the indexes that it is to have, unless it was never made: such a one has none. -/
theorem indexesOf_putIndexes_cases (db : Database) (table : TableId)
    (indexes : SortedMap String Index) :
    (db.putIndexes table indexes).indexesOf table = indexes ∨
      db.indexesOf table = .empty ∧ (db.putIndexes table indexes).indexesOf table = .empty := by
  by_cases known : table < db.indexes.length
  · exact Or.inl (indexesOf_putIndexes db known indexes)
  · have same : (db.putIndexes table indexes).indexes = db.indexes :=
      List.set_eq_of_length_le (Nat.le_of_not_lt known)
    rw [indexesOf, indexesOf, same, List.getElem?_eq_none (Nat.le_of_not_lt known)]
    exact Or.inr ⟨rfl, rfl⟩

theorem indexesOf_putIndexes_of_ne (db : Database) {id other : TableId} (ne : other ≠ id)
    (indexes : SortedMap String Index) :
    (db.putIndexes id indexes).indexesOf other = db.indexesOf other := by
  rw [indexesOf, putIndexes, List.getElem?_set_ne ne.symm]
  rfl

/-- A new table has no indexes. -/
theorem indexesOf_addTable (db : Database) (name : String) (table : TableId) :
    (db.addTable name).2.indexesOf table = db.indexesOf table := by
  rw [indexesOf, indexesOf, addTable, List.getElem?_append]
  split
  · rfl
  · rename_i beyond
    rw [List.getElem?_eq_none (Nat.le_of_not_lt beyond)]
    -- beyond the tables that are there comes the new one, without indexes
    cases table - db.indexes.length with
    | zero => rfl
    | succ i => rfl

/-- A new index: the handle, and the database in which it is registered. -/
structure Registers (db : Database) (table : Table) (name : String) (path : FieldPath)
    (index : Index) (after : Database) : Prop where
  free : (db.indexesOf table.id).find? name = none
  belongs : index.Belongs table name
  path : index.path = path
  new : index.buckets = db.backend.stores.length
  stores : after.backend.stores = db.backend.stores ++ [.empty (Name.buckets table.name name)]
  find? : ∀ other, (after.indexesOf table.id).find? other
    = if other = name then some index else (db.indexesOf table.id).find? other

namespace Registers

variable {db after : Database} {table : Table} {name : String} {path : FieldPath} {index : Index}
  (h : db.Registers table name path index after)
include h

/-- A new index has no buckets yet. -/
theorem store_buckets :
    after.backend.store index.buckets = .empty (Name.buckets table.name name) := by
  rw [Backend.store, h.stores, h.new, List.getElem?_concat_length, Option.getD_some]

/-- The stores that were there stay as they are. -/
theorem store_eq {id : StoreId} (hl : id < db.backend.stores.length) :
    after.backend.store id = db.backend.store id := by
  rw [Backend.store, h.stores, List.getElem?_append_left hl]
  rfl

end Registers

/-- **A new index is registered in the order of the table.** -/
theorem Arranged.registerIndex {db : Database} {table : Table} (h : db.Arranged table)
    {name : String} (hn : (db.indexesOf table.id).find? name = none) (path : FieldPath) :
    (db.addIndex table name path).2.Arranged table ∧
      db.Registers table name path (db.addIndex table name path).1
        (db.addIndex table name path).2 := by
  -- no keyspace has the name of the new index, so that its store is a new one
  have opened : db.backend.openKeyspace (Name.buckets table.name name)
      = (db.backend.stores.length,
          ⟨db.backend.stores ++ [.empty (Name.buckets table.name name)],
            db.backend.keyspaces.insert (Name.buckets table.name name)
              db.backend.stores.length⟩) := Backend.openKeyspace_of_none (h.free name hn)
  have consistent := (h.consistent.openKeyspace (Name.buckets table.name name)).1
  have registers : db.Registers table name path (db.addIndex table name path).1
      (db.addIndex table name path).2 := by
    simp only [addIndex, opened]
    refine ⟨hn, ⟨rfl, rfl, rfl, rfl⟩, rfl, rfl, rfl, fun other => ?_⟩
    exact (congrArg (SortedMap.find? · other)
      (indexesOf_putIndexes (db.putBackend _) h.known _)).trans (SortedMap.find?_insert _ _ _ _)
  have find : ∀ other, (db.addIndex table name path).2.backend.find? other
      = if other = Name.buckets table.name name then some db.backend.stores.length
        else db.backend.find? other := by
    intro other
    simp only [addIndex, opened]
    exact SortedMap.find?_insert _ _ _ _
  refine ⟨⟨?_, ?_, ?_, ?_, ?_⟩, registers⟩
  · simp only [addIndex, opened]
    rwa [opened] at consistent
  · simp only [addIndex, putIndexes, List.length_set]
    exact h.known
  · rw [find, if_neg fun same => Name.buckets_ne_documents _ _ _ same.symm]
    exact h.documents
  · intro other index hi
    rw [registers.find?] at hi
    rw [find]
    split at hi
    · rename_i same
      obtain rfl := Option.some.inj hi
      rw [if_pos (by rw [same]), same]
      exact ⟨registers.belongs, by rw [registers.new]⟩
    · rename_i different
      rw [if_neg fun same => different (Name.buckets_injective _ same)]
      exact h.registered other index hi
  · intro other ho
    rw [registers.find?] at ho
    split at ho
    · cases ho
    · rename_i different
      rw [find, if_neg fun same => different (Name.buckets_injective _ same)]
      exact h.free other ho

/-- The database after an index was dropped. -/
def withoutIndex (db : Database) (table : Table) (name : String) : Database :=
  (db.putIndexes table.id ((db.indexesOf table.id).erase name)).putBackend
    (db.backend.dropKeyspace (Name.buckets table.name name))

/-- All other indexes stay registered. -/
theorem Arranged.find?_withoutIndex {db : Database} {table : Table} (h : db.Arranged table)
    (name other : String) : ((db.withoutIndex table name).indexesOf table.id).find? other
      = if other = name then none else (db.indexesOf table.id).find? other :=
  (congrArg (SortedMap.find? · other) (indexesOf_putIndexes db h.known _)).trans
    (SortedMap.find?_erase _ _ _)

/-- **An index is dropped, and the table is in order again.** -/
theorem Arranged.dropIndex {db : Database} {table : Table} (h : db.Arranged table)
    (name : String) : (db.withoutIndex table name).Arranged table := by
  -- the store of the index stays where it is; only its name is forgotten
  have find : ∀ other, (db.backend.dropKeyspace (Name.buckets table.name name)).find? other
      = if other = Name.buckets table.name name then none else db.backend.find? other :=
    fun other => SortedMap.find?_erase _ _ _
  refine ⟨h.consistent.dropKeyspace _, ?_, ?_, ?_, ?_⟩
  · simp only [withoutIndex, putBackend, putIndexes, List.length_set]
    exact h.known
  · rw [withoutIndex, putBackend, find,
      if_neg fun same => Name.buckets_ne_documents _ _ _ same.symm]
    exact h.documents
  · intro other index hi
    rw [h.find?_withoutIndex] at hi
    split at hi
    · cases hi
    · rename_i different
      rw [withoutIndex, putBackend, find,
        if_neg fun same => different (Name.buckets_injective _ same)]
      exact h.registered other index hi
  · intro other ho
    rw [h.find?_withoutIndex] at ho
    rw [withoutIndex, putBackend, find]
    split
    · rfl
    · rename_i different
      rw [if_neg fun same => different (by rw [same])] at ho
      exact h.free other ho

/-- A table of a fresh database is in order. -/
theorem arranged_fresh (config : Config) (name : String) :
    (fresh config name).2.Arranged (fresh config name).1 := by
  refine ⟨(Backend.consistent_empty.openKeyspace (Name.documents name)).1, Nat.zero_lt_one,
    ?_, ?_, ?_⟩
  · exact (SortedMap.find?_insert _ _ _ _).trans (if_pos rfl)
  · intro other index hi
    cases hi
  · intro other _
    refine (SortedMap.find?_insert _ _ _ _).trans ?_
    rw [if_neg (Name.buckets_ne_documents _ _ _)]
    rfl

end Database

end DocStore
