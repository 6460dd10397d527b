/-
Whose the keyspaces are.

The catalog, the registered indexes and the keyspaces of the backend are kept in three places, each
of which is changed on its own.  They are in step when every keyspace is the one of a table in the
catalog, or of an index that is registered with one, and leads to the store that the handle has.

* `Database.storeOf?` — the store that an owner has by its handle;
* `Database.InStep` — catalog, indexes and keyspaces agree;
* `Database.InStep.iff_storeOf?`, `Database.InStep.owner_eq` — **the keyspaces are exactly those of
  the owners, and no two of these have the same store;**
* `Database.InStep.arranged` — every table in the catalog is in order;
* `Database.storeOf?_congr`, `Database.storeOf?_addTable` — what an owner has depends on its table,
  and a new table has its documents;
* `Database.InStep.addIndex`, `Database.InStep.withoutIndex`, `Database.InStep.addTable`,
  `Database.InStep.withoutTable` — **what is made or dropped as a whole keeps the step.**
-/

import DocStore.Proofs.Database.Tables

set_option autoImplicit false

namespace DocStore

/-! ### Names of the backend -/

namespace Backend

/-- Takes several names away from their stores. -/
def dropAll (backend : Backend) (names : List String) : Backend :=
  names.foldl dropKeyspace backend

theorem find?_dropAll (backend : Backend) (names : List String) (other : String) :
    (backend.dropAll names).find? other
      = if other ∈ names then none else backend.find? other := by
  induction names generalizing backend with
  | nil => rfl
  | cons name names ih =>
      have first : (backend.dropKeyspace name).find? other
          = if other = name then none else backend.find? other := SortedMap.find?_erase _ _ _
      refine (ih (backend.dropKeyspace name)).trans ?_
      rw [first]
      by_cases later : other ∈ names
      · rw [if_pos later, if_pos (List.mem_cons_of_mem _ later)]
      · by_cases same : other = name
        · rw [if_neg later, if_pos same, if_pos (same ▸ List.mem_cons_self)]
        · rw [if_neg later, if_neg same, if_neg fun h => (List.mem_cons.1 h).elim same later]

theorem Consistent.dropAll {backend : Backend} (h : backend.Consistent) (names : List String) :
    (backend.dropAll names).Consistent := by
  induction names generalizing backend with
  | nil => exact h
  | cons name names ih => exact ih (h.dropKeyspace name)

end Backend

namespace Database

variable {db after : Database} {table : Table}

/-! ### Owners and their stores -/

/-- The store that an owner has by its handle: a table in the catalog, or an index that is
registered with one. -/
def storeOf? (db : Database) : Owner → Option StoreId
  | .documents table => (db.table? table).map Table.documents
  | .buckets table name =>
      (db.table? table).bind fun t => ((db.indexesOf t.id).find? name).map Index.buckets

theorem storeOf?_documents {name : String} (ht : db.table? name = some table) :
    db.storeOf? (.documents name) = some table.documents := by
  rw [storeOf?, ht, Option.map_some]

theorem storeOf?_buckets {name : String} (ht : db.table? name = some table) (index : String) :
    db.storeOf? (.buckets name index)
      = ((db.indexesOf table.id).find? index).map Index.buckets := by
  rw [storeOf?, ht, Option.bind_some]

/-- What an owner has depends on its table alone. -/
theorem storeOf?_congr {owner : Owner} (same : after.table? owner.table = db.table? owner.table)
    (kept : ∀ table, db.table? owner.table = some table →
      after.indexesOf table.id = db.indexesOf table.id) :
    after.storeOf? owner = db.storeOf? owner := by
  cases owner with
  | documents name => exact congrArg (Option.map Table.documents) same
  | buckets name i =>
      have eq : after.table? name = db.table? name := same
      rw [storeOf?, storeOf?, eq]
      cases found : db.table? name with
      | none => rfl
      | some table => simp only [Option.bind_some, kept table found]

/-- Without a table there is nothing to have. -/
theorem storeOf?_of_none {owner : Owner} (gone : db.table? owner.table = none) :
    db.storeOf? owner = none := by
  cases owner with
  | documents name => exact congrArg (Option.map Table.documents) gone
  | buckets name i =>
      have eq : db.table? name = none := gone
      rw [storeOf?, eq, Option.bind_none]

/-- Catalog, indexes and keyspaces agree. -/
structure InStep (db : Database) : Prop where
  /-- A keyspace has a store that bears its name. -/
  consistent : db.backend.Consistent
  /-- A table is in the catalog under its name. -/
  named : ∀ {name table}, db.table? name = some table → table.name = name
  /-- A table was made. -/
  known : ∀ {name table}, db.table? name = some table → table.id < db.indexes.length
  /-- No two tables share their indexes. -/
  distinct : ∀ {name other table table'}, db.table? name = some table →
    db.table? other = some table' → table.id = table'.id → name = other
  /-- An index is registered with its table under its name. -/
  belongs : ∀ {name table}, db.table? name = some table → ∀ i index,
    (db.indexesOf table.id).find? i = some index → index.Belongs table i
  /-- The keyspace of an owner leads to its store. -/
  stores : ∀ owner : Owner, db.backend.find? owner.keyspace = db.storeOf? owner
  /-- There are no other keyspaces. -/
  owned : ∀ {name id}, db.backend.find? name = some id → ∃ owner : Owner, owner.keyspace = name

theorem inStep_empty (config : Config) : (empty config).InStep where
  consistent := Backend.consistent_empty
  named h := nomatch h
  known h := nomatch h
  distinct h := nomatch h
  belongs h := nomatch h
  stores owner := by cases owner <;> rfl
  owned h := nomatch h

namespace InStep

variable (h : db.InStep)
include h

/-- **The keyspaces are exactly those of the owners.** -/
theorem iff_storeOf? {name : String} {id : StoreId} :
    db.backend.find? name = some id
      ↔ ∃ owner : Owner, owner.keyspace = name ∧ db.storeOf? owner = some id := by
  constructor
  · intro found
    obtain ⟨owner, rfl⟩ := h.owned found
    exact ⟨owner, rfl, (h.stores owner).symm.trans found⟩
  · rintro ⟨owner, rfl, has⟩
    exact (h.stores owner).trans has

/-- **No two owners have the same store**, because a store bears one name. -/
theorem owner_eq {owner other : Owner} {id : StoreId} (has : db.storeOf? owner = some id)
    (has' : db.storeOf? other = some id) : owner = other := by
  obtain ⟨store, hs, name⟩ := h.consistent _ id ((h.stores owner).trans has)
  obtain ⟨store', hs', name'⟩ := h.consistent _ id ((h.stores other).trans has')
  obtain rfl := Option.some.inj (hs.symm.trans hs')
  exact Owner.keyspace_injective (name.symm.trans name')

/-- Every table in the catalog is in order. -/
theorem arranged {name : String} (ht : db.table? name = some table) : db.Arranged table := by
  obtain rfl := h.named ht
  have buckets : ∀ i, db.backend.find? (Name.buckets table.name i)
      = ((db.indexesOf table.id).find? i).map Index.buckets :=
    fun i => (h.stores (.buckets table.name i)).trans (storeOf?_buckets ht i)
  refine ⟨h.consistent, h.known ht, ?_, ?_, ?_⟩
  · exact (h.stores (.documents table.name)).trans (storeOf?_documents ht)
  · intro i index hi
    exact ⟨h.belongs ht i index hi, by rw [buckets, hi, Option.map_some]⟩
  · intro i hi
    rw [buckets, hi, Option.map_none]

end InStep

/-! ### Nothing is named -/

/-- Nothing has been named, registered or taken away. -/
structure SameNames (db after : Database) : Prop where
  config : after.config = db.config
  catalog : after.catalog = db.catalog
  indexes : after.indexes = db.indexes
  keyspaces : after.backend.keyspaces = db.backend.keyspaces
  consistent : db.backend.Consistent → after.backend.Consistent

theorem SameNames.refl (db : Database) : db.SameNames db :=
  ⟨rfl, rfl, rfl, rfl, id⟩

theorem SameNames.trans {last : Database} (h : db.SameNames after) (h' : after.SameNames last) :
    db.SameNames last :=
  ⟨h'.config.trans h.config, h'.catalog.trans h.catalog, h'.indexes.trans h.indexes,
    h'.keyspaces.trans h.keyspaces, h'.consistent ∘ h.consistent⟩

/-- An access to the stores names nothing. -/
theorem sameNames_perform (db : Database) {call : Call} (fault : Option Error)
    (access : call.IsAccess) : db.SameNames (db.perform call fault).2 := by
  obtain ⟨config, indexes, catalog, keyspaces, -⟩ := db.perform_of_isAccess fault access
  exact ⟨config, catalog, indexes, keyspaces, consistent_perform call fault⟩

/-- The tables that are left are in step, if their indexes belong to them and the keyspaces are
those of the owners. -/
theorem InStep.of_left (h : db.InStep) (consistent : after.backend.Consistent)
    (length : after.indexes.length = db.indexes.length)
    (left : ∀ {name table}, after.table? name = some table → db.table? name = some table)
    (belongs : ∀ {name table}, after.table? name = some table → ∀ i index,
      (after.indexesOf table.id).find? i = some index → index.Belongs table i)
    (stores : ∀ owner : Owner, after.backend.find? owner.keyspace = after.storeOf? owner)
    (owned : ∀ {name id}, after.backend.find? name = some id →
      ∃ owner : Owner, owner.keyspace = name) : after.InStep where
  consistent := consistent
  named ht := h.named (left ht)
  known ht := Nat.lt_of_lt_of_eq (h.known (left ht)) length.symm
  distinct ht ht' := h.distinct (left ht) (left ht')
  belongs := belongs
  stores := stores
  owned := owned

theorem InStep.of_sameNames (h : db.InStep) (same : db.SameNames after) : after.InStep := by
  have table? : ∀ name, after.table? name = db.table? name := by
    intro name
    rw [Database.table?, same.catalog]
    rfl
  have indexesOf : ∀ id, after.indexesOf id = db.indexesOf id := by
    intro id
    rw [Database.indexesOf, same.indexes]
    rfl
  have find? : ∀ name, after.backend.find? name = db.backend.find? name := by
    intro name
    rw [Backend.find?, same.keyspaces]
    rfl
  refine h.of_left (same.consistent h.consistent) (congrArg List.length same.indexes)
    (fun ht => table? _ ▸ ht) ?_ ?_ ?_
  · intro name table ht i index hi
    exact h.belongs (table? name ▸ ht) i index (indexesOf table.id ▸ hi)
  · intro owner
    rw [find?, storeOf?_congr (table? _) fun table _ => indexesOf table.id]
    exact h.stores owner
  · intro name id found
    exact h.owned (find? name ▸ found)

/-! ### Indexes of one table -/

/-- A table in the catalog gets other indexes, and is in order with them; nothing else changes. -/
theorem InStep.of_arranged (h : db.InStep) {name : String} (ht : db.table? name = some table)
    (arranged : after.Arranged table) (catalog : after.catalog = db.catalog)
    (length : after.indexes.length = db.indexes.length)
    (others : ∀ id, id ≠ table.id → after.indexesOf id = db.indexesOf id)
    (elsewhere : ∀ name, (∀ i, name ≠ Name.buckets table.name i) →
      after.backend.find? name = db.backend.find? name) : after.InStep := by
  obtain rfl := h.named ht
  have table? : ∀ other, after.table? other = db.table? other := by
    intro other
    rw [Database.table?, catalog]
    rfl
  -- the other tables have their own indexes
  have apart : ∀ {other table'}, db.table? other = some table' → other ≠ table.name →
      after.indexesOf table'.id = db.indexesOf table'.id :=
    fun ht' ne => others _ fun same => ne (h.distinct ht' ht same)
  refine h.of_left arranged.consistent length (fun ht' => table? _ ▸ ht') ?_ ?_ ?_
  · intro other table' ht' i index hi
    rw [table?] at ht'
    by_cases same : other = table.name
    · obtain rfl := Option.some.inj (ht.symm.trans (same ▸ ht'))
      exact (arranged.registered i index hi).1
    · exact h.belongs ht' i index (apart ht' same ▸ hi)
  · intro owner
    by_cases same : owner.table = table.name
    · have ht' : after.table? table.name = some table := (table? _).trans ht
      cases owner with
      | documents other =>
          obtain rfl : other = table.name := same
          rw [storeOf?_documents ht']
          exact arranged.documents
      | buckets other i =>
          obtain rfl : other = table.name := same
          rw [storeOf?_buckets ht']
          cases hi : (after.indexesOf table.id).find? i with
          | some index => exact (arranged.registered i index hi).2
          | none => exact arranged.free i hi
    · rw [storeOf?_congr (table? _) fun _ ht' => apart ht' same]
      refine (elsewhere _ fun i eq => ?_).trans (h.stores owner)
      have own : owner = .buckets table.name i := Owner.keyspace_injective eq
      exact same (congrArg Owner.table own)
  · intro other id found
    by_cases own : ∃ i, other = Name.buckets table.name i
    · obtain ⟨i, rfl⟩ := own
      exact ⟨.buckets table.name i, rfl⟩
    · rw [elsewhere other fun i same => own ⟨i, same⟩] at found
      exact h.owned found

/-- **A new index is in step.** -/
theorem InStep.addIndex (h : db.InStep) {name : String} (ht : db.table? name = some table)
    {i : String} (free : (db.indexesOf table.id).find? i = none) (path : FieldPath) :
    (db.addIndex table i path).2.InStep := by
  refine h.of_arranged ht ((h.arranged ht).registerIndex free path).1 rfl ?_ ?_ ?_
  · exact List.length_set ..
  · exact fun id ne => indexesOf_putIndexes_of_ne _ ne _
  · intro other ne
    exact (Backend.find?_openKeyspace _ _ _).trans (if_neg (ne i))

/-- **What is left after an index was dropped is in step.** -/
theorem InStep.withoutIndex (h : db.InStep) {name : String} (ht : db.table? name = some table)
    (i : String) : (db.withoutIndex table i).InStep := by
  refine h.of_arranged ht ((h.arranged ht).dropIndex i) rfl ?_ ?_ ?_
  · exact List.length_set ..
  · exact fun id ne => indexesOf_putIndexes_of_ne _ ne _
  · intro other ne
    exact (SortedMap.find?_erase _ _ _).trans (if_neg (ne i))

/-! ### Tables -/

/-- What becomes of the names when a table is made: the keyspace is a new one. -/
theorem InStep.addTable_eq (h : db.InStep) {name : String} (free : db.table? name = none) :
    db.addTable name = (⟨db.indexes.length, name, db.backend.stores.length, db.config.retry⟩,
      { db with
        backend := ⟨db.backend.stores ++ [.empty (Name.documents name)],
          db.backend.keyspaces.insert (Name.documents name) db.backend.stores.length⟩
        indexes := db.indexes ++ [.empty]
        catalog := db.catalog.insert name
          ⟨db.indexes.length, name, db.backend.stores.length, db.config.retry⟩ }) := by
  have new : db.backend.find? (Name.documents name) = none := by
    refine (h.stores (.documents name)).trans ?_
    rw [storeOf?, free, Option.map_none]
  rw [Database.addTable, Backend.openKeyspace_of_none new]

theorem table?_addTable (db : Database) (name other : String) :
    (db.addTable name).2.table? other
      = if other = name then some (db.addTable name).1 else db.table? other :=
  SortedMap.find?_insert _ _ _ _

/-- A table in the catalog after another one was made is this one, or was there. -/
theorem table?_addTable_cases {name other : String}
    (ht : (db.addTable name).2.table? other = some table) :
    other = name ∧ table = (db.addTable name).1 ∨ db.table? other = some table := by
  rw [table?_addTable] at ht
  split at ht
  · rename_i same
    exact Or.inl ⟨same, (Option.some.inj ht).symm⟩
  · exact Or.inr ht

/-- The number of a new table was not given out before. -/
theorem indexesOf_new (db : Database) (name : String) :
    (db.addTable name).2.indexesOf (db.addTable name).1.id = .empty := by
  rw [indexesOf_addTable, indexesOf]
  exact congrArg (Option.getD · _) (List.getElem?_eq_none (Nat.le_refl _))

/-- What a new table has is its documents. -/
theorem storeOf?_addTable {name : String} (free : db.table? name = none) (owner : Owner) :
    (db.addTable name).2.storeOf? owner
      = if owner = .documents name then some (db.addTable name).1.documents
        else db.storeOf? owner := by
  have there : (db.addTable name).2.table? name = some (db.addTable name).1 :=
    (table?_addTable db name name).trans (if_pos rfl)
  by_cases same : owner.table = name
  · cases owner with
    | documents other =>
        obtain rfl : other = name := same
        rw [storeOf?_documents there, if_pos rfl]
    | buckets other i =>
        obtain rfl : other = name := same
        rw [storeOf?_buckets there, indexesOf_new, if_neg Owner.noConfusion,
          storeOf?_of_none free]
        rfl
  · have ne : owner ≠ .documents name := fun eq => same (congrArg Owner.table eq)
    have kept := (table?_addTable db name owner.table).trans (if_neg same)
    rw [if_neg ne, storeOf?_congr kept fun _ _ => indexesOf_addTable _ _ _]

/-- **A new table is in step.** -/
theorem InStep.addTable (h : db.InStep) {name : String} (free : db.table? name = none) :
    (db.addTable name).2.InStep := by
  have find? : ∀ other, (db.addTable name).2.backend.find? other
      = if other = Name.documents name then some (db.addTable name).1.documents
        else db.backend.find? other :=
    fun other => Backend.find?_openKeyspace _ _ _
  have longer : (db.addTable name).2.indexes.length = db.indexes.length + 1 := List.length_append
  refine ⟨(h.consistent.openKeyspace (Name.documents name)).1, ?_, ?_, ?_, ?_, ?_, ?_⟩
  · intro other table ht
    rcases table?_addTable_cases ht with ⟨rfl, rfl⟩ | before
    · rfl
    · exact h.named before
  · intro other table ht
    rw [longer]
    rcases table?_addTable_cases ht with ⟨-, rfl⟩ | before
    · exact Nat.lt_succ_self _
    · exact Nat.lt_succ_of_lt (h.known before)
  · -- the number of the new table is beyond those of the others
    intro other other' table table' ht ht' same
    rcases table?_addTable_cases ht with ⟨rfl, rfl⟩ | before
    · rcases table?_addTable_cases ht' with ⟨rfl, -⟩ | before'
      · rfl
      · exact absurd same.symm (Nat.ne_of_lt (h.known before'))
    · rcases table?_addTable_cases ht' with ⟨rfl, rfl⟩ | before'
      · exact absurd same (Nat.ne_of_lt (h.known before))
      · exact h.distinct before before' same
  · intro other table ht i index hi
    rcases table?_addTable_cases ht with ⟨rfl, rfl⟩ | before
    · rw [indexesOf_new] at hi
      cases hi
    · rw [indexesOf_addTable] at hi
      exact h.belongs before i index hi
  · intro owner
    have named : owner.keyspace = Name.documents name ↔ owner = .documents name :=
      Owner.keyspace_injective.eq_iff (b := .documents name)
    rw [find?, storeOf?_addTable free, h.stores]
    simp only [named]
  · intro other id found
    rw [find?] at found
    split at found
    · rename_i same
      exact ⟨.documents name, same.symm⟩
    · exact h.owned found

/-- The names of the keyspaces of a table. -/
def keyspacesOf (db : Database) (table : Table) : List String :=
  ((db.indexesOf table.id).entries.map (·.2)).map (fun i => Name.buckets table.name i.name)
    ++ [Name.documents table.name]

/-- The database after a table was dropped. -/
def withoutTable (db : Database) (table : Table) : Database :=
  { (db.putIndexes table.id .empty).putBackend (db.backend.dropAll (db.keyspacesOf table)) with
    catalog := db.catalog.erase table.name }

/-- A keyspace is dropped with a table if it is one of the table that has a store. -/
theorem InStep.mem_keyspacesOf (h : db.InStep) (ht : db.table? table.name = some table)
    {owner : Owner} : owner.keyspace ∈ db.keyspacesOf table
      ↔ owner.table = table.name ∧ (db.storeOf? owner).isSome := by
  rw [keyspacesOf, List.mem_append, List.mem_singleton]
  cases owner with
  | documents other =>
      have own : Owner.keyspace (.documents other) = Name.documents table.name
          ↔ other = table.name := Name.documents_injective.eq_iff
      rw [own]
      constructor
      · rintro (there | rfl)
        · obtain ⟨index, -, same⟩ := List.mem_map.1 there
          exact absurd same (Name.buckets_ne_documents _ _ _)
        · exact ⟨rfl, by rw [storeOf?_documents ht]; rfl⟩
      · rintro ⟨same, -⟩
        exact Or.inr same
  | buckets other i =>
      constructor
      · rintro (there | same)
        · obtain ⟨index, hx, same⟩ := List.mem_map.1 there
          obtain ⟨⟨j, index⟩, he, rfl⟩ := List.mem_map.1 hx
          have hi := SortedMap.find?_eq_some_iff.2 he
          obtain ⟨rfl, rfl⟩ := Name.buckets_inj.1 same
          refine ⟨rfl, ?_⟩
          rw [storeOf?_buckets ht, (h.belongs ht j index hi).ofName, hi]
          rfl
        · exact absurd same (Name.buckets_ne_documents _ _ _)
      · rintro ⟨same, some⟩
        obtain rfl : other = table.name := same
        rw [storeOf?_buckets ht, Option.isSome_map] at some
        obtain ⟨index, hi⟩ := Option.isSome_iff_exists.1 some
        have there := List.mem_map_of_mem (f := Prod.snd) (SortedMap.find?_eq_some_iff.1 hi)
        refine Or.inl (List.mem_map.2 ⟨index, there, ?_⟩)
        rw [(h.belongs ht i index hi).ofName]
        rfl

/-- **What is left after a table was dropped is in step.** -/
theorem InStep.withoutTable (h : db.InStep) (ht : db.table? table.name = some table) :
    (db.withoutTable table).InStep := by
  have table? : ∀ other, (db.withoutTable table).table? other
      = if other = table.name then none else db.table? other :=
    fun other => SortedMap.find?_erase _ _ _
  have find? : ∀ other, (db.withoutTable table).backend.find? other
      = if other ∈ db.keyspacesOf table then none else db.backend.find? other :=
    fun other => Backend.find?_dropAll _ _ _
  have kept : ∀ {other table'}, (db.withoutTable table).table? other = some table' →
      other ≠ table.name ∧ db.table? other = some table' := by
    intro other table' ht'
    rw [table?] at ht'
    split at ht'
    · cases ht'
    · rename_i different
      exact ⟨different, ht'⟩
  have apart : ∀ {other table'}, db.table? other = some table' → other ≠ table.name →
      (db.withoutTable table).indexesOf table'.id = db.indexesOf table'.id :=
    fun ht' ne => indexesOf_putIndexes_of_ne _ (fun same => ne (h.distinct ht' ht same)) _
  refine h.of_left (h.consistent.dropAll _) (List.length_set ..) (fun ht' => (kept ht').2) ?_ ?_ ?_
  · intro other table' ht' i index hi
    obtain ⟨different, before⟩ := kept ht'
    exact h.belongs before i index (apart before different ▸ hi)
  · intro owner
    rw [find?]
    by_cases same : owner.table = table.name
    -- what the table has is dropped, and what it has not had no keyspace
    · rw [storeOf?_of_none ((table? _).trans (if_pos same))]
      split
      · rfl
      · rename_i out
        rw [h.stores]
        cases has : db.storeOf? owner with
        | none => rfl
        | some id => exact absurd ((h.mem_keyspacesOf ht).2 ⟨same, by rw [has]; rfl⟩) out
    · rw [if_neg fun there => same ((h.mem_keyspacesOf ht).1 there).1, h.stores,
        storeOf?_congr ((table? _).trans (if_neg same)) fun _ ht' => apart ht' same]
  · intro other id found
    rw [find?] at found
    split at found
    · cases found
    · exact h.owned found

end Database

end DocStore
