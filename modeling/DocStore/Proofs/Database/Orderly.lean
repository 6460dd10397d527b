/-
A database in order, whatever fails.

Every store was opened under a name, which says whether it keeps documents, buckets, or neither.
Stores of buckets hold well-formed ones only, the documents have keys that can be listed, and the
handles that are registered lead to stores of the right kind.  A call keeps this, whether it fails
or not, if what it writes may stand where it is written.

* `Backend.Bears`, `Database.HasBuckets`, `Database.HasDocuments` — the name of a store, and its
  kind;
* `Database.Takes`, `Database.Permits` — what a store may keep, and a call that writes nothing else;
* `Database.Orderly` — the order;
* `Database.Evolves` — what becomes of the stores in one step;
* `Database.perform_handles` — what a call does to the handles that are registered;
* `Database.evolves_perform`, `Database.Orderly.perform` — **a permitted call keeps the order, also
  if it fails;**
* `Database.Orderly.elsewhere` — **so does all that happens besides, as long as nobody writes
  buckets;**
* `Database.Orderly.wellFormed_of_get` and the others — what an operation may rely on in a reply.
-/

import DocStore.Proofs.Database.Requests
import DocStore.Proofs.Database.Tables
import DocStore.Proofs.Index.Buckets
import DocStore.Proofs.Range.Drain
import DocStore.Proofs.Text.Keyspaces

set_option autoImplicit false

namespace DocStore

/-! ### Kinds of stores -/

/-- The store was opened under this name. -/
def Backend.Bears (backend : Backend) (id : StoreId) (name : String) : Prop :=
  ∃ store, backend.stores[id]? = some store ∧ store.keyspace = name

namespace Backend.Bears

variable {backend : Backend} {id : StoreId} {name : String}

theorem lt_length (h : backend.Bears id name) : id < backend.stores.length := by
  obtain ⟨store, hs, -⟩ := h
  exact (List.getElem?_eq_some_iff.1 hs).1

theorem keyspace (h : backend.Bears id name) : (backend.store id).keyspace = name := by
  obtain ⟨store, hs, hk⟩ := h
  rw [Backend.store_of_getElem? hs, hk]

theorem of_lt_length (h : id < backend.stores.length) :
    backend.Bears id (backend.store id).keyspace :=
  ⟨_, Backend.getElem?_store h, rfl⟩

end Backend.Bears

namespace Database

variable {db after : Database} {documents : Set String} {id : StoreId}

/-- A store of buckets. -/
def HasBuckets (db : Database) (id : StoreId) : Prop :=
  ∃ table index, db.backend.Bears id (Name.buckets table index)

/-- A store of documents. -/
def HasDocuments (db : Database) (id : StoreId) : Prop :=
  ∃ name, db.backend.Bears id (Name.documents name)

/-- No store keeps both. -/
theorem HasBuckets.not_hasDocuments (h : db.HasBuckets id) : ¬ db.HasDocuments id := by
  rintro ⟨name, hd⟩
  obtain ⟨table, index, hb⟩ := h
  exact Name.buckets_ne_documents table index name (hb.keyspace.symm.trans hd.keyspace)

/-- What a store may keep: one of buckets keeps well-formed ones, and one of documents keeps what
can be listed in a bucket. -/
def Takes (documents : Set String) (db : Database) (id : StoreId) (key value : Bytes) : Prop :=
  (db.HasBuckets id → Bucket.WellFormed documents value) ∧
    (db.HasDocuments id → Utf8.lossy key ∈ documents)

/-- A call that writes nothing else than what the store may keep. -/
def Permits (documents : Set String) (db : Database) : Call → Prop
  | .create id key value => db.Takes documents id key value
  | .compareAndSet id key value _ => db.Takes documents id key value
  | _ => True

theorem permits_write {write : SlotWrite} {key : Bytes} :
    db.Permits documents (write.call id key)
      ↔ ∀ bytes, write.value? = some bytes → db.Takes documents id key bytes := by
  cases write with
  | create value => exact ⟨fun h bytes hb => Option.some.inj hb ▸ h, fun h => h value rfl⟩
  | replace value expected => exact ⟨fun h bytes hb => Option.some.inj hb ▸ h, fun h => h value rfl⟩
  | erase expected => exact ⟨fun _ bytes hb => absurd hb (Option.some_ne_none bytes).symm,
      fun _ => trivial⟩

theorem permits_of_reads {call : Call} (h : call.Reads) : db.Permits documents call := by
  cases call <;> trivial

/-- Buckets are well-formed, documents have keys that can be listed, and registered handles lead to
stores of the right kind. -/
structure Orderly (documents : Set String) (db : Database) : Prop where
  consistent : db.backend.Consistent
  values : ∀ id key stored, (db.backend.store id).get? key = some stored →
    db.Takes documents id key stored.value
  registered : ∀ table name index, (db.indexesOf table).find? name = some index →
    db.HasBuckets index.buckets
  catalog : ∀ name table, db.table? name = some table → db.HasDocuments table.documents

theorem orderly_empty (config : Config) (documents : Set String) :
    (empty config).Orderly documents where
  consistent := Backend.consistent_empty
  values _ _ _ h := nomatch h
  registered _ _ _ h := nomatch h
  catalog _ _ h := nomatch h

/-! ### What becomes of the stores -/

/-- No store is taken away or gets another name, and a value that is new is one that its store may
keep. -/
structure Evolves (documents : Set String) (db after : Database) : Prop where
  consistent : after.backend.Consistent
  length : db.backend.stores.length ≤ after.backend.stores.length
  keyspace : ∀ id, id < db.backend.stores.length →
    (after.backend.store id).keyspace = (db.backend.store id).keyspace
  values : ∀ id key stored, (after.backend.store id).get? key = some stored →
    id < db.backend.stores.length ∧
      ((db.backend.store id).get? key = some stored ∨ db.Takes documents id key stored.value)

namespace Evolves

variable (h : Evolves documents db after)
include h

theorem bears {name : String} (hb : db.backend.Bears id name) : after.backend.Bears id name := by
  have lt := hb.lt_length
  rw [← hb.keyspace, ← h.keyspace id lt]
  exact .of_lt_length (lt.trans_le h.length)

theorem bears_of {name : String} (lt : id < db.backend.stores.length)
    (hb : after.backend.Bears id name) : db.backend.Bears id name := by
  rw [← hb.keyspace, h.keyspace id lt]
  exact .of_lt_length lt

theorem hasBuckets (hb : db.HasBuckets id) : after.HasBuckets id := by
  obtain ⟨table, index, hb⟩ := hb
  exact ⟨table, index, h.bears hb⟩

theorem hasDocuments (hd : db.HasDocuments id) : after.HasDocuments id := by
  obtain ⟨name, hd⟩ := hd
  exact ⟨name, h.bears hd⟩

/-- A store may keep afterwards what it might keep before. -/
theorem takes {key value : Bytes} (lt : id < db.backend.stores.length)
    (ht : db.Takes documents id key value) : after.Takes documents id key value := by
  refine ⟨?_, ?_⟩
  · rintro ⟨table, index, hb⟩
    exact ht.1 ⟨table, index, h.bears_of lt hb⟩
  · rintro ⟨name, hd⟩
    exact ht.2 ⟨name, h.bears_of lt hd⟩

/-- The order is kept, if the new handles lead to stores of the right kind. -/
theorem orderly (orderly : db.Orderly documents)
    (registered : ∀ table name index, (after.indexesOf table).find? name = some index →
      (db.indexesOf table).find? name = some index ∨ after.HasBuckets index.buckets)
    (catalog : ∀ name table, after.table? name = some table →
      db.table? name = some table ∨ after.HasDocuments table.documents) :
    after.Orderly documents where
  consistent := h.consistent
  values id key stored hs := by
    obtain ⟨lt, before | takes⟩ := h.values id key stored hs
    · exact h.takes lt (orderly.values id key stored before)
    · exact h.takes lt takes
  registered table name index hi :=
    (registered table name index hi).elim
      (fun before => h.hasBuckets (orderly.registered table name index before)) id
  catalog name table ht :=
    (catalog name table ht).elim
      (fun before => h.hasDocuments (orderly.catalog name table before)) id

end Evolves

/-- Stores that stay as they are. -/
theorem evolves_of_stores (consistent : after.backend.Consistent)
    (same : after.backend.stores = db.backend.stores) : Evolves documents db after := by
  have store : ∀ id, after.backend.store id = db.backend.store id := by
    intro id
    rw [Backend.store, same]
    rfl
  refine ⟨consistent, same ▸ Nat.le_refl _, fun id _ => by rw [store], ?_⟩
  intro id key stored hs
  rw [store] at hs
  exact ⟨Backend.lt_length_of_get? hs, Or.inl hs⟩

/-- One store that is replaced by what it may become. -/
theorem evolves_putStore (consistent : db.backend.Consistent) {store : Store}
    (same : store.keyspace = (db.backend.store id).keyspace)
    (values : ∀ key stored, store.get? key = some stored →
      (db.backend.store id).get? key = some stored ∨ db.Takes documents id key stored.value) :
    Evolves documents db (db.putStore id store) := by
  refine ⟨consistent.putStore same, Nat.le_of_eq (Backend.length_putStore _ _ _).symm, ?_, ?_⟩
  · intro other _
    rw [putStore, Backend.store_putStore]
    split
    · rename_i hk
      rw [same, hk.1]
    · rfl
  · intro other key stored hs
    rw [putStore, Backend.store_putStore] at hs
    split at hs
    · rename_i hk
      obtain ⟨rfl, lt⟩ := hk
      exact ⟨lt, values key stored hs⟩
    · exact ⟨Backend.lt_length_of_get? hs, Or.inl hs⟩

/-- A keyspace that is opened. -/
theorem evolves_openKeyspace (consistent : db.backend.Consistent) (name : String)
    (opened : after.backend = (db.backend.openKeyspace name).2) :
    Evolves documents db after := by
  refine ⟨opened ▸ (consistent.openKeyspace name).1, opened ▸ Backend.length_openKeyspace _ _,
    fun id lt => ?_, ?_⟩
  · rw [opened, Backend.store_openKeyspace name lt]
  · intro id key stored hs
    rw [opened] at hs
    have lt := Backend.lt_length_of_get?_openKeyspace hs
    rw [Backend.store_openKeyspace name lt] at hs
    exact ⟨lt, Or.inl hs⟩

theorem evolves_write (consistent : db.backend.Consistent) (write : SlotWrite) {key : Bytes}
    (permits : db.Permits documents (write.call id key)) :
    Evolves documents db (db.perform (write.call id key) none).2 := by
  by_cases accepts : write.Accepts ((db.backend.store id).get? key)
  · rw [db.perform_write accepts]
    refine evolves_putStore consistent (Store.keyspace_applied _ _ _) fun other stored hs => ?_
    rw [Store.get?_applied] at hs
    split at hs
    · rename_i same
      obtain ⟨bytes, hb, rfl⟩ := Option.map_eq_some_iff.1 hs
      exact Or.inr (same ▸ permits_write.1 permits bytes hb)
    · exact Or.inl hs
  · rw [db.perform_write_of_not accepts]
    exact evolves_of_stores consistent rfl

/-- **What becomes of the stores in a permitted call**, whether it fails or not. -/
theorem evolves_perform (consistent : db.backend.Consistent) {call : Call}
    (permits : db.Permits documents call) (fault : Option Error) :
    Evolves documents db (db.perform call fault).2 := by
  by_cases access : call.IsAccess
  · rcases db.perform_cases call fault with ⟨e, -, he⟩ | hf
    · rw [he]
      exact evolves_of_stores consistent rfl
    rw [hf]
    -- only the conditional writes put values into stores that are there
    cases call with
    | create id key value => exact evolves_write consistent (.create value) permits
    | compareAndSet id key value expected =>
        exact evolves_write consistent (.replace value expected) permits
    | compareAndDelete id key expected =>
        exact evolves_write consistent (.erase expected) permits
    | iter id reverse => exact evolves_putStore consistent rfl fun _ _ hs => Or.inl hs
    | release id => exact evolves_putStore consistent rfl fun _ _ hs => Or.inl hs
    | get | readIndexes | modify => exact evolves_of_stores consistent rfl
    | registerIndex | unregisterIndex | takeIndexes | registerTable | unregisterTable
    | dropKeyspace => exact access.elim
  · rcases db.backend_perform fault access with
      same | ⟨table, name, path, -, opened⟩ | ⟨name, -, opened⟩ | ⟨name, -, dropped⟩
    · exact evolves_of_stores (same ▸ consistent) (congrArg Backend.stores same)
    · exact evolves_openKeyspace consistent _ opened
    · exact evolves_openKeyspace consistent _ opened
    · refine evolves_of_stores (dropped ▸ consistent.dropKeyspace name) ?_
      rw [dropped]
      rfl

/-- A store keeps its name in every call, permitted or not. -/
theorem bears_perform (call : Call) (fault : Option Error) {name : String}
    (h : db.backend.Bears id name) : (db.perform call fault).2.backend.Bears id name := by
  have lt := h.lt_length
  have same : ((db.perform call fault).2.backend.store id).keyspace
      = (db.backend.store id).keyspace := by
    rcases db.store_perform call fault lt with ⟨write, key, -, -, written⟩ | ⟨-, same⟩
    · rw [written, Store.keyspace_applied]
    · exact same
  rw [← h.keyspace, ← same]
  exact .of_lt_length (lt.trans_le (db.length_perform call fault))

/-! ### What becomes of the handles -/

/-- An index that is found after the indexes of a table were replaced was there, or is new. -/
theorem find?_putIndexes {table other : TableId} {indexes : SortedMap String Index}
    {name : String} {index : Index}
    (h : ((db.putIndexes table indexes).indexesOf other).find? name = some index) :
    (db.indexesOf other).find? name = some index ∨
      other = table ∧ indexes.find? name = some index := by
  rw [indexesOf, putIndexes, List.getElem?_set] at h
  split at h
  · rename_i same
    split at h
    · exact Or.inr ⟨same.symm, h⟩
    · cases h
  · exact Or.inl h

/-- **What a call does to the handles.**  None is given out and none is taken away, an index or a
table is made, a table is left with some of its indexes, or a table is taken out of the catalog. -/
theorem perform_handles (db : Database) (call : Call) (fault : Option Error) :
    ((db.perform call fault).2.indexes = db.indexes ∧
        (db.perform call fault).2.catalog = db.catalog) ∨
      (∃ table name path, call = .registerIndex table name path ∧ db.perform call fault
        = (.index (.ok (db.addIndex table name path).1), (db.addIndex table name path).2)) ∨
      (∃ name, call = .registerTable name ∧ db.perform call fault
        = (.table (.ok (db.addTable name).1), (db.addTable name).2)) ∨
      (∃ table left, (db.perform call fault).2 = db.putIndexes table left ∧
        ∀ name index, left.find? name = some index →
          (db.indexesOf table).find? name = some index) ∨
      ∃ name, (db.perform call fault).2 = { db with catalog := db.catalog.erase name } := by
  -- accesses leave the handles alone, so that the other calls remain
  by_cases access : call.IsAccess
  · obtain ⟨-, indexes, catalog, -⟩ := db.perform_of_isAccess fault access
    exact Or.inl ⟨indexes, catalog⟩
  rcases db.perform_cases call fault with ⟨e, -, he⟩ | hf
  · rw [he]
    exact Or.inl ⟨rfl, rfl⟩
  rw [hf]
  cases call with
  | registerIndex table name path =>
      simp only [forward]
      split
      · exact Or.inl ⟨rfl, rfl⟩
      · exact Or.inr (Or.inl ⟨table, name, path, rfl, rfl⟩)
  | registerTable name =>
      simp only [forward]
      split
      · exact Or.inl ⟨rfl, rfl⟩
      · exact Or.inr (Or.inr (Or.inl ⟨name, rfl, rfl⟩))
  | unregisterIndex table name =>
      simp only [forward]
      split
      · refine Or.inr (Or.inr (Or.inr (Or.inl ⟨table, _, rfl, fun other index left => ?_⟩)))
        rw [SortedMap.find?_erase] at left
        split at left
        · cases left
        · exact left
      · exact Or.inl ⟨rfl, rfl⟩
  | takeIndexes table =>
      refine Or.inr (Or.inr (Or.inr (Or.inl ⟨table, .empty, rfl, fun name index left => ?_⟩)))
      cases left
  | unregisterTable name =>
      simp only [forward]
      split
      · exact Or.inr (Or.inr (Or.inr (Or.inr ⟨name, rfl⟩)))
      · exact Or.inl ⟨rfl, rfl⟩
  | dropKeyspace name => exact Or.inl ⟨rfl, rfl⟩
  | get | create | compareAndSet | compareAndDelete | iter | release | readIndexes | modify =>
      exact absurd trivial access

/-- An index that is registered after a call was registered, or was so by the call. -/
theorem find?_indexesOf_perform (db : Database) (call : Call) (fault : Option Error)
    {table : TableId} {name : String} {index : Index}
    (h : ((db.perform call fault).2.indexesOf table).find? name = some index) :
    (db.indexesOf table).find? name = some index ∨
      ∃ owner path, call = .registerIndex owner name path ∧ owner.id = table ∧
        (db.perform call fault).1 = .index (.ok index) := by
  rcases db.perform_handles call fault with
    ⟨same, -⟩ | ⟨owner, new, path, rfl, made⟩ | ⟨new, rfl, made⟩ | ⟨owner, left, eq, kept⟩ |
      ⟨dropped, eq⟩
  · rw [indexesOf, same] at h
    exact Or.inl h
  · rw [made] at h ⊢
    rcases find?_putIndexes h with before | ⟨rfl, inserted⟩
    · exact Or.inl before
    · rw [SortedMap.find?_insert] at inserted
      split at inserted
      · rename_i same
        obtain rfl := same
        obtain rfl := Option.some.inj inserted
        exact Or.inr ⟨owner, path, rfl, rfl, rfl⟩
      · exact Or.inl inserted
  · rw [made, indexesOf_addTable] at h
    exact Or.inl h
  · rw [eq] at h
    rcases find?_putIndexes h with before | ⟨rfl, there⟩
    · exact Or.inl before
    · exact Or.inl (kept name index there)
  · rw [eq] at h
    exact Or.inl h

/-- A table in the catalog after a call was there, or was entered by the call. -/
theorem table?_perform (db : Database) (call : Call) (fault : Option Error) {name : String}
    {table : Table} (h : (db.perform call fault).2.table? name = some table) :
    db.table? name = some table ∨
      call = .registerTable name ∧
        db.perform call fault = (.table (.ok table), (db.addTable name).2) := by
  rcases db.perform_handles call fault with
    ⟨-, same⟩ | ⟨owner, new, path, rfl, made⟩ | ⟨new, rfl, made⟩ | ⟨owner, left, eq, -⟩ |
      ⟨dropped, eq⟩
  · rw [table?, same] at h
    exact Or.inl h
  · rw [made] at h
    exact Or.inl h
  · rw [made] at h ⊢
    rw [table?, addTable, SortedMap.find?_insert] at h
    split at h
    · rename_i same
      obtain rfl := same
      obtain rfl := Option.some.inj h
      exact Or.inr ⟨rfl, rfl⟩
    · exact Or.inl h
  · rw [eq] at h
    exact Or.inl h
  · rw [eq, table?, SortedMap.find?_erase] at h
    split at h
    · cases h
    · exact Or.inl h

/-- The store of an index that was registered bears its name. -/
theorem bears_of_registerIndex (consistent : db.backend.Consistent) {table : Table}
    {name : String} {path : FieldPath} {fault : Option Error} {index : Index}
    (h : (db.perform (.registerIndex table name path) fault).1 = .index (.ok index)) :
    (db.perform (.registerIndex table name path) fault).2.backend.Bears index.buckets
      (Name.buckets table.name name) := by
  rcases db.perform_cases (.registerIndex table name path) fault with ⟨e, -, he⟩ | hf
  · rw [he] at h
    cases h
  · rw [hf] at h ⊢
    simp only [forward] at h ⊢
    split at h
    · cases h
    · obtain rfl := Except.ok.inj (Reply.index.inj h)
      exact (consistent.openKeyspace (Name.buckets table.name name)).2

/-- A table that was registered is the new one. -/
theorem eq_addTable_of_registerTable {name : String} {fault : Option Error} {table : Table}
    (h : (db.perform (.registerTable name) fault).1 = .table (.ok table)) :
    db.addTable name = (table, (db.perform (.registerTable name) fault).2) := by
  rcases db.perform_cases (.registerTable name) fault with ⟨e, -, he⟩ | hf
  · rw [he] at h
    cases h
  · rw [hf] at h ⊢
    simp only [forward] at h ⊢
    split at h
    · cases h
    · obtain rfl := Except.ok.inj (Reply.table.inj h)
      rfl

/-- The indexes that are read are registered. -/
theorem exists_find?_of_readIndexes {table : TableId} {fault : Option Error}
    {indexes : List Index} (h : (db.perform (.readIndexes table) fault).1 = .indexes indexes)
    {index : Index} (hi : index ∈ indexes) :
    ∃ name, (db.indexesOf table).find? name = some index := by
  rcases db.perform_cases (.readIndexes table) fault with ⟨e, -, he⟩ | hf
  · rw [he] at h
    cases h
  · rw [hf] at h
    obtain rfl := Reply.indexes.inj h
    obtain ⟨⟨name, _⟩, entry, rfl⟩ := List.mem_map.1 hi
    exact ⟨name, SortedMap.find?_eq_some_iff.2 entry⟩

/-- A new table has a store that bears its name. -/
theorem bears_addTable (consistent : db.backend.Consistent) (name : String) :
    (db.addTable name).2.backend.Bears (db.addTable name).1.documents (Name.documents name) :=
  (consistent.openKeyspace (Name.documents name)).2

/-- Whatever happens besides evolves the stores, and gives no handles out. -/
theorem evolves_elsewhere (consistent : db.backend.Consistent) (h : Elsewhere documents db after) :
    Evolves documents db after ∧ after.indexes = db.indexes ∧ after.catalog = db.catalog := by
  have released : ∀ id, Evolves documents db (db.putBackend (db.backend.releaseCursor id)) :=
    fun id => evolves_putStore consistent rfl fun _ _ hs => Or.inl hs
  cases h with
  | pull range =>
      unfold pull
      split
      · exact ⟨evolves_of_stores consistent rfl, rfl, rfl⟩
      · exact ⟨released _, rfl, rfl⟩
      · exact ⟨evolves_of_stores consistent rfl, rfl, rfl⟩
  | close range =>
      unfold close
      split
      · exact ⟨evolves_of_stores consistent rfl, rfl, rfl⟩
      · exact ⟨released _, rfl, rfl⟩
  | set value apart listed =>
      refine ⟨evolves_putStore consistent (Store.keyspace_set _ _ _) ?_, rfl, rfl⟩
      intro other stored hs
      rw [Store.get?_set] at hs
      split at hs
      · rename_i same
        subst same
        -- the store has no buckets, so that nothing is asked of the value
        refine Or.inr ⟨?_, fun _ => listed⟩
        rintro ⟨table, index, hb⟩
        exact absurd hb.keyspace (apart table index)
      · exact Or.inl hs
  | delete key apart =>
      refine ⟨evolves_putStore consistent (Store.keyspace_delete _ _) ?_, rfl, rfl⟩
      intro other stored hs
      rw [Store.get?_delete] at hs
      split at hs
      · cases hs
      · exact Or.inl hs
  | openKeyspace name => exact ⟨evolves_openKeyspace consistent name rfl, rfl, rfl⟩
  | dropKeyspace name =>
      exact ⟨evolves_of_stores (consistent.dropKeyspace name) rfl, rfl, rfl⟩

/-! ### The order is kept -/

namespace Orderly

variable (orderly : db.Orderly documents)
include orderly

/-- An index that was registered has a store of buckets. -/
theorem hasBuckets_of_registerIndex {fault : Option Error} {table : Table} {name : String}
    {path : FieldPath} {index : Index}
    (h : (db.perform (.registerIndex table name path) fault).1 = .index (.ok index)) :
    (db.perform (.registerIndex table name path) fault).2.HasBuckets index.buckets :=
  ⟨table.name, name, bears_of_registerIndex orderly.consistent h⟩

/-- A table that was registered has a store of documents. -/
theorem hasDocuments_of_registerTable {fault : Option Error} {name : String} {table : Table}
    (h : (db.perform (.registerTable name) fault).1 = .table (.ok table)) :
    (db.perform (.registerTable name) fault).2.HasDocuments table.documents := by
  have bears := bears_addTable orderly.consistent name
  rw [eq_addTable_of_registerTable h] at bears
  exact ⟨name, bears⟩

/-- **A permitted call keeps the order**, also if it fails. -/
theorem perform {call : Call} (permits : db.Permits documents call) (fault : Option Error) :
    (db.perform call fault).2.Orderly documents := by
  refine (evolves_perform orderly.consistent permits fault).orderly orderly ?_ ?_
  · intro table name index found
    rcases db.find?_indexesOf_perform call fault found with before | ⟨owner, path, rfl, -, made⟩
    · exact Or.inl before
    · exact Or.inr (orderly.hasBuckets_of_registerIndex made)
  · intro name table found
    rcases db.table?_perform call fault found with before | ⟨rfl, made⟩
    · exact Or.inl before
    · exact Or.inr (orderly.hasDocuments_of_registerTable (congrArg Prod.fst made))

/-- **So does all that happens besides**, as long as nobody writes buckets. -/
theorem elsewhere (h : Elsewhere documents db after) : after.Orderly documents := by
  obtain ⟨evolves, indexes, catalog⟩ := evolves_elsewhere orderly.consistent h
  refine evolves.orderly orderly ?_ ?_
  · intro table name index hi
    rw [indexesOf, indexes] at hi
    exact Or.inl hi
  · intro name table ht
    rw [table?, catalog] at ht
    exact Or.inl ht

/-! ### What an operation may rely on -/

variable {fault : Option Error}

/-- A bucket that is read is well-formed. -/
theorem wellFormed_of_get {key : Bytes} (hb : db.HasBuckets id) {stored : Versioned Bytes}
    (h : (db.perform (.get id key) fault).1 = .document (.ok (some stored))) :
    Bucket.WellFormed documents stored.value := by
  rcases db.perform_cases (.get id key) fault with ⟨e, -, he⟩ | hf
  · rw [he] at h
    cases h
  · rw [hf] at h
    simp only [forward, Reply.document.injEq, Except.ok.injEq] at h
    exact (orderly.values id key stored h).1 hb

/-- The indexes that are read have stores of buckets. -/
theorem hasBuckets_of_readIndexes {table : TableId} {indexes : List Index}
    (h : (db.perform (.readIndexes table) fault).1 = .indexes indexes) {index : Index}
    (hi : index ∈ indexes) : db.HasBuckets index.buckets := by
  obtain ⟨name, found⟩ := exists_find?_of_readIndexes h hi
  exact orderly.registered table name index found

/-- The documents that a cursor gives can be listed. -/
theorem listed_of_iter (hd : db.HasDocuments id) {cursor : Cursor}
    (h : (db.perform (.iter id false) fault).1 = .cursor (.ok cursor)) {e : Entry}
    (he : e ∈ (Range.onCursor id cursor .min .max false).drain) : e.keyText ∈ documents := by
  rcases db.perform_cases (.iter id false) fault with ⟨e, -, he⟩ | hf
  · rw [he] at h
    cases h
  · rw [hf] at h
    obtain rfl := Except.ok.inj (Reply.cursor.inj h)
    rw [Range.drain_all] at he
    exact (orderly.values id _ _ (Store.mem_snapshot.1 he)).2 hd

end Orderly

end Database

end DocStore
