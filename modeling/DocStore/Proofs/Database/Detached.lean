/-
Handles of tables that were dropped.

A handle of a table has its number, the store of its documents, and its name.  The number and the
store are given out once, so that nobody else has them after the table was dropped.  But the name
may have come to another table by then, and an index is made and dropped by the names of its table
and itself: this is the one way back to what others have.

* `Database.Moves` — what others may do; `Database.Changes` — what this may do to names and numbers;
* `Call.Respects` — a call that makes no index under the number of a table, apart from some;
* `Database.Catalogued` — every table in the catalog has a number and a store of its own;
* `Database.Removed`, `Database.Stripped`, `Database.Detached` — a table that is not in the catalog
  any more, whose indexes are gone, and whose store has no name;
* `TableDrop.detached_of_ends` — **a drop that succeeds detaches the table,** also when others are
  at work;
* `Table.throughHandle` — operations through the handle, one after another or at once, while others
  do what they like;
* `Database.Unreached` — nothing has been changed that anybody else can find;
* `Database.detached_reaches_nothing` — **operations through the handle reach nothing of others,**
  apart from the keyspaces of indexes that were made through it since;
* `Database.detached_drops_index` — such an index, and what it does.
-/

import DocStore.Proofs.Database.Drops
import DocStore.Proofs.Database.Isolation
import DocStore.Proofs.Run.Trace
import Mathlib.Logic.Relation

set_option autoImplicit false

namespace DocStore

variable {kind : Call → Prop} {db after : Database} {table : Table} {reopened : Set String}
  {name : String} {id : StoreId}

/-! ### What others do -/

/-- What others may do in one step: a call of this kind, or something besides. -/
inductive Database.Moves (kind : Call → Prop) (db : Database) : Database → Prop
  /-- A call is made. -/
  | perform (call : Call) (fault : Option Error) (ofKind : kind call) :
      Moves kind db (db.perform call fault).2
  /-- Something else happens. -/
  | elsewhere {documents : Set String} {after : Database}
      (besides : db.Elsewhere documents after) : Moves kind db after

/-- A call that makes no index under the number of the table, unless it is made through this handle
and has one of these names. -/
def Call.Respects (table : Table) (reopened : Set String) (call : Call) : Prop :=
  ∀ owner i path, call = .registerIndex owner i path → owner.id = table.id →
    owner = table ∧ i ∈ reopened

namespace Database

/-- What a step has done to names, numbers and handles. -/
structure Changes (kind : Call → Prop) (db after : Database) : Prop where
  consistent : after.backend.Consistent
  bears : ∀ id name, db.backend.Bears id name → after.backend.Bears id name
  length : db.indexes.length ≤ after.indexes.length
  beyond : ∀ count name, db.backend.Beyond count name → after.backend.Beyond count name
  /-- No table has come into the catalog, or one was made. -/
  tables : (∀ name table, after.table? name = some table → db.table? name = some table) ∨
    ∃ name, kind (.registerTable name) ∧ after = (db.addTable name).2
  /-- An index that is registered was so, or was made. -/
  indexes : ∀ number i index, (after.indexesOf number).find? i = some index →
    (db.indexesOf number).find? i = some index ∨
      ∃ owner path, kind (.registerIndex owner i path) ∧ owner.id = number ∧
        after.backend.Bears index.buckets (Name.buckets owner.name i)

/-- What a call does to names, numbers and handles. -/
theorem changes_perform (kind : Call → Prop) (consistent : db.backend.Consistent) {call : Call}
    (ofKind : kind call)
    (fault : Option Error) : Changes kind db (db.perform call fault).2 := by
  have indexes : ∀ number i index,
      ((db.perform call fault).2.indexesOf number).find? i = some index →
        (db.indexesOf number).find? i = some index ∨
          ∃ owner path, kind (.registerIndex owner i path) ∧ owner.id = number ∧
            (db.perform call fault).2.backend.Bears index.buckets
              (Name.buckets owner.name i) := by
    intro number i index found
    rcases db.find?_indexesOf_perform call fault found with before | ⟨owner, path, rfl, same, made⟩
    · exact Or.inl before
    · exact Or.inr ⟨owner, path, ofKind, same, bears_of_registerIndex consistent made⟩
  rcases db.length_indexes_perform call fault with ⟨new, rfl, made⟩ | same
  · refine ⟨consistent_perform _ fault consistent, fun _ _ => bears_perform _ fault, ?_,
      fun _ _ h => beyond_perform h _ fault, Or.inr ⟨new, ofKind, by rw [made]⟩, indexes⟩
    rw [made]
    exact (List.length_append ..).symm ▸ Nat.le_add_right _ _
  · refine ⟨consistent_perform _ fault consistent, fun _ _ => bears_perform _ fault,
      Nat.le_of_eq same.symm, fun _ _ h => beyond_perform h _ fault, Or.inl ?_, indexes⟩
    intro name table found
    rcases db.table?_perform call fault found with before | ⟨rfl, made⟩
    · exact before
    -- if the call had made a table, there would be one more number
    · rw [made] at same
      exact absurd ((List.length_append ..).symm.trans same) (Nat.succ_ne_self _)

/-- **What others do to names, numbers and handles.** -/
theorem Moves.changes (moves : db.Moves kind after) (consistent : db.backend.Consistent) :
    Changes kind db after := by
  cases moves with
  | perform call fault ofKind => exact changes_perform kind consistent ofKind fault
  | elsewhere besides =>
      obtain ⟨evolves, indexes, catalog⟩ := evolves_elsewhere consistent besides
      refine ⟨evolves.consistent, fun _ _ => evolves.bears, ?_,
        fun _ _ h => beyond_elsewhere h besides, Or.inl ?_, ?_⟩
      · rw [indexes]
      · intro name table found
        rwa [table?, catalog] at found
      · intro number i index found
        rw [indexesOf, indexes] at found
        exact Or.inl found

/-! ### Tables in the catalog -/

/-- Every table in the catalog has a number and a store of its own, and every index has a store of
buckets. -/
structure Catalogued (db : Database) : Prop where
  consistent : db.backend.Consistent
  tables : ∀ name table, db.table? name = some table → table.name = name ∧
    table.id < db.indexes.length ∧ db.backend.Bears table.documents (Name.documents name)
  distinct : ∀ name other table table', db.table? name = some table →
    db.table? other = some table' → table.id = table'.id → name = other
  buckets : ∀ number i index, (db.indexesOf number).find? i = some index →
    db.HasBuckets index.buckets

theorem catalogued_empty (config : Config) : (empty config).Catalogued where
  consistent := Backend.consistent_empty
  tables _ _ h := nomatch h
  distinct _ _ _ _ h := nomatch h
  buckets _ _ _ h := nomatch h

/-- A step keeps this. -/
theorem Catalogued.changes (h : db.Catalogued) (changes : Changes kind db after) :
    after.Catalogued := by
  have buckets : ∀ number i index, (after.indexesOf number).find? i = some index →
      after.HasBuckets index.buckets := by
    intro number i index found
    rcases changes.indexes number i index found with before | ⟨owner, -, -, -, bears⟩
    · obtain ⟨table, j, bears⟩ := h.buckets number i index before
      exact ⟨table, j, changes.bears _ _ bears⟩
    · exact ⟨owner.name, i, bears⟩
  have kept : ∀ name table, db.table? name = some table → table.name = name ∧
      table.id < after.indexes.length ∧
        after.backend.Bears table.documents (Name.documents name) := by
    intro name table found
    obtain ⟨named, known, stored⟩ := h.tables name table found
    exact ⟨named, known.trans_le changes.length, changes.bears _ _ stored⟩
  rcases changes.tables with before | ⟨new, -, rfl⟩
  · refine ⟨changes.consistent, fun name table found => kept name table (before name table found),
      fun name other table table' ht ht' => ?_, buckets⟩
    exact h.distinct name other table table' (before name table ht) (before other table' ht')
  · refine ⟨changes.consistent, fun name table found => ?_, ?_, buckets⟩
    · rcases table?_addTable_cases found with ⟨rfl, rfl⟩ | before
      · refine ⟨rfl, ?_, bears_addTable h.consistent name⟩
        have longer : (db.addTable name).2.indexes.length = db.indexes.length + 1 :=
          List.length_append
        exact longer ▸ Nat.lt_succ_self _
      · exact kept name table before
    · -- the number of the new table is beyond those of the others
      intro name other table table' ht ht' same
      rcases table?_addTable_cases ht with ⟨rfl, rfl⟩ | before
      · rcases table?_addTable_cases ht' with ⟨rfl, -⟩ | before'
        · rfl
        · exact absurd same.symm (Nat.ne_of_lt (h.tables _ _ before').2.1)
      · rcases table?_addTable_cases ht' with ⟨rfl, rfl⟩ | before'
        · exact absurd same (Nat.ne_of_lt (h.tables _ _ before).2.1)
        · exact h.distinct _ _ _ _ before before' same

/-- In every database that is reached from a fresh one the tables are so. -/
theorem Reaches.catalogued {config : Config} (reached : (empty config).Reaches db) :
    db.Catalogued := by
  induction reached with
  | here => exact catalogued_empty config
  | perform before call fault ih =>
      exact ih.changes (changes_perform (fun _ => True) ih.consistent trivial fault)
  | elsewhere before besides ih =>
      have moves : Moves (fun _ => True) _ _ := .elsewhere besides
      exact ih.changes (moves.changes ih.consistent)

/-! ### A table that is taken out of the catalog -/

/-- The table was made once, and in the catalog nobody has its number or its store. -/
structure Removed (table : Table) (db : Database) : Prop where
  catalogued : db.Catalogued
  known : table.id < db.indexes.length
  stored : db.backend.Bears table.documents (Name.documents table.name)
  apart : ∀ name other, db.table? name = some other →
    other.id ≠ table.id ∧ other.documents ≠ table.documents

/-- The store of an index that was made through a handle of the table, and has one of these
names. -/
def Reopened (table : Table) (reopened : Set String) (db : Database) (id : StoreId) : Prop :=
  ∃ i ∈ reopened, db.backend.Bears id (Name.buckets table.name i)

/-- The table has no indexes either, apart from some that were made since. -/
structure Stripped (table : Table) (reopened : Set String) (db : Database) : Prop where
  removed : Removed table db
  registered : ∀ i index, (db.indexesOf table.id).find? i = some index →
    i ∈ reopened ∧ db.backend.Bears index.buckets (Name.buckets table.name i)

/-- Nor has its store a name, and it does not get one any more. -/
structure Detached (table : Table) (reopened : Set String) (db : Database) : Prop where
  stripped : Stripped table reopened db
  unnamed : db.backend.Beyond (table.documents + 1) (Name.documents table.name)

/-- A table that is taken out of the catalog leaves others there, with their own numbers and
stores. -/
theorem Catalogued.removed (h : db.Catalogued) (found : db.table? table.name = some table) :
    Removed table { db with catalog := db.catalog.erase table.name } := by
  obtain ⟨-, known, stored⟩ := h.tables table.name table found
  have left : ∀ name other,
      ({ db with catalog := db.catalog.erase table.name } : Database).table? name = some other →
        name ≠ table.name ∧ db.table? name = some other := by
    intro name other there
    rw [table?, SortedMap.find?_erase] at there
    split at there
    · cases there
    · rename_i different
      exact ⟨different, there⟩
  refine ⟨⟨h.consistent, fun name other there => h.tables name other (left name other there).2, ?_,
    h.buckets⟩, known, stored, fun name other there => ?_⟩
  · intro name other first second there there'
    exact h.distinct name other first second (left _ _ there).2 (left _ _ there').2
  · obtain ⟨different, there⟩ := left name other there
    refine ⟨fun same => different (h.distinct _ _ _ _ there found same), fun same => different ?_⟩
    have bears := (h.tables name other there).2.2
    rw [same] at bears
    exact Name.documents_injective (bears.keyspace.symm.trans stored.keyspace)

/-- The table stays out of the catalog, unless another one is made that gets its store. -/
theorem Removed.changes (h : Removed table db) (changes : Changes kind db after)
    (free : kind (.registerTable table.name) →
      db.backend.Beyond (table.documents + 1) (Name.documents table.name)) :
    Removed table after := by
  have stored := changes.bears _ _ h.stored
  refine ⟨h.catalogued.changes changes, h.known.trans_le changes.length, stored, ?_⟩
  rcases changes.tables with before | ⟨new, ofKind, rfl⟩
  · exact fun name other found => h.apart name other (before name other found)
  · intro name other found
    rcases table?_addTable_cases found with ⟨rfl, rfl⟩ | before
    · refine ⟨fun same => absurd same.symm (Nat.ne_of_lt h.known), fun same => ?_⟩
      have own : (db.addTable name).1.documents
          = (db.backend.openKeyspace (Name.documents name)).1 := rfl
      -- the new store has another name, or the old one cannot be opened
      have named : Name.documents name = Name.documents table.name :=
        (bears_addTable h.catalogued.consistent name).keyspace.symm.trans
          (same ▸ stored.keyspace)
      obtain rfl := Name.documents_injective named
      have beyond := (free ofKind).le_openKeyspace
      rw [← own, same] at beyond
      exact absurd beyond (Nat.not_succ_le_self _)
    · exact h.apart name other before

theorem Stripped.changes (h : Stripped table reopened db) (changes : Changes kind db after)
    (respects : ∀ call, kind call → call.Respects table reopened)
    (free : kind (.registerTable table.name) →
      db.backend.Beyond (table.documents + 1) (Name.documents table.name)) :
    Stripped table reopened after := by
  refine ⟨h.removed.changes changes free, fun i index found => ?_⟩
  rcases changes.indexes table.id i index found with before | ⟨owner, path, ofKind, same, bears⟩
  · obtain ⟨mem, bears⟩ := h.registered i index before
    exact ⟨mem, changes.bears _ _ bears⟩
  · obtain ⟨rfl, mem⟩ := respects _ ofKind owner i path rfl same
    exact ⟨mem, bears⟩

/-- **A table that is detached stays so,** as long as nobody makes other indexes under its
number. -/
theorem Detached.changes (h : Detached table reopened db) (changes : Changes kind db after)
    (respects : ∀ call, kind call → call.Respects table reopened) :
    Detached table reopened after :=
  ⟨h.stripped.changes changes respects fun _ => h.unnamed, changes.beyond _ _ h.unnamed⟩

namespace Detached

variable (h : Detached table reopened db)
include h

theorem consistent : db.backend.Consistent :=
  h.stripped.removed.catalogued.consistent

/-- No keyspace leads to the store of its documents. -/
theorem ne_of_find? (found : db.backend.find? name = some id) : id ≠ table.documents := by
  rintro rfl
  have bears : db.backend.Bears table.documents name := h.consistent name _ found
  obtain rfl := bears.keyspace.symm.trans h.stripped.removed.stored.keyspace
  exact absurd (h.unnamed.2 _ found) (Nat.not_succ_le_self _)

/-- No index has it either. -/
theorem ne_of_hasBuckets (buckets : db.HasBuckets id) : id ≠ table.documents := by
  rintro rfl
  exact buckets.not_hasDocuments ⟨table.name, h.stripped.removed.stored⟩

end Detached

end Database

/-! ### The drop -/

/-- What others may do while the table is dropped: they make no table of this name, and no index
under its number, apart from some. -/
def Call.Leaves (table : Table) (reopened : Set String) (call : Call) : Prop :=
  call.Respects table reopened ∧ call ≠ .registerTable table.name

/-- An operation among others who make calls of one kind, and any call may fail. -/
def Disturbance.ofMoves (τ : Type) (kind : Call → Prop) : Disturbance τ where
  others := Relation.ReflTransGen (Database.Moves kind)
  faults _ _ _ := True
  varies task now := now = task

namespace TableDrop

variable {d : TableDrop}

/-- The drop of the table has come as far as its stage says: the names that are left to drop end
with that of the documents. -/
def Detaches (table : Table) (reopened : Set String) (db : Database) (d : TableDrop) : Prop :=
  d.name = table.name ∧
    match d.stage with
    | .unregistering => db.Catalogued ∧
        ∀ other, db.table? table.name = some other → other = table
    | .taking other => other = table ∧ db.Removed table
    | .dropping keyspace rest => db.Stripped table reopened ∧
        ∃ names, keyspace :: rest = names ++ [Name.documents table.name]

theorem detaches_changes (h : d.Detaches table reopened db)
    (changes : Database.Changes (Call.Leaves table reopened) db after) :
    d.Detaches table reopened after := by
  have free : Call.Leaves table reopened (.registerTable table.name) →
      db.backend.Beyond (table.documents + 1) (Name.documents table.name) :=
    fun leaves => absurd rfl leaves.2
  obtain ⟨name, stage⟩ := d
  refine ⟨h.1, ?_⟩
  cases stage with
  | unregistering =>
      obtain ⟨-, catalogued, only⟩ := h
      refine ⟨catalogued.changes changes, fun other found => ?_⟩
      rcases changes.tables with before | ⟨new, leaves, rfl⟩
      · exact only other (before _ other found)
      · rcases Database.table?_addTable_cases found with ⟨rfl, -⟩ | before
        · exact absurd rfl leaves.2
        · exact only other before
  | taking other =>
      obtain ⟨-, rfl, removed⟩ := h
      exact ⟨rfl, removed.changes changes free⟩
  | dropping keyspace rest =>
      obtain ⟨-, stripped, names⟩ := h
      exact ⟨stripped.changes changes (fun _ leaves => leaves.1) free, names⟩

theorem Detaches.consistent (h : d.Detaches table reopened db) : db.backend.Consistent := by
  obtain ⟨name, stage⟩ := d
  cases stage with
  | unregistering => exact h.2.1.consistent
  | taking other => exact h.2.2.catalogued.consistent
  | dropping keyspace rest => exact h.2.1.removed.catalogued.consistent

/-- The drop goes on with the names that are left, or has ended. -/
theorem detaches_next (same : d.name = table.name) (stripped : db.Stripped table reopened)
    {names : List String} (left : ∃ before, names = before ++ [Name.documents table.name]) :
    (d.next names).Satisfies (Detaches table reopened db) fun result =>
      result = .ok () → db.Detached table reopened := by
  cases names with
  | nil =>
      obtain ⟨before, eq⟩ := left
      exact absurd eq.symm (List.append_ne_nil_of_right_ne_nil _ (List.cons_ne_nil _ _))
  | cons keyspace rest => exact ⟨same, stripped, left⟩

/-- **Every call of the drop brings the table on its way.** -/
theorem detaches_step (h : d.Detaches table reopened db) (fault : Option Error) :
    (Task.resume d (db.perform (Task.call d) fault).1).Satisfies
      (Detaches table reopened (db.perform (Task.call d) fault).2) fun result =>
        result = .ok () → (db.perform (Task.call d) fault).2.Detached table reopened := by
  obtain ⟨name, stage⟩ := d
  obtain rfl : name = table.name := h.1
  cases stage with
  | unregistering =>
      obtain ⟨-, catalogued, only⟩ := h
      simp only [Task.call]
      rw [Database.perform_of_site?_none rfl]
      cases found : db.table? table.name with
      | none =>
          rw [Database.perform_unregisterTable_of_none found]
          rintro ⟨⟩
      | some other =>
          rw [Database.perform_unregisterTable_of_some found]
          exact ⟨rfl, only other found, catalogued.removed (only other found ▸ found)⟩
  | taking other =>
      obtain ⟨-, rfl, removed⟩ := h
      simp only [Task.call]
      rw [Database.perform_of_site?_none rfl]
      refine detaches_next rfl ?_ ⟨_, rfl⟩
      have changes := Database.changes_perform (fun call => call = .takeIndexes other.id)
        removed.catalogued.consistent rfl none
      refine ⟨removed.changes changes (by rintro ⟨⟩), fun i index found => ?_⟩
      rw [Database.perform_none] at found
      simp only [Database.forward, Database.indexesOf_putIndexes_empty] at found
      cases found
  | dropping keyspace rest =>
      obtain ⟨-, stripped, names, eq⟩ := h
      have changes := Database.changes_perform (fun call => call = .dropKeyspace keyspace)
        stripped.removed.catalogued.consistent rfl fault
      have still : (db.perform (.dropKeyspace keyspace) fault).2.Stripped table reopened :=
        stripped.changes changes (fun _ same => by rintro _ _ _ rfl; cases same)
          (by rintro ⟨⟩)
      simp only [Task.call]
      rcases db.perform_cases (.dropKeyspace keyspace) fault with ⟨e, -, failed⟩ | forward
      · rw [failed]
        rintro ⟨⟩
      · rw [forward] at still ⊢
        cases names with
        | cons first names =>
            obtain ⟨rfl, rfl⟩ := List.cons.inj eq
            exact detaches_next rfl still ⟨names, rfl⟩
        | nil =>
            -- the name of the documents was the last one
            obtain ⟨rfl, rfl⟩ := List.cons.inj eq
            refine fun _ => ⟨still, still.removed.stored.lt_length, fun id found => ?_⟩
            rw [Backend.find?] at found
            exact absurd found (by
              simp only [Database.forward, Database.putBackend, Backend.dropKeyspace,
                SortedMap.find?_erase, if_pos]
              rintro ⟨⟩)

/-- **A drop that succeeds detaches the table,** also when others are at work. -/
theorem detached_of_ends (catalogued : db.Catalogued) (found : db.table? table.name = some table)
    {steps : List Footprint}
    (dropped : Ends (.ofMoves TableDrop (Call.Leaves table reopened)) db (dropTable table.name)
      steps (.ok ()) after) : after.Detached table reopened := by
  refine dropped.satisfies (P := Detaches table reopened)
    (Q := fun db result => result = .ok () → db.Detached table reopened) ?_
    (fun _ _ fault h _ => detaches_step h fault) ?_ rfl
  · rintro db seen task _ h moves rfl
    induction moves with
    | refl => exact h
    | tail _ move ih => exact detaches_changes ih (move.changes ih.consistent)
  · refine ⟨rfl, catalogued, fun other there => ?_⟩
    exact Option.some.inj (there.symm.trans found)

end TableDrop

/-! ### Calls through the handle -/

namespace Database

/-- A call that writes the documents of the table, or has to do with indexes that were made through
the handle since. -/
def Allows (table : Table) (reopened : Set String) (db : Database) : Call → Prop
  | .create id _ _ => id = table.documents ∨ db.Reopened table reopened id
  | .compareAndSet id _ _ _ => id = table.documents ∨ db.Reopened table reopened id
  | .compareAndDelete id _ _ => id = table.documents ∨ db.Reopened table reopened id
  | .registerIndex owner name _ => owner = table ∧ name ∈ reopened
  | .unregisterIndex number _ => number = table.id
  | .dropKeyspace name => ∃ i ∈ reopened, Name.buckets table.name i = name
  | .takeIndexes _ => False
  | .registerTable _ => False
  | .unregisterTable _ => False
  | _ => True

theorem allows_write {write : SlotWrite} {key : Bytes} :
    db.Allows table reopened (write.call id key)
      ↔ id = table.documents ∨ db.Reopened table reopened id := by
  cases write <;> exact Iff.rfl

theorem allows_of_reads {call : Call} (h : call.Reads) : db.Allows table reopened call := by
  cases call <;> trivial

theorem allows_edit {edit : BucketEdit}
    (h : db.Reopened table reopened edit.membership.index.buckets) :
    db.Allows table reopened (Task.call edit) := by
  rcases edit.call_cases with ⟨-, hc⟩ | ⟨write, -, hc⟩
  · rw [hc]
    trivial
  · rw [hc]
    exact allows_write.2 (Or.inr h)

theorem respects_of_allows {call : Call} (allowed : db.Allows table reopened call) :
    call.Respects table reopened := by
  rintro owner i path rfl -
  exact allowed

/-- What such a call leaves alone: the catalog, the indexes of other tables, and all keyspaces and
stores but those of its own. -/
structure Untouched (table : Table) (reopened : Set String) (db after : Database) : Prop where
  catalog : after.catalog = db.catalog
  indexes : ∀ number, number ≠ table.id → after.indexesOf number = db.indexesOf number
  keyspaces : ∀ name, (∀ i ∈ reopened, name ≠ Name.buckets table.name i) →
    after.backend.find? name = db.backend.find? name
  slots : ∀ id, id < db.backend.stores.length → id ≠ table.documents →
    ¬ db.Reopened table reopened id →
      (after.backend.store id).slots = (db.backend.store id).slots

theorem untouched_perform {call : Call} (allowed : db.Allows table reopened call)
    (fault : Option Error) : Untouched table reopened db (db.perform call fault).2 := by
  have handles : (db.perform call fault).2.catalog = db.catalog ∧
      ∀ number, number ≠ table.id →
        (db.perform call fault).2.indexesOf number = db.indexesOf number := by
    by_cases access : call.IsAccess
    · obtain ⟨-, indexes, catalog, -⟩ := db.perform_of_isAccess fault access
      refine ⟨catalog, fun number _ => ?_⟩
      rw [indexesOf, indexes]
      rfl
    rcases db.perform_cases call fault with ⟨e, -, he⟩ | hf
    · rw [he]
      exact ⟨rfl, fun _ _ => rfl⟩
    rw [hf]
    cases call with
    | registerIndex owner i path =>
        obtain ⟨rfl, -⟩ := allowed
        simp only [forward]
        split
        · exact ⟨rfl, fun _ _ => rfl⟩
        · exact ⟨rfl, fun _ ne => indexesOf_putIndexes_of_ne _ ne _⟩
    | unregisterIndex number i =>
        obtain rfl : number = table.id := allowed
        simp only [forward]
        split
        · exact ⟨rfl, fun _ ne => indexesOf_putIndexes_of_ne _ ne _⟩
        · exact ⟨rfl, fun _ _ => rfl⟩
    | dropKeyspace name => exact ⟨rfl, fun _ _ => rfl⟩
    | takeIndexes | registerTable | unregisterTable => exact allowed.elim
    | get | create | compareAndSet | compareAndDelete | iter | release | readIndexes | modify =>
        exact absurd trivial access
  refine ⟨handles.1, handles.2, fun name other => db.find?_perform fault ?_ ?_ ?_, ?_⟩
  · rintro owner i path rfl
    obtain ⟨rfl, mem⟩ := allowed
    exact other i mem
  · rintro made rfl
    exact allowed.elim
  · rintro rfl
    obtain ⟨i, mem, same⟩ := allowed
    exact other i mem same.symm
  · intro id there ne closed
    rcases db.store_perform call fault there with ⟨write, key, rfl, -, -⟩ | ⟨same, -⟩
    · exact absurd (allows_write.1 allowed) (not_or.2 ⟨ne, closed⟩)
    · exact same

/-- Nothing has been changed that anybody else can find, by the name of a keyspace or by a table in
the catalog, apart from the keyspaces of indexes that were made through the handle since: keyspaces
lead to the same stores, tables have the same indexes, and all slots are the same, with their
counters, those of deleted keys among them. -/
structure Unreached (table : Table) (reopened : Set String) (db after : Database) : Prop where
  catalog : after.catalog = db.catalog
  keyspaces : ∀ name, (∀ i ∈ reopened, name ≠ Name.buckets table.name i) →
    after.backend.find? name = db.backend.find? name ∧
      ∀ id, db.backend.find? name = some id →
        (after.backend.store id).slots = (db.backend.store id).slots
  tables : ∀ name other, db.table? name = some other →
    after.indexesOf other.id = db.indexesOf other.id ∧
      (after.backend.store other.documents).slots
        = (db.backend.store other.documents).slots ∧
      ∀ i index, (db.indexesOf other.id).find? i = some index →
        ¬ db.Reopened table reopened index.buckets →
          (after.backend.store index.buckets).slots = (db.backend.store index.buckets).slots

/-- What is left alone by a table that is detached is all that others can find. -/
theorem Untouched.unreached (h : Untouched table reopened db after)
    (detached : db.Detached table reopened) : Unreached table reopened db after := by
  have catalogued := detached.stripped.removed.catalogued
  refine ⟨h.catalog, fun name closed => ⟨h.keyspaces name closed, fun id found => ?_⟩, ?_⟩
  · have bears : db.backend.Bears id name := detached.consistent name id found
    refine h.slots id bears.lt_length (detached.ne_of_find? found) ?_
    rintro ⟨i, mem, bears'⟩
    exact closed i mem (bears.keyspace.symm.trans bears'.keyspace)
  · intro name other found
    obtain ⟨ne, ne'⟩ := detached.stripped.removed.apart name other found
    have stored := (catalogued.tables name other found).2.2
    refine ⟨h.indexes _ ne, h.slots _ stored.lt_length ne' ?_, fun i index there closed => ?_⟩
    · rintro ⟨i, -, bears⟩
      exact Name.buckets_ne_documents _ _ _ (bears.keyspace.symm.trans stored.keyspace)
    · obtain ⟨owner, j, bears⟩ := catalogued.buckets _ i index there
      exact h.slots _ bears.lt_length (detached.ne_of_hasBuckets ⟨owner, j, bears⟩) closed

end Database

/-! ### Operations through the handle -/

/-- The creation of an index through the handle, by one of these names. -/
structure IndexCreation.Through (table : Table) (reopened : Set String) (db : Database)
    (c : IndexCreation) : Prop where
  ofTable : c.table = table
  registering : ∀ name path, c.stage = .registering name path → name ∈ reopened
  opening : ∀ index, c.stage = .opening index → db.Reopened table reopened index.buckets
  concerns : c.Concerns (fun m => db.Reopened table reopened m.index.buckets) fun _ => True

/-- An operation through the handle that makes only indexes of these names, or one that only
reads. -/
def DatabaseTask.Through (table : Table) (reopened : Set String) (db : Database) :
    DatabaseTask → Prop
  | .table (.document task) =>
      task.Concerns table (fun m => db.Reopened table reopened m.index.buckets) fun _ => True
  | .table (.creating c) => c.Through table reopened db
  | .table (.dropping d) => d.table = table ∧ (d.stage = .dropping → d.name ∈ reopened)
  | .query _ => True
  | .creating _ => False
  | .dropping _ => False

/-- What is asked of the table, if it is to make an index, makes one of these names. -/
def TableRequest.MakesOnly (reopened : Set String) : TableRequest → Prop
  | .createIndex name _ => name ∈ reopened
  | .document _ => True
  | .dropIndex _ => True

/-- What is asked through the handle, or only reads. -/
def DatabaseRequest.Through (table : Table) (reopened : Set String) : DatabaseRequest → Prop
  | .table handle request => handle = table ∧ request.MakesOnly reopened
  | .query _ => True
  | .createTable _ => False
  | .dropTable _ => False

namespace IndexCreation

variable {c : IndexCreation}

theorem Through.mono (h : c.Through table reopened db)
    (bears : ∀ id name, db.backend.Bears id name → after.backend.Bears id name) :
    c.Through table reopened after := by
  have still : ∀ id, db.Reopened table reopened id → after.Reopened table reopened id := by
    rintro id ⟨i, mem, there⟩
    exact ⟨i, mem, bears _ _ there⟩
  exact ⟨h.ofTable, h.registering, fun index hs => still _ (h.opening index hs),
    h.concerns.imp (fun _ hm => still _ hm) fun _ _ he => he⟩

theorem Through.allowed (h : c.Through table reopened db) :
    db.Allows table reopened (Task.call c) := by
  obtain ⟨owner, stage⟩ := c
  cases stage with
  | registering name path => exact ⟨h.ofTable, h.registering name path rfl⟩
  | opening index => trivial
  | filing index queue =>
      exact Settling.call_of_concerns (h.concerns index queue rfl).1 (fun _ _ => trivial)
        fun _ hm _ => Database.allows_edit hm
  | releasing index => trivial

theorem through_step (consistent : db.backend.Consistent) (h : c.Through table reopened db)
    (fault : Option Error) :
    (Task.resume c (db.perform (Task.call c) fault).1).Satisfies
      (Through table reopened (db.perform (Task.call c) fault).2) fun _ => True := by
  have still := h.mono fun _ _ => Database.bears_perform (Task.call c) fault
  have concerns := concerns_resume still.concerns (db.perform (Task.call c) fault).1
    (fun index cursor stage _ m hm => ?_) (fun _ _ _ => trivial)
    fun _ _ _ _ => Progress.satisfies_true _
  · refine (concerns.and (c.continues_resume _)).imp ?_ fun _ _ => trivial
    rintro t ⟨kept, continues⟩
    refine ⟨continues.table.trans h.ofTable, fun name path hs => ?_, fun index hs => ?_, kept⟩
    · exact h.registering name path (continues.registering name path hs)
    · rcases continues.opening index hs with before | ⟨name, path, stage, registered⟩
      · exact still.opening index before
      -- the index is new, and its store was opened for it
      · have call : Task.call c = .registerIndex table name path := by
          simp only [Task.call, stage, h.ofTable]
        rw [call] at registered ⊢
        exact ⟨name, h.registering name path stage,
          Database.bears_of_registerIndex consistent registered⟩
  · -- what is filed is filed in the index that is made
    obtain ⟨e, -, hm⟩ := List.mem_flatMap.1 hm
    obtain ⟨indexKey, -, rfl⟩ := List.mem_map.1 hm
    exact still.opening index stage

end IndexCreation

namespace DatabaseTask

variable {task : DatabaseTask}

theorem Through.mono (h : task.Through table reopened db)
    (bears : ∀ id name, db.backend.Bears id name → after.backend.Bears id name) :
    task.Through table reopened after := by
  match task, h with
  | .table (.document _), h =>
      refine DocumentTask.Concerns.imp h ?_ fun _ _ he => he
      rintro m ⟨i, mem, there⟩
      exact ⟨i, mem, bears _ _ there⟩
  | .table (.creating _), h => exact IndexCreation.Through.mono h bears
  | .table (.dropping _), h => exact h
  | .query _, _ => trivial

/-- **An operation through the handle makes such calls only.** -/
theorem Through.allowed (h : task.Through table reopened db) :
    db.Allows table reopened (Task.call task) := by
  match task, h with
  | .table (.document _), h =>
      exact DocumentTask.call_of_concerns h (fun _ _ => trivial) (fun _ => trivial) trivial
        (fun _ _ => Database.allows_write.2 (Or.inl rfl)) fun _ hm _ => Database.allows_edit hm
  | .table (.creating _), h => exact IndexCreation.Through.allowed h
  | .table (.dropping ⟨_, _, .unregistering⟩), ⟨ofTable, _⟩ => exact congrArg Table.id ofTable
  | .table (.dropping ⟨_, name, .dropping⟩), ⟨ofTable, named⟩ =>
      exact ⟨name, named rfl, by rw [← ofTable]⟩
  | .query task, _ => exact Database.allows_of_reads task.call_reads

/-- An operation goes on so, whatever becomes of its call. -/
theorem through_step (detached : db.Detached table reopened) (h : task.Through table reopened db)
    (fault : Option Error) :
    (Task.resume task (db.perform (Task.call task) fault).1).Satisfies
      (Through table reopened (db.perform (Task.call task) fault).2) fun _ => True := by
  have still := h.mono fun _ _ => Database.bears_perform (Task.call task) fault
  match task, h with
  | .table (.document task), h =>
      refine Progress.satisfies_map.2 (Progress.satisfies_map.2
        ((DocumentTask.concerns_resume still ⟨?_, fun _ _ _ => trivial,
          fun _ _ _ _ => Progress.satisfies_true _⟩).imp (fun _ h => h) fun _ _ => trivial))
      -- the indexes that it finds were made through the handle since
      rintro indexes call read index there _ _
      change Task.call (.table (.document task) : DatabaseTask) = _ at call
      rw [call] at read ⊢
      obtain ⟨name, found⟩ := Database.exists_find?_of_readIndexes read there
      obtain ⟨mem, bears⟩ := detached.stripped.registered name index found
      exact ⟨name, mem, Database.bears_perform _ fault bears⟩
  | .table (.creating _), h =>
      exact Progress.satisfies_map.2 (Progress.satisfies_map.2
        ((IndexCreation.through_step detached.consistent h fault).imp (fun _ h => h)
          fun _ _ => trivial))
  | .table (.dropping ⟨owner, name, .unregistering⟩), ⟨ofTable, _⟩ =>
      obtain rfl : owner = table := ofTable
      refine Progress.satisfies_map.2 (Progress.satisfies_map.2 ?_)
      simp only [Task.call]
      rw [Database.perform_of_site?_none rfl]
      -- what can be dropped is registered, and was made through the handle since
      cases found : (db.indexesOf owner.id).find? name with
      | some index =>
          rw [Database.perform_unregisterIndex_of_some found]
          exact ⟨rfl, fun _ => (detached.stripped.registered name index found).1⟩
      | none =>
          rw [Database.perform_unregisterIndex_of_none found]
          trivial
  | .table (.dropping ⟨owner, name, .dropping⟩), ⟨ofTable, named⟩ =>
      refine Progress.satisfies_map.2 (Progress.satisfies_map.2 ?_)
      generalize (db.perform _ fault).1 = reply
      match reply with
      | .done result => trivial
      | .document _ | .counter _ | .cursor _ | .indexes _ | .index _ | .table _ =>
          exact ⟨ofTable, named⟩
  | .query _, _ =>
      exact Progress.satisfies_map.2
        ((Progress.satisfies_true _).imp (fun _ _ => trivial) fun _ _ => trivial)

end DatabaseTask

/-- What is asked through the handle begins so. -/
theorem DatabaseRequest.through_start {request : DatabaseRequest}
    (h : request.Through table reopened) (db : Database) :
    request.start.Satisfies (DatabaseTask.Through table reopened db) fun _ => True := by
  cases request with
  | createTable name => exact h.elim
  | dropTable name => exact h.elim
  | query asked =>
      exact Progress.satisfies_map.2
        ((Progress.satisfies_true _).imp (fun _ _ => trivial) fun _ _ => trivial)
  | table handle asked =>
      obtain ⟨rfl, makes⟩ := h
      refine Progress.satisfies_map.2 ?_
      cases asked with
      | document request =>
          exact Progress.satisfies_map.2 (request.concerns_start handle)
      | createIndex name path =>
          refine Progress.satisfies_map.2 ?_
          unfold Table.createIndex IndexCreation.start
          split
          · trivial
          · split
            · trivial
            · refine ⟨rfl, ?_, (fun _ same => nomatch same), fun _ _ same => nomatch same⟩
              intro _ _ same
              cases same
              exact makes
      | dropIndex name => exact ⟨rfl, fun no => nomatch no⟩

/-- Operations through a handle, one after another or at once, any of whose calls may fail.  Others
do what they like in between, but make no index under the number of the table, apart from some. -/
def Table.throughHandle (table : Table) (reopened : Set String) :
    Rules DatabaseRequest DatabaseTask DatabaseOutcome where
  start _ request := request.start
  admits _ request := request.Through table reopened
  faults _ _ _ := True
  outside := Database.Moves (Call.Respects table reopened)

namespace Database

variable {s : System DatabaseRequest DatabaseTask DatabaseOutcome}

/-- A table that is detached stays so while its handle is used. -/
theorem Detached.keeps (detached : after.Detached table reopened)
    (run : Run (table.throughHandle reopened) after s) :
    s.Keeps (Detached table reopened) (fun db _ task => task.Through table reopened db)
      fun _ _ _ => True := by
  have bears : ∀ (db : Database) (call : Call) (fault : Option Error) (id : StoreId)
      (name : String), db.backend.Bears id name →
        (db.perform call fault).2.backend.Bears id name :=
    fun _ call fault _ _ => bears_perform call fault
  refine run.keeps detached (fun _ admitted => DatabaseRequest.through_start admitted _) ?_ ?_
  · intro db request task fault _ detached through
    have changes := changes_perform (Call.Respects table reopened) detached.consistent
      (respects_of_allows through.allowed) fault
    exact ⟨detached.changes changes fun _ h => h, DatabaseTask.through_step detached through fault,
      fun _ _ h => h.mono changes.bears, fun _ _ _ => trivial⟩
  · intro db after moves detached
    have changes := moves.changes detached.consistent
    exact ⟨detached.changes changes fun _ h => h, fun _ _ h => h.mono changes.bears,
      fun _ _ _ => trivial⟩

/-- Ranges that are pulled or closed change no slots and no names. -/
theorem unreached_releaseCursor (table : Table) (reopened : Set String) (db : Database)
    (id : StoreId) :
    Unreached table reopened db (db.putBackend (db.backend.releaseCursor id)) := by
  have slots : ∀ other, ((db.backend.releaseCursor id).store other).slots
      = (db.backend.store other).slots :=
    fun other => (slots_putStore_cursors db.backend id other _).1
  exact ⟨rfl, fun _ _ => ⟨rfl, fun other _ => slots other⟩,
    fun _ other _ => ⟨rfl, slots _, fun _ index _ _ => slots _⟩⟩

theorem Unreached.refl (table : Table) (reopened : Set String) (db : Database) :
    Unreached table reopened db db :=
  ⟨rfl, fun _ _ => ⟨rfl, fun _ _ => rfl⟩, fun _ _ _ => ⟨rfl, rfl, fun _ _ _ _ => rfl⟩⟩

/-- **Operations through the handle of a table that was dropped reach nothing of others.**  After a
drop that has succeeded, in every database that is reached from a fresh one, and whatever others do
then, making the table again among it, no call of an operation through the old handle changes the
catalog, leads the name of a keyspace to another store or to none, or writes in a store that
somebody finds by such a name, by a table in the catalog or by one of its indexes; and neither does
a range that is pulled or closed.  The exceptions are the keyspaces of indexes that were made
through the old handle after the drop: where none are made, there are none. -/
theorem detached_reaches_nothing {config : Config} (reached : (empty config).Reaches db)
    (found : db.table? table.name = some table) {calls : List Footprint}
    (dropped : Ends (.ofMoves TableDrop (Call.Leaves table reopened)) db (dropTable table.name)
      calls (.ok ()) after)
    {steps : List (Step DatabaseTask)}
    (trace : Trace (table.throughHandle reopened) after steps s) :
    (∀ step ∈ steps, Unreached table reopened step.db
      (step.db.perform (Task.call step.task) step.fault).2) ∧
    ∀ range, Unreached table ∅ s.db (s.db.pull range).2.2 ∧
      Unreached table ∅ s.db (s.db.close range).2 := by
  have detached : after.Detached table reopened :=
    TableDrop.detached_of_ends reached.catalogued found dropped
  refine ⟨?_, fun range => ⟨?_, ?_⟩⟩
  -- by induction on the calls, each of which is made in a state where the table is detached
  · induction trace with
    | initial => exact fun _ no => absurd no List.not_mem_nil
    | invoke trace request admitted ih => exact ih
    | outside trace after possible ih => exact ih
    | @advance steps s trace operation task pending fault possible ih =>
        intro step mem
        rcases List.mem_append.1 mem with before | now
        · exact ih step before
        · obtain rfl := List.mem_singleton.1 now
          have kept := detached.keeps trace.run
          obtain ⟨-, -, through⟩ := kept.pending operation task pending
          exact (untouched_perform through.allowed fault).unreached kept.base
  · unfold pull
    split
    · exact .refl _ _ _
    · exact unreached_releaseCursor _ _ _ _
    · exact .refl _ _ _
  · unfold close
    split
    · exact .refl _ _ _
    · exact unreached_releaseCursor _ _ _ _

instance [DecidablePred (· ∈ reopened)] :
    (request : TableRequest) → Decidable (request.MakesOnly reopened)
  | .createIndex name _ => inferInstanceAs (Decidable (name ∈ reopened))
  | .document _ | .dropIndex _ => isTrue trivial

instance [DecidablePred (· ∈ reopened)]
    (s : System DatabaseRequest DatabaseTask DatabaseOutcome) :
    (request : DatabaseRequest) →
      Decidable ((table.throughHandle reopened).admits s request)
  | .table handle request =>
      inferInstanceAs (Decidable (handle = table ∧ request.MakesOnly reopened))
  | .query _ => isTrue trivial
  | .createTable _ | .dropTable _ => isFalse fun no => no

instance (db : Database) (call : Call) (fault : Option Error) :
    Decidable ((table.throughHandle reopened).faults db call fault) :=
  isTrue trivial

/-- An operation that is alone is also one among others. -/
theorem ends_ofMoves_of_alone {τ α : Type} [Task τ α] {progress : Progress τ α} {result : α}
    {calls : List Footprint}
    (ends : Ends (.alone τ fun _ _ _ => True) db progress calls result after) :
    Ends (.ofMoves τ kind) db progress calls result after :=
  ends.mono (fun _ _ same => same ▸ .refl) (fun _ _ _ _ => trivial) fun _ _ same => same

/-- A table is dropped and made again, and a document is written through the old handle: the write
goes to the store that the old table had, and the new table has nothing of it. -/
theorem detached_reaches_nothing_of_recreated :
    ∃ db calls after steps s old new, (empty .default).Reaches db ∧ db.table? "t" = some old ∧
      Ends (.ofMoves TableDrop (Call.Leaves old ∅)) db (dropTable "t") calls (.ok ()) after ∧
      Trace (old.throughHandle ∅) after steps s ∧ s.db.table? "t" = some new ∧
      s.db.count old = 1 ∧ s.db.count new = 0 ∧
      ∀ step ∈ steps, Unreached old ∅ step.db
        (step.db.perform (Task.call step.task) step.fault).2 := by
  let old : Table := ⟨0, "t", 0, Config.default.retry⟩
  let new : Table := ⟨1, "t", 1, Config.default.retry⟩
  have played : ((empty .default).succeeds 1 (DocStore.createTable "t") fun _ db =>
      db.table? "t" == some old &&
        (endure? (fun _ _ _ => True) [none, none, none] db (dropTable "t")).any fun ended =>
          ended.2.1.isOk &&
            (System.play? (old.throughHandle ∅)
              { System.initial ended.2.2 with
                db := (ended.2.2.perform (.registerTable "t") none).2 }
              [.invoke (.table old (.document (.set "x" (.map [])))), .advance 0 none,
                .advance 0 none]).any fun s =>
                  s.db.table? "t" == some new && s.db.count old == 1 &&
                    s.db.count new == 0) = true := by
    decide +kernel
  obtain ⟨_, db, made, played⟩ := Completes.exists_of_succeeds played
  rw [Bool.and_eq_true, beq_iff_eq] at played
  obtain ⟨found, played⟩ := played
  obtain ⟨⟨calls, result, after⟩, ended, played⟩ := (Option.any_eq_true _ _).1 played
  rw [Bool.and_eq_true] at played
  obtain ⟨ok, played⟩ := played
  obtain ⟨s, moved, holds⟩ := (Option.any_eq_true _ _).1 played
  simp only [Bool.and_eq_true, beq_iff_eq] at holds
  obtain ⟨⟨there, written⟩, empty⟩ := holds
  cases result with
  | error e => cases ok
  | ok done =>
      have reached : (Database.empty .default).Reaches db := Reaches.here.of_completes made
      have dropped : Ends (.ofMoves TableDrop (Call.Leaves old ∅)) db (dropTable "t") calls
          (.ok ()) after := ends_ofMoves_of_alone (.of_endure? ended)
      have recreated : after.Moves (Call.Respects old ∅)
          (after.perform (.registerTable "t") none).2 := .perform _ _ fun _ _ _ no => nomatch no
      obtain ⟨steps, trace⟩ := ((Run.initial.outside _ recreated).of_play? moved).exists_trace
      exact ⟨db, calls, after, steps, s, old, new, reached, found, dropped, trace, there, written,
        empty, (detached_reaches_nothing reached found dropped trace).1⟩

/-- **An index that is made through an old handle has the keyspace of the new table's index**, and
to drop it through the old handle drops the keyspace: the index of the new table is registered as
before, and its keyspace is gone. -/
theorem detached_drops_index :
    ∃ d₀ d₁ d₂ d₃ d₄ d₅ old new mine theirs,
      Completes (empty .default) (DocStore.createTable "t") (.ok old) d₀ ∧
      Completes d₀ (dropTable "t") (.ok ()) d₁ ∧
      Completes d₁ (DocStore.createTable "t") (.ok new) d₂ ∧
      Completes d₂ (new.createIndex "i" "n") (.ok theirs) d₃ ∧
      Completes d₃ (old.createIndex "i" "n") (.ok mine) d₄ ∧
      Completes d₄ (old.dropIndex "i") (.ok ()) d₅ ∧
      d₅.table? "t" = some new ∧
      ((d₅.indexesOf new.id).find? "i").map Index.buckets = some theirs.buckets ∧
      d₄.backend.find? (Name.buckets "t" "i") = some theirs.buckets ∧
      d₅.backend.find? (Name.buckets "t" "i") = none := by
  have played : ((empty .default).succeeds 1 (DocStore.createTable "t") fun old d₀ =>
      d₀.succeeds 3 (dropTable "t") fun _ d₁ =>
      d₁.succeeds 1 (DocStore.createTable "t") fun new d₂ =>
      d₂.succeeds 3 (new.createIndex "i" "n") fun theirs d₃ =>
      d₃.succeeds 3 (old.createIndex "i" "n") fun _ d₄ =>
      d₄.succeeds 2 (old.dropIndex "i") fun _ d₅ =>
        d₅.table? "t" == some new &&
          ((d₅.indexesOf new.id).find? "i").map Index.buckets == some theirs.buckets &&
          d₄.backend.find? (Name.buckets "t" "i") == some theirs.buckets &&
          d₅.backend.find? (Name.buckets "t" "i") == none) = true := by
    decide +kernel
  obtain ⟨old, d₀, made, played⟩ := Completes.exists_of_succeeds played
  obtain ⟨_, d₁, dropped, played⟩ := Completes.exists_of_succeeds played
  obtain ⟨new, d₂, again, played⟩ := Completes.exists_of_succeeds played
  obtain ⟨theirs, d₃, indexed, played⟩ := Completes.exists_of_succeeds played
  obtain ⟨mine, d₄, reopened, played⟩ := Completes.exists_of_succeeds played
  obtain ⟨_, d₅, gone, played⟩ := Completes.exists_of_succeeds played
  simp only [Bool.and_eq_true, beq_iff_eq] at played
  obtain ⟨⟨⟨there, registered⟩, before⟩, after⟩ := played
  exact ⟨d₀, d₁, d₂, d₃, d₄, d₅, old, new, mine, theirs, made, dropped, again, indexed, reopened,
    gone, there, registered, before, after⟩

end Database

end DocStore
