/-
What a drop leaves behind, also when it fails.

A drop takes the name away first and then drops the keyspaces one after another; it ends with the
first of these that cannot be dropped.  A name that is gone cannot be dropped again, so that the
keyspaces that are left stay where they are.

* `Database.Reaches` — what can become of a database, whatever is called and whatever fails;
* `Database.Named` — tables and indexes are known under their own names, in every database that is
  reached from a fresh one (`Database.Reaches.named`);
* `Backend.Beyond` — a name that leads to no store of those that were there, now and later
  (`Database.Reaches.beyond`);
* `Database.Cleared`, `Database.Stopped` — the keyspaces are dropped, or one of them could not be;
* `TableDrop.ends_cases`, `IndexDrop.ends_cases` — what a drop has done when it has ended;
* `Database.drops_clear_or_stop` — **a drop that succeeds leaves nothing that is ever seen again
  under its names, and one that fails cannot be completed;**
* `Database.drops_leave_documents` — a table that was dropped with a failure and created again has
  its old documents.
-/

import DocStore.Proofs.Database.Catalog
import DocStore.Proofs.Database.Orderly
import DocStore.Proofs.Run.Alone

set_option autoImplicit false

namespace DocStore

variable {faults : Database → Call → Option Error → Prop} {config : Config}
  {db mid after later : Database}

/-! ### What can become of a database -/

/-- The databases that a database can become: by any calls, each of which may fail, and by what
happens besides. -/
inductive Database.Reaches (db : Database) : Database → Prop
  /-- Nothing has happened. -/
  | here : Reaches db db
  /-- A call is made. -/
  | perform {mid : Database} (before : Reaches db mid) (call : Call) (fault : Option Error) :
      Reaches db (mid.perform call fault).2
  /-- Something else happens. -/
  | elsewhere {documents : Set String} {mid after : Database} (before : Reaches db mid)
      (besides : mid.Elsewhere documents after) : Reaches db after

/-! ### Names of tables and indexes -/

namespace Database

/-- Tables and indexes are known under their own names, and so are stores. -/
structure Named (db : Database) : Prop where
  consistent : db.backend.Consistent
  tables : ∀ name table, db.table? name = some table → table.name = name
  indexes : ∀ table name index, (db.indexesOf table).find? name = some index → index.name = name

/-- The name of an index that was registered. -/
theorem name_of_registerIndex {table : Table} {name : String} {path : FieldPath}
    {fault : Option Error} {index : Index}
    (h : (db.perform (.registerIndex table name path) fault).1 = .index (.ok index)) :
    index.name = name := by
  rcases db.perform_cases (.registerIndex table name path) fault with ⟨e, -, he⟩ | hf
  · rw [he] at h
    cases h
  · rw [hf] at h
    simp only [forward] at h
    split at h
    · cases h
    · obtain rfl := Except.ok.inj (Reply.index.inj h)
      rfl

theorem Named.perform (h : db.Named) (call : Call) (fault : Option Error) :
    (db.perform call fault).2.Named := by
  refine ⟨consistent_perform call fault h.consistent, fun name table ht => ?_,
    fun table name index hi => ?_⟩
  · rcases db.table?_perform call fault ht with before | ⟨rfl, made⟩
    · exact h.tables name table before
    · have eq := eq_addTable_of_registerTable (congrArg Prod.fst made)
      exact (congrArg (fun r => r.1.name) eq).symm
  · rcases db.find?_indexesOf_perform call fault hi with before | ⟨owner, path, rfl, -, made⟩
    · exact h.indexes table name index before
    · exact name_of_registerIndex made

/-- In every database that is reached from a fresh one everything is known under its own name. -/
theorem Reaches.named (h : (empty config).Reaches db) : db.Named := by
  induction h with
  | here => exact ⟨Backend.consistent_empty, (fun _ _ no => nomatch no), fun _ _ _ no => nomatch no⟩
  | perform before call fault ih => exact ih.perform call fault
  | elsewhere before besides ih =>
      obtain ⟨evolves, indexes, catalog⟩ := evolves_elsewhere ih.consistent besides
      refine ⟨evolves.consistent, fun name table ht => ih.tables name table ?_,
        fun table name index hi => ih.indexes table name index ?_⟩
      · rwa [table?, catalog] at ht
      · rwa [indexesOf, indexes] at hi

/-- The keyspaces of a table, by its name and those of its indexes. -/
theorem Named.keyspacesOf_eq (h : db.Named) {name : String} {table : Table}
    (ht : db.table? name = some table) : db.keyspacesOf table
      = (db.indexesOf table.id).keys.map (Name.buckets name) ++ [Name.documents name] := by
  rw [keyspacesOf, h.tables name table ht, SortedMap.keys, List.map_map, List.map_map]
  congr 1
  refine List.map_congr_left ?_
  intro entry there
  rw [Function.comp_apply, Function.comp_apply,
    h.indexes _ _ _ (SortedMap.find?_eq_some_iff.2 there)]

/-- No two of them are the same. -/
theorem nodup_keyspaces (db : Database) (table : TableId) (name : String) :
    ((db.indexesOf table).keys.map (Name.buckets name) ++ [Name.documents name]).Nodup := by
  have keys : (db.indexesOf table).keys.Nodup := by
    refine List.pairwise_map.2 ((db.indexesOf table).ascending.imp ?_)
    intro a b less same
    rw [same] at less
    exact String.lt_irrefl b.1 less
  refine List.nodup_append.2 ⟨keys.map (Name.buckets_injective name), List.nodup_singleton _, ?_⟩
  intro bucket there documents alone same
  obtain ⟨index, -, rfl⟩ := List.mem_map.1 there
  rw [List.mem_singleton.1 alone] at same
  exact Name.buckets_ne_documents _ _ _ same

end Database

/-! ### Names that lead to new stores only -/

/-- Whoever opens the keyspace gets a store that is not among the first so many. -/
def Backend.Beyond (backend : Backend) (count : Nat) (name : String) : Prop :=
  count ≤ backend.stores.length ∧ ∀ id, backend.find? name = some id → count ≤ id

namespace Backend.Beyond

variable {backend : Backend} {count : Nat} {name : String}

theorem of_none (gone : backend.find? name = none) : backend.Beyond backend.stores.length name :=
  ⟨Nat.le_refl _, fun id found => by rw [gone] at found; cases found⟩

theorem le_openKeyspace (h : backend.Beyond count name) :
    count ≤ (backend.openKeyspace name).1 := by
  unfold openKeyspace
  cases found : backend.find? name with
  | some id => exact h.2 id found
  | none => exact h.1

theorem openKeyspace (h : backend.Beyond count name) (other : String) :
    (backend.openKeyspace other).2.Beyond count name := by
  refine ⟨h.1.trans (length_openKeyspace _ _), fun id found => ?_⟩
  rw [find?_openKeyspace] at found
  split at found
  · rename_i same
    obtain rfl := same
    obtain rfl := Option.some.inj found
    exact h.le_openKeyspace
  · exact h.2 id found

theorem dropKeyspace (h : backend.Beyond count name) (other : String) :
    (backend.dropKeyspace other).Beyond count name := by
  refine ⟨h.1, fun id found => ?_⟩
  rw [find?, Backend.dropKeyspace, SortedMap.find?_erase] at found
  split at found
  · cases found
  · exact h.2 id found

theorem of_keyspaces (h : backend.Beyond count name) {after : Backend}
    (length : backend.stores.length ≤ after.stores.length)
    (keyspaces : after.keyspaces = backend.keyspaces) : after.Beyond count name := by
  refine ⟨h.1.trans length, fun id found => h.2 id ?_⟩
  rwa [find?, keyspaces] at found

end Backend.Beyond

namespace Database

variable {count : Nat} {name : String}

/-- A call does not lead a name back to an old store. -/
theorem beyond_perform (h : db.backend.Beyond count name) (call : Call) (fault : Option Error) :
    (db.perform call fault).2.backend.Beyond count name := by
  by_cases access : call.IsAccess
  · obtain ⟨-, -, -, keyspaces, length⟩ := db.perform_of_isAccess fault access
    exact h.of_keyspaces (Nat.le_of_eq length.symm) keyspaces
  rcases db.backend_perform fault access with
    same | ⟨table, i, path, -, opened⟩ | ⟨table, -, opened⟩ | ⟨other, -, dropped⟩
  · rw [same]
    exact h
  · rw [opened]
    exact h.openKeyspace _
  · rw [opened]
    exact h.openKeyspace _
  · rw [dropped]
    exact h.dropKeyspace _

/-- Nor does what happens besides. -/
theorem beyond_elsewhere {documents : Set String} (h : db.backend.Beyond count name)
    (besides : db.Elsewhere documents after) : after.backend.Beyond count name := by
  have put : ∀ id store, (db.backend.putStore id store).Beyond count name :=
    fun id store => h.of_keyspaces (Nat.le_of_eq (Backend.length_putStore _ _ _).symm) rfl
  cases besides with
  | pull range =>
      unfold pull
      split
      · exact h
      · exact put _ _
      · exact h
  | close range =>
      unfold close
      split
      · exact h
      · exact put _ _
  | set value apart listed => exact put _ _
  | delete key apart => exact put _ _
  | openKeyspace other => exact h.openKeyspace other
  | dropKeyspace other => exact h.dropKeyspace other

/-- **A name that leads to no old store never does again.** -/
theorem Reaches.beyond (reaches : db.Reaches later) (h : db.backend.Beyond count name) :
    later.backend.Beyond count name := by
  induction reaches with
  | here => exact h
  | perform before call fault ih => exact beyond_perform ih call fault
  | elsewhere before besides ih => exact beyond_elsewhere ih besides

/-! ### Keyspaces that are dropped -/

theorem stores_dropAll (backend : Backend) (names : List String) :
    (backend.dropAll names).stores = backend.stores := by
  induction names generalizing backend with
  | nil => rfl
  | cons name names ih => exact ih _

/-- A table whose indexes were taken has none. -/
theorem indexesOf_putIndexes_empty (db : Database) (table : TableId) :
    (db.putIndexes table .empty).indexesOf table = .empty :=
  (indexesOf_putIndexes_cases db table .empty).elim id And.right

/-- An index that was taken from its table is not registered with it. -/
theorem find?_putIndexes_erase (db : Database) (table : TableId) (name : String) :
    ((db.putIndexes table ((db.indexesOf table).erase name)).indexesOf table).find? name
      = none := by
  rcases indexesOf_putIndexes_cases db table ((db.indexesOf table).erase name) with
    there | ⟨-, none⟩
  · rw [there, SortedMap.find?_erase, if_pos rfl]
  · rw [none, SortedMap.find?_empty]

/-- These names lead nowhere, and whoever opens one of them, at whatever time later, gets a store
that is not there yet: it starts without keys, and what is in it then was written since. -/
structure Cleared (db : Database) (names : List String) : Prop where
  gone : ∀ name ∈ names, db.backend.find? name = none
  fresh : ∀ name ∈ names, ∀ later, db.Reaches later →
    db.backend.stores.length ≤ (later.backend.openKeyspace name).1

/-- Of some keyspaces that were to be dropped, those before one are, and this one could not be.
Whoever opens it or one of those after it gets the store to which it led, with all that is in it. -/
structure Stopped (faults : Database → Call → Option Error → Prop) (db after : Database)
    (dropped : List String) (stuck : String) (left : List String) (e : Error) : Prop where
  failed : faults after (.dropKeyspace stuck) (some e)
  cleared : after.Cleared dropped
  kept : ∀ name ∉ dropped, after.backend.find? name = db.backend.find? name
  stores : after.backend.stores = db.backend.stores
  reopened : ∀ name ∈ stuck :: left, ∀ id, db.backend.find? name = some id →
    after.backend.openKeyspace name = (id, after.backend)

/-- Names that lead nowhere are cleared. -/
theorem cleared_of_none {names : List String}
    (gone : ∀ name ∈ names, db.backend.find? name = none) : db.Cleared names :=
  ⟨gone, fun name there _ reaches => (reaches.beyond (.of_none (gone name there))).le_openKeyspace⟩

/-- The keyspaces before one that could not be dropped are. -/
theorem stopped_of_dropAll {dropped left : List String} {stuck : String} {e : Error}
    (different : (dropped ++ stuck :: left).Nodup)
    (backend : after.backend = db.backend.dropAll dropped)
    (failed : faults after (.dropKeyspace stuck) (some e)) :
    Stopped faults db after dropped stuck left e := by
  have find? : ∀ name, after.backend.find? name
      = if name ∈ dropped then none else db.backend.find? name := by
    intro name
    rw [backend, Backend.find?_dropAll]
  refine ⟨failed, cleared_of_none fun name there => ?_, fun name other => ?_, ?_, ?_⟩
  · rw [find?, if_pos there]
  · rw [find?, if_neg other]
  · rw [backend, stores_dropAll]
  · intro name there id found
    have other : name ∉ dropped := fun before =>
      (List.nodup_append.1 different).2.2 name before name there rfl
    have there := (find? name).trans ((if_neg other).trans found)
    rw [Backend.openKeyspace, there]

end Database

/-! ### Drops -/

variable {steps : List Footprint} {result : Except Error Unit} {table : Table} {name : String}

/-- Dropping keyspaces one after another ends with the first that cannot be dropped. -/
theorem TableDrop.next_ends {d : TableDrop} {names : List String}
    (h : Ends (.alone TableDrop faults) db (d.next names) steps result after) :
    (result = .ok () ∧ after = db.putBackend (db.backend.dropAll names)) ∨
      ∃ e dropped stuck left, names = dropped ++ stuck :: left ∧ result = .error e ∧
        after = db.putBackend (db.backend.dropAll dropped) ∧
        faults after (.dropKeyspace stuck) (some e) := by
  induction names generalizing d db steps with
  | nil =>
      obtain ⟨rfl, rfl⟩ := h.of_alone_finished
      exact Or.inl ⟨rfl, rfl⟩
  | cons keyspace rest ih =>
      obtain ⟨fault, later, possible, goes⟩ := h.of_alone_waiting
      have call : Task.call ({ d with stage := .dropping keyspace rest } : TableDrop)
          = .dropKeyspace keyspace := rfl
      rw [call] at possible goes
      rcases db.perform_cases (.dropKeyspace keyspace) fault with ⟨e, rfl, failed⟩ | forward
      · rw [failed] at goes
        obtain ⟨rfl, rfl⟩ := goes.of_alone_finished
        exact Or.inr ⟨e, [], keyspace, rest, rfl, rfl, rfl, possible⟩
      · rw [forward] at goes
        rcases ih goes with ⟨rfl, rfl⟩ | ⟨e, dropped, stuck, left, rfl, rfl, rfl, failed⟩
        · exact Or.inl ⟨rfl, rfl⟩
        · exact Or.inr ⟨e, keyspace :: dropped, stuck, left, rfl, rfl, rfl, failed⟩

/-- The drop of a table has found none and done nothing, or the name is gone and the keyspaces are
dropped, up to the first that cannot be. -/
theorem TableDrop.ends_cases
    (h : Ends (.alone TableDrop faults) db (dropTable name) steps result after) :
    (result = .error .notFound ∧ db.table? name = none ∧ after = db) ∨
      ∃ table, db.table? name = some table ∧ after.catalog = db.catalog.erase name ∧
        after.indexesOf table.id = .empty ∧
        ((result = .ok () ∧ after.backend = db.backend.dropAll (db.keyspacesOf table)) ∨
          ∃ e dropped stuck left, db.keyspacesOf table = dropped ++ stuck :: left ∧
            result = .error e ∧ after.backend = db.backend.dropAll dropped ∧
            faults after (.dropKeyspace stuck) (some e)) := by
  obtain ⟨fault, later, -, rest⟩ := h.of_alone_waiting
  have first : Task.call (⟨name, .unregistering⟩ : TableDrop) = .unregisterTable name := rfl
  rw [first, Database.perform_of_site?_none rfl] at rest
  cases found : db.table? name with
  | none =>
      rw [Database.perform_unregisterTable_of_none found] at rest
      obtain ⟨rfl, rfl⟩ := rest.of_alone_finished
      exact Or.inl ⟨rfl, rfl, rfl⟩
  | some table =>
      rw [Database.perform_unregisterTable_of_some found] at rest
      obtain ⟨fault, later, -, rest⟩ := rest.of_alone_waiting
      have second : Task.call (⟨name, .taking table⟩ : TableDrop) = .takeIndexes table.id := rfl
      rw [second, Database.perform_of_site?_none rfl] at rest
      refine Or.inr ⟨table, rfl, ?_⟩
      rcases next_ends rest with ⟨rfl, rfl⟩ | ⟨e, dropped, stuck, left, split, rfl, rfl, failed⟩
      · exact ⟨rfl, Database.indexesOf_putIndexes_empty _ _, Or.inl ⟨rfl, rfl⟩⟩
      · exact ⟨rfl, Database.indexesOf_putIndexes_empty _ _,
          Or.inr ⟨e, dropped, stuck, left, split, rfl, rfl, failed⟩⟩

/-- The drop of an index has found none and done nothing, or the index is not registered any more
and its keyspace is dropped, unless it cannot be. -/
theorem IndexDrop.ends_cases
    (h : Ends (.alone IndexDrop faults) db (table.dropIndex name) steps result after) :
    (result = .error .notFound ∧ (db.indexesOf table.id).find? name = none ∧ after = db) ∨
      ((db.indexesOf table.id).find? name).isSome ∧ after.catalog = db.catalog ∧
        after.indexes
          = (db.putIndexes table.id ((db.indexesOf table.id).erase name)).indexes ∧
        ((result = .ok () ∧
            after.backend = db.backend.dropAll [Name.buckets table.name name]) ∨
          ∃ e, result = .error e ∧ after.backend = db.backend ∧
            faults after (.dropKeyspace (Name.buckets table.name name)) (some e)) := by
  obtain ⟨fault, later, -, rest⟩ := h.of_alone_waiting
  have first : Task.call (⟨table, name, .unregistering⟩ : IndexDrop)
      = .unregisterIndex table.id name := rfl
  rw [first, Database.perform_of_site?_none rfl] at rest
  cases found : (db.indexesOf table.id).find? name with
  | none =>
      rw [Database.perform_unregisterIndex_of_none found] at rest
      obtain ⟨rfl, rfl⟩ := rest.of_alone_finished
      exact Or.inl ⟨rfl, rfl, rfl⟩
  | some index =>
      rw [Database.perform_unregisterIndex_of_some found] at rest
      obtain ⟨fault, later, possible, rest⟩ := rest.of_alone_waiting
      have second : Task.call (⟨table, name, .dropping⟩ : IndexDrop)
          = .dropKeyspace (Name.buckets table.name name) := rfl
      rw [second] at possible rest
      refine Or.inr ⟨rfl, ?_⟩
      rcases (db.putIndexes table.id ((db.indexesOf table.id).erase name)).perform_cases
        (.dropKeyspace (Name.buckets table.name name)) fault with ⟨e, rfl, failed⟩ | forward
      · rw [failed] at rest
        obtain ⟨rfl, rfl⟩ := rest.of_alone_finished
        exact ⟨rfl, rfl, Or.inr ⟨e, rfl, rfl, possible⟩⟩
      · rw [forward] at rest
        obtain ⟨rfl, rfl⟩ := rest.of_alone_finished
        exact ⟨rfl, rfl, Or.inl ⟨rfl, rfl⟩⟩

namespace Database

/-- **A drop that succeeds leaves nothing that is ever seen again under its names, and one that
fails cannot be completed.**  In every database that is reached from a fresh one, whichever calls
fail, a drop finds nothing to drop and does nothing, or the name of the table or the index is gone
and a repetition fails with not found and does nothing.  In the latter case all keyspaces are
dropped, and whoever opens one of them later gets a store that is not there yet; or one of them
could not be dropped, and it and those after it lead to their stores as before. -/
theorem drops_clear_or_stop (reached : (empty config).Reaches db) :
    (∀ name steps result after,
      Ends (.alone TableDrop faults) db (dropTable name) steps result after →
        (result = .error .notFound ∧ db.table? name = none ∧ after = db) ∨
          ∃ table names, db.table? name = some table ∧
            names = (db.indexesOf table.id).keys.map (Name.buckets name)
              ++ [Name.documents name] ∧
            after.table? name = none ∧ after.indexesOf table.id = .empty ∧
            Completes after (dropTable name) (.error .notFound) after ∧
            ((result = .ok () ∧ after.Cleared names) ∨
              ∃ e dropped stuck left, result = .error e ∧ names = dropped ++ stuck :: left ∧
                Stopped faults db after dropped stuck left e)) ∧
      ∀ (table : Table) name steps result after,
        Ends (.alone IndexDrop faults) db (table.dropIndex name) steps result after →
          (result = .error .notFound ∧ (db.indexesOf table.id).find? name = none ∧ after = db) ∨
            ((db.indexesOf table.id).find? name).isSome ∧
              (after.indexesOf table.id).find? name = none ∧
              Completes after (table.dropIndex name) (.error .notFound) after ∧
              ((result = .ok () ∧ after.Cleared [Name.buckets table.name name]) ∨
                ∃ e, result = .error e ∧
                  Stopped faults db after [] (Name.buckets table.name name) [] e) := by
  have named := reached.named
  refine ⟨?_, ?_⟩
  · intro name steps result after ends
    rcases TableDrop.ends_cases ends with none | ⟨table, found, catalog, indexes, rest⟩
    · exact Or.inl none
    · have gone : after.table? name = none := by
        rw [table?, catalog, SortedMap.find?_erase, if_pos rfl]
      have again : Completes after (dropTable name) (.error .notFound) after :=
        .waits (perform_unregisterTable_of_none gone) (.finished _ _)
      have names := named.keyspacesOf_eq found
      have different := names ▸ db.nodup_keyspaces table.id name
      refine Or.inr ⟨table, db.keyspacesOf table, found, names, gone, indexes, again, ?_⟩
      rcases rest with ⟨ok, backend⟩ | ⟨e, dropped, stuck, left, split, failed, backend, possible⟩
      · refine Or.inl ⟨ok, cleared_of_none fun keyspace there => ?_⟩
        rw [backend, Backend.find?_dropAll, if_pos there]
      · exact Or.inr ⟨e, dropped, stuck, left, failed, split,
          stopped_of_dropAll (split ▸ different) backend possible⟩
  · intro table name steps result after ends
    rcases IndexDrop.ends_cases ends with none | ⟨found, catalog, indexes, rest⟩
    · exact Or.inl none
    · have gone : (after.indexesOf table.id).find? name = none := by
        rw [indexesOf, indexes]
        exact find?_putIndexes_erase db table.id name
      have again : Completes after (table.dropIndex name) (.error .notFound) after :=
        .waits (perform_unregisterIndex_of_none gone) (.finished _ _)
      refine Or.inr ⟨found, gone, again, ?_⟩
      rcases rest with ⟨ok, backend⟩ | ⟨e, failed, backend, possible⟩
      · refine Or.inl ⟨ok, cleared_of_none fun keyspace there => ?_⟩
        rw [backend, Backend.find?_dropAll, if_pos there]
      · exact Or.inr ⟨e, failed,
          stopped_of_dropAll (List.nodup_singleton _) backend possible⟩

/-- An operation that is alone reaches the database that it leaves behind. -/
theorem Reaches.of_completes {τ α : Type} [Task τ α] {progress : Progress τ α} {ended : α}
    (reaches : db.Reaches mid) (done : Completes mid progress ended after) : db.Reaches after := by
  induction done with
  | finished => exact reaches
  | @waiting mid _ task ended rest ih => exact ih (reaches.perform (Task.call task) none)

/-- So do operations one after another. -/
theorem Sequence.reaches (sequence : Sequence config db) : (Database.empty config).Reaches db := by
  induction sequence with
  | empty => exact .here
  | request before through done ih => exact ih.of_completes done

/-- A table with a document and an index is dropped, and nothing fails: whoever creates it again, at
whatever time later, gets a store for its documents that is not there yet. -/
theorem drops_clear_or_stop_of_document :
    ∃ db steps after, (empty .default).Reaches db ∧ (db.backend.store 0).size = 1 ∧
      Ends (.alone TableDrop fun _ _ fault => fault = none) db (dropTable "t") steps (.ok ())
        after ∧
      ∀ later, after.Reaches later →
        after.backend.stores.length ≤ (later.addTable "t").1.documents := by
  let table : Table := ⟨0, "t", 0, Config.default.retry⟩
  have replayed : ((replay? 20 (.empty .default)
      [.createTable "t",
        .table table (.document (.set "x" (.map [(.string "n", .bool true)]))),
        .table table (.createIndex "i" "n")]).any fun db => (db.backend.store 0).size == 1 &&
          (endure? (fun _ _ fault => fault = none) [none, none, none, none] db
            (dropTable "t")).any fun ended => ended.2.1.isOk) = true := by
    decide +kernel
  obtain ⟨db, hs, holds⟩ := (Option.any_eq_true _ _).1 replayed
  rw [Bool.and_eq_true, beq_iff_eq] at holds
  obtain ⟨⟨steps, result, after⟩, he, ok⟩ := (Option.any_eq_true _ _).1 holds.2
  have reached := (Sequence.empty.of_replay? hs).reaches
  cases result with
  | error e => cases ok
  | ok done =>
      have ends := Ends.of_endure? he
      refine ⟨db, steps, after, reached, holds.1, ends, fun later reaches => ?_⟩
      obtain ⟨no, -, -⟩ | ⟨table, names, -, split, -, -, -, ⟨-, cleared⟩ | ⟨e, -, -, -, no, -⟩⟩ :=
        (drops_clear_or_stop reached).1 "t" steps (.ok ()) after ends
      · cases no
      · refine cleared.fresh (Name.documents "t") ?_ later reaches
        rw [split]
        exact List.mem_append_right _ (List.mem_singleton_self _)
      · cases no

/-- **A table that is created again after a drop that failed has its old documents**, and the drop
cannot be repeated once the storage works again. -/
theorem drops_leave_documents :
    ∃ db steps after table last, (empty .default).Reaches db ∧
      Ends (.alone TableDrop fun _ _ _ => True) db (dropTable "t") steps
        (.error (.storage "boom")) after ∧
      Completes after (dropTable "t") (.error .notFound) after ∧
      (after.backend.find? (Name.documents "t")).isSome ∧
      Completes after (createTable "t") (.ok table) last ∧ last.count table = 1 := by
  let table : Table := ⟨0, "t", 0, Config.default.retry⟩
  have replayed : ((replay? 20 (.empty .default)
      [.createTable "t",
        .table table (.document (.set "x" (.map [(.string "n", .bool true)])))]).any fun db =>
          (endure? (fun _ _ _ => True) [none, none, some (.storage "boom")] db
            (dropTable "t")).any fun ended =>
              failureOf ended.2.1 == some (.storage "boom") &&
                (ended.2.2.table? "t").isNone &&
                (ended.2.2.backend.find? (Name.documents "t")).isSome &&
                (ended.2.2.finish? 1 (DocStore.createTable "t")).any fun made =>
                  made.1.toOption.any fun table => made.2.count table == 1) = true := by
    decide +kernel
  obtain ⟨db, hs, holds⟩ := (Option.any_eq_true _ _).1 replayed
  obtain ⟨⟨steps, result, after⟩, he, holds⟩ := (Option.any_eq_true _ _).1 holds
  simp only [Bool.and_eq_true, beq_iff_eq, Option.isNone_iff_eq_none] at holds
  obtain ⟨⟨⟨failed, gone⟩, left⟩, made⟩ := holds
  obtain ⟨⟨result', last⟩, finished, counted⟩ := (Option.any_eq_true _ _).1 made
  obtain rfl := eq_of_failureOf failed
  cases result' with
  | error e => cases counted
  | ok again =>
      exact ⟨db, steps, after, again, last, (Sequence.empty.of_replay? hs).reaches,
        .of_endure? he, .waits (perform_unregisterTable_of_none gone) (.finished _ _), left,
        .of_finish? finished, beq_iff_eq.1 counted⟩

end Database

end DocStore
