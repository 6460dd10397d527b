/-
Tables and indexes leave each other alone.

What is asked of a table is done in keyspaces of its name: its documents in the one, the buckets of
its indexes in the others.  A call does not say under which name its store was opened, and a handle
does not say under which name its number was given out.  But as long as every operation has only
handles that were given to it, names and numbers go together, whatever else is under way and
whatever fails; and since no two owners have the same keyspace, all others are spared.

* `TableRequest.touched`, `DatabaseRequest.touched` — whose keyspaces a request may change;
* `Owner.Spared` — the keyspace of an owner has stayed as it was;
* `Database.Confined`, `Database.spared_perform` — **a call that is confined to some owners spares
  all others;**
* `Database.Traced`, `Database.Traced.perform` — handles lead to stores of their own names, and a
  call keeps this;
* `TableTask.Within`, `DatabaseTask.Within` — an operation that stays within the keyspaces of some
  owners: it makes confined calls only (`DatabaseTask.confined`), and stays so, whatever becomes of
  its call (`DatabaseTask.within_step`);
* `Run.apart` — this is so in every state;
* `Run.spares_others` — **an operation spares every owner that its request does not touch,** in each
  of its calls, and as a whole when it is alone.
-/

import DocStore.Proofs.Database.Faults
import DocStore.Proofs.Database.Owners
import DocStore.Proofs.Documents.Memberships

set_option autoImplicit false

namespace DocStore

variable {db after : Database} {names later : List String} {owners : Set Owner} {owner : Owner}
  {fault : Option Error}

/-! ### What a request touches -/

/-- Whose keyspaces may change when this is asked of a table.  A document is written, and it is
filed in any index of the table; but an index is made or dropped by itself. -/
def TableRequest.touched (table : String) : TableRequest → Set Owner
  | .document _ => {owner | owner.table = table}
  | .createIndex name _ => {.buckets table name}
  | .dropIndex name => {.buckets table name}

/-- Whose keyspaces may change when this is asked for. -/
def DatabaseRequest.touched : DatabaseRequest → Set Owner
  | .createTable name => {.documents name}
  | .dropTable name => {owner | owner.table = name}
  | .table handle request => request.touched handle.name
  | .query _ => ∅

instance (table : String) (owner : Owner) :
    (request : TableRequest) → Decidable (owner ∈ request.touched table)
  | .document _ => inferInstanceAs (Decidable (owner.table = table))
  | .createIndex name _ | .dropIndex name =>
      inferInstanceAs (Decidable (owner = .buckets table name))

instance (owner : Owner) : (request : DatabaseRequest) → Decidable (owner ∈ request.touched)
  | .createTable name => inferInstanceAs (Decidable (owner = .documents name))
  | .dropTable name => inferInstanceAs (Decidable (owner.table = name))
  | .table handle request => inferInstanceAs (Decidable (owner ∈ request.touched handle.name))
  | .query _ => inferInstanceAs (Decidable False)

/-! ### What is spared -/

/-- The keyspace of an owner has stayed as it was: its name leads to the same store, or to none as
before, and in every store that was opened under this name all slots are the same, with their
counters, those of deleted keys among them. -/
structure Owner.Spared (owner : Owner) (db after : Database) : Prop where
  named : after.backend.find? owner.keyspace = db.backend.find? owner.keyspace
  slots : ∀ id, db.backend.Bears id owner.keyspace →
    (after.backend.store id).slots = (db.backend.store id).slots

theorem Owner.Spared.refl (owner : Owner) (db : Database) : owner.Spared db db :=
  ⟨rfl, fun _ _ => rfl⟩

theorem Owner.Spared.trans {last : Database} (h : owner.Spared db after)
    (bears : ∀ id name, db.backend.Bears id name → after.backend.Bears id name)
    (h' : owner.Spared after last) : owner.Spared db last :=
  ⟨h'.named.trans h.named, fun id hb => (h'.slots id (bears id _ hb)).trans (h.slots id hb)⟩

namespace Database

/-! ### Calls that are confined -/

/-- The store was opened for one of these owners. -/
def OpenedFor (owners : Set Owner) (db : Database) (id : StoreId) : Prop :=
  ∃ owner ∈ owners, db.backend.Bears id owner.keyspace

/-- A call that writes, makes and drops nothing else than what belongs to these owners, where the
tables have these names by their numbers. -/
def Confined (names : List String) (owners : Set Owner) (db : Database) : Call → Prop
  | .create id _ _ => db.OpenedFor owners id
  | .compareAndSet id _ _ _ => db.OpenedFor owners id
  | .compareAndDelete id _ _ => db.OpenedFor owners id
  | .registerIndex table name _ =>
      names[table.id]? = some table.name ∧ .buckets table.name name ∈ owners
  | .registerTable name => .documents name ∈ owners
  | .dropKeyspace name => ∃ owner ∈ owners, owner.keyspace = name
  | _ => True

theorem confined_write {write : SlotWrite} {id : StoreId} {key : Bytes} :
    db.Confined names owners (write.call id key) ↔ db.OpenedFor owners id := by
  cases write <;> exact Iff.rfl

theorem confined_of_reads {call : Call} (h : call.Reads) : db.Confined names owners call := by
  cases call <;> trivial

/-- A change of a bucket writes in the store of its index. -/
theorem confined_edit {edit : BucketEdit} (h : db.OpenedFor owners edit.membership.index.buckets) :
    db.Confined names owners (Task.call edit) := by
  rcases edit.call_cases with ⟨-, hc⟩ | ⟨write, -, hc⟩
  · rw [hc]
    trivial
  · rw [hc]
    exact confined_write.2 h

/-- A name leads where it led before, unless the call opens or drops a keyspace of this name. -/
theorem find?_perform (db : Database) {call : Call} (fault : Option Error) {name : String}
    (registered : ∀ owner i path, call = .registerIndex owner i path →
      name ≠ Name.buckets owner.name i)
    (made : ∀ table, call = .registerTable table → name ≠ Name.documents table)
    (dropped : call ≠ .dropKeyspace name) :
    (db.perform call fault).2.backend.find? name = db.backend.find? name := by
  by_cases access : call.IsAccess
  · obtain ⟨-, -, -, keyspaces, -⟩ := db.perform_of_isAccess fault access
    rw [Backend.find?, keyspaces]
    rfl
  rcases db.backend_perform fault access with
    same | ⟨table, i, path, rfl, opened⟩ | ⟨table, rfl, opened⟩ | ⟨other, rfl, erased⟩
  · rw [same]
  · rw [opened, Backend.find?_openKeyspace, if_neg (registered table i path rfl)]
  · rw [opened, Backend.find?_openKeyspace, if_neg (made table rfl)]
  · rw [erased, Backend.find?, Backend.dropKeyspace, SortedMap.find?_erase,
      if_neg fun same => dropped (by rw [same])]
    rfl

/-- **A call that is confined to some owners spares all others.** -/
theorem spared_perform {call : Call} (confined : db.Confined names owners call)
    (fault : Option Error) (out : owner ∉ owners) :
    owner.Spared db (db.perform call fault).2 := by
  have different : ∀ {mine : Owner}, mine ∈ owners → owner.keyspace ≠ mine.keyspace :=
    fun mem same => out (Owner.keyspace_injective same ▸ mem)
  refine ⟨db.find?_perform fault ?_ ?_ ?_, fun id bears => ?_⟩
  -- the names change where keyspaces are opened and dropped, and these belong to other owners
  · rintro table name path rfl
    exact different confined.2
  · rintro name rfl
    exact different confined
  · rintro rfl
    obtain ⟨mine, mem, same⟩ := confined
    exact different mem same.symm
  -- slots change where something is written, and a store has one name
  · rcases db.store_perform call fault bears.lt_length with ⟨write, key, rfl, -, -⟩ | ⟨same, -⟩
    · obtain ⟨mine, mem, bears'⟩ := confined_write.1 confined
      exact absurd (bears.keyspace.symm.trans bears'.keyspace) (different mem)
    · exact same

/-! ### Names and numbers -/

/-- A handle of the table that was made under this number: it has the name of the table, and leads
to a store of its documents. -/
structure Handles (names : List String) (db : Database) (table : Table) : Prop where
  named : names[table.id]? = some table.name
  stored : db.backend.Bears table.documents (Name.documents table.name)

/-- These are the names of all tables that were ever made, by their numbers: what is registered with
a table leads to stores of the name of the table, and the catalog gives handles of its tables. -/
structure Traced (names : List String) (db : Database) : Prop where
  consistent : db.backend.Consistent
  length : names.length = db.indexes.length
  registered : ∀ id name index, (db.indexesOf id).find? name = some index →
    ∃ table, names[id]? = some table ∧ db.backend.Bears index.buckets (Name.buckets table name)
  catalog : ∀ name table, db.table? name = some table →
    table.name = name ∧ db.Handles names table

theorem traced_empty (config : Config) : (empty config).Traced [] where
  consistent := Backend.consistent_empty
  length := rfl
  registered _ _ _ h := nomatch h
  catalog _ _ h := nomatch h

/-- Some tables may have been made, and no store has got another name. -/
structure Grows (names later : List String) (db after : Database) : Prop where
  names : names <+: later
  bears : ∀ id name, db.backend.Bears id name → after.backend.Bears id name

namespace Grows

variable (h : Grows names later db after)
include h

theorem named {id : TableId} {table : String} (known : names[id]? = some table) :
    later[id]? = some table := by
  obtain ⟨lt, eq⟩ := List.getElem?_eq_some_iff.1 known
  exact (List.prefix_iff_getElem?.1 h.names id lt).trans (congrArg some eq)

theorem handles {table : Table} (ht : db.Handles names table) : after.Handles later table :=
  ⟨h.named ht.named, h.bears _ _ ht.stored⟩

theorem openedFor {id : StoreId} (opened : db.OpenedFor owners id) : after.OpenedFor owners id := by
  obtain ⟨owner, mem, bears⟩ := opened
  exact ⟨owner, mem, h.bears id _ bears⟩

end Grows

/-- A call that makes no table makes no number. -/
theorem length_indexes_perform (db : Database) (call : Call) (fault : Option Error) :
    (∃ name, call = .registerTable name ∧ db.perform call fault
        = (.table (.ok (db.addTable name).1), (db.addTable name).2)) ∨
      (db.perform call fault).2.indexes.length = db.indexes.length := by
  rcases db.perform_handles call fault with
    ⟨same, -⟩ | ⟨table, name, path, -, made⟩ | made | ⟨table, left, eq, -⟩ | ⟨name, eq⟩
  · exact Or.inr (congrArg List.length same)
  · rw [made]
    exact Or.inr (List.length_set ..)
  · exact Or.inl made
  · rw [eq]
    exact Or.inr (List.length_set ..)
  · rw [eq]
    exact Or.inr rfl

/-- A call keeps names and numbers together, if it registers with tables of the right names, and if
the table that it makes is known. -/
theorem Traced.of_grows (traced : db.Traced names) {call : Call}
    (confined : db.Confined names owners call)
    (grows : Grows names later db (db.perform call fault).2)
    (length : later.length = (db.perform call fault).2.indexes.length)
    (new : ∀ name table, call = .registerTable name →
      db.perform call fault = (.table (.ok table), (db.addTable name).2) →
        table.name = name ∧ (db.perform call fault).2.Handles later table) :
    (db.perform call fault).2.Traced later := by
  refine ⟨consistent_perform call fault traced.consistent, length, ?_, ?_⟩
  · intro id name index found
    rcases db.find?_indexesOf_perform call fault found with before | ⟨table, path, rfl, rfl, made⟩
    · obtain ⟨table, known, stored⟩ := traced.registered id name index before
      exact ⟨table, grows.named known, grows.bears _ _ stored⟩
    · exact ⟨table.name, grows.named confined.1, bears_of_registerIndex traced.consistent made⟩
  · intro name table found
    rcases db.table?_perform call fault found with before | ⟨same, made⟩
    · obtain ⟨named, handles⟩ := traced.catalog name table before
      exact ⟨named, grows.handles handles⟩
    · exact new name table same made

/-- **A confined call keeps names and numbers together**; if it makes a table, there is one more. -/
theorem Traced.perform (traced : db.Traced names) {call : Call}
    (confined : db.Confined names owners call) (fault : Option Error) :
    ∃ later, (db.perform call fault).2.Traced later ∧
      Grows names later db (db.perform call fault).2 := by
  have bears : ∀ id name, db.backend.Bears id name →
      (db.perform call fault).2.backend.Bears id name := fun _ _ => bears_perform call fault
  rcases db.length_indexes_perform call fault with ⟨name, rfl, made⟩ | same
  · have grows : Grows names (names ++ [name]) db (db.perform (.registerTable name) fault).2 :=
      ⟨List.prefix_append _ _, bears⟩
    have longer : (db.addTable name).2.indexes.length = db.indexes.length + 1 :=
      List.length_append
    refine ⟨_, traced.of_grows confined grows ?_ ?_, grows⟩
    · rw [made, List.length_append, traced.length]
      exact longer.symm
    · intro other table call entered
      obtain rfl := Call.registerTable.inj call
      obtain rfl : (db.addTable name).1 = table :=
        Except.ok.inj (Reply.table.inj (congrArg Prod.fst (made.symm.trans entered)))
      -- its number is the next one
      have number : (db.addTable name).1.id = names.length := traced.length.symm
      refine ⟨rfl, ?_, ?_⟩
      · rw [number]
        exact List.getElem?_concat_length
      · rw [made]
        exact bears_addTable traced.consistent name
  · have grows : Grows names names db (db.perform call fault).2 := ⟨List.prefix_refl _, bears⟩
    refine ⟨names, traced.of_grows confined grows (traced.length.trans same.symm) ?_, grows⟩
    rintro name table rfl made
    -- the call has made a table, and so there would be one more number
    rw [made] at same
    exact absurd ((List.length_append ..).symm.trans same) (Nat.succ_ne_self _)

/-- The table that is taken out of the catalog has the name under which it was there. -/
theorem Traced.named_of_unregisterTable (traced : db.Traced names) {name : String} {table : Table}
    (h : (db.perform (.unregisterTable name) fault).1 = .table (.ok table)) :
    table.name = name := by
  rcases db.perform_cases (.unregisterTable name) fault with ⟨e, -, he⟩ | hf
  · rw [he] at h
    cases h
  · rw [hf] at h
    simp only [forward] at h
    split at h
    · rename_i found there
      obtain rfl := Except.ok.inj (Reply.table.inj h)
      exact (traced.catalog name _ there).1
    · cases h

/-- So does what happens besides. -/
theorem Traced.elsewhere {documents : Set String} (traced : db.Traced names)
    (h : Elsewhere documents db after) : after.Traced names ∧ Grows names names db after := by
  obtain ⟨evolves, indexes, catalog⟩ := evolves_elsewhere traced.consistent h
  have grows : Grows names names db after :=
    ⟨List.prefix_refl _, fun _ _ bears => evolves.bears bears⟩
  refine ⟨⟨evolves.consistent, by rw [indexes, traced.length], ?_, ?_⟩, grows⟩
  · intro id name index found
    rw [indexesOf, indexes] at found
    obtain ⟨table, known, bears⟩ := traced.registered id name index found
    exact ⟨table, known, evolves.bears bears⟩
  · intro name table found
    rw [table?, catalog] at found
    obtain ⟨named, handles⟩ := traced.catalog name table found
    exact ⟨named, grows.handles handles⟩

end Database

/-! ### Operations that stay within -/

/-- The creation of an index that has to do with these owners only. -/
structure IndexCreation.Within (names : List String) (db : Database) (owners : Set Owner)
    (c : IndexCreation) : Prop where
  named : names[c.table.id]? = some c.table.name
  registering : ∀ name path, c.stage = .registering name path →
    .buckets c.table.name name ∈ owners
  opening : ∀ index, c.stage = .opening index → db.OpenedFor owners index.buckets
  concerns : c.Concerns (fun m => db.OpenedFor owners m.index.buckets) fun _ => True

/-- The drop of a table that has to do with these owners only. -/
structure TableDrop.Within (owners : Set Owner) (d : TableDrop) : Prop where
  spans : ∀ owner : Owner, owner.table = d.name → owner ∈ owners
  taking : ∀ table, d.stage = .taking table → table.name = d.name
  dropping : ∀ keyspace rest, d.stage = .dropping keyspace rest →
    ∀ name ∈ keyspace :: rest, ∃ owner ∈ owners, owner.keyspace = name

/-- An operation on a table that has to do with these owners only: one on a document works through
a handle of the table, and all that the table has is among these. -/
def TableTask.Within (names : List String) (db : Database) (owners : Set Owner) :
    TableTask → Prop
  | .document task => ∃ table, db.Handles names table ∧
      (∀ owner : Owner, owner.table = table.name → owner ∈ owners) ∧
      task.Concerns table (fun m => db.OpenedFor owners m.index.buckets) fun _ => True
  | .creating c => c.Within names db owners
  | .dropping d => .buckets d.table.name d.name ∈ owners

/-- An operation that has to do with these owners only. -/
def DatabaseTask.Within (names : List String) (db : Database) (owners : Set Owner) :
    DatabaseTask → Prop
  | .creating c => .documents c.name ∈ owners
  | .dropping d => d.Within owners
  | .table task => task.Within names db owners
  | .query _ => True

/-- The table that was made, if there is one, has this handle. -/
def DatabaseOutcome.Handled (names : List String) (db : Database) (outcome : DatabaseOutcome) :
    Prop :=
  ∀ table, outcome = .created (.ok table) → db.Handles names table

/-! ### Making an index -/

namespace IndexCreation

variable {c : IndexCreation}

theorem Within.mono (h : c.Within names db owners) (grows : Database.Grows names later db after) :
    c.Within later after owners where
  named := grows.named h.named
  registering := h.registering
  opening index hs := grows.openedFor (h.opening index hs)
  concerns := h.concerns.imp (fun _ hm => grows.openedFor hm) fun _ _ he => he

theorem Within.confined (h : c.Within names db owners) :
    db.Confined names owners (Task.call c) := by
  obtain ⟨table, stage⟩ := c
  cases stage with
  | registering name path => exact ⟨h.named, h.registering name path rfl⟩
  | opening index => trivial
  | filing index queue =>
      exact Settling.call_of_concerns (h.concerns index queue rfl).1 (fun _ _ => trivial)
        fun _ hm _ => Database.confined_edit hm
  | releasing index => trivial

theorem within_step (traced : db.Traced names) (h : c.Within names db owners)
    (grows : Database.Grows names later db (db.perform (Task.call c) fault).2) :
    (Task.resume c (db.perform (Task.call c) fault).1).Satisfies
      (Within later (db.perform (Task.call c) fault).2 owners) fun _ => True := by
  have concerns := concerns_resume h.concerns (db.perform (Task.call c) fault).1
    (fun index cursor stage _ m hm => ?_) (fun _ _ _ => trivial)
    fun _ _ _ _ => Progress.satisfies_true _
  · refine (concerns.and (c.continues_resume _)).imp ?_ fun _ _ => trivial
    rintro t ⟨kept, continues⟩
    refine ⟨?_, fun name path hs => ?_, fun index hs => ?_,
      kept.imp (fun _ hm => grows.openedFor hm) fun _ _ he => he⟩
    · rw [continues.table]
      exact grows.named h.named
    · rw [continues.table]
      exact h.registering name path (continues.registering name path hs)
    · rcases continues.opening index hs with before | ⟨name, path, stage, registered⟩
      · exact grows.openedFor (h.opening index before)
      -- the index is new, and its store was opened for it
      · have call : Task.call c = .registerIndex c.table name path := by
          simp only [Task.call, stage]
        rw [call] at registered ⊢
        exact ⟨_, h.registering name path stage,
          Database.bears_of_registerIndex traced.consistent registered⟩
  · -- what is filed is filed in the index that is made
    obtain ⟨e, -, hm⟩ := List.mem_flatMap.1 hm
    obtain ⟨indexKey, -, rfl⟩ := List.mem_map.1 hm
    exact h.opening index stage

end IndexCreation

/-! ### Dropping a table -/

namespace TableDrop

variable {d : TableDrop}

theorem Within.confined (h : d.Within owners) : db.Confined names owners (Task.call d) := by
  obtain ⟨name, stage⟩ := d
  cases stage with
  | unregistering => trivial
  | taking table => trivial
  | dropping keyspace rest => exact h.dropping keyspace rest rfl keyspace List.mem_cons_self

theorem Within.next (spans : ∀ owner : Owner, owner.table = d.name → owner ∈ owners)
    {keyspaces : List String} (own : ∀ name ∈ keyspaces, ∃ owner ∈ owners, owner.keyspace = name) :
    (d.next keyspaces).Satisfies (Within owners) fun _ => True := by
  cases keyspaces with
  | nil => trivial
  | cons keyspace rest =>
      refine ⟨spans, (fun _ same => nomatch same), ?_⟩
      intro _ _ same
      cases same
      exact own

theorem within_step (traced : db.Traced names) (h : d.Within owners) :
    (Task.resume d (db.perform (Task.call d) fault).1).Satisfies (Within owners)
      fun _ => True := by
  have spans := h.spans
  obtain ⟨name, stage⟩ := d
  cases stage with
  | unregistering =>
      have named : ∀ table, (db.perform (Task.call (⟨name, .unregistering⟩ : TableDrop)) fault).1
          = .table (.ok table) → table.name = name := fun _ => traced.named_of_unregisterTable
      generalize (db.perform _ fault).1 = reply at named ⊢
      match reply with
      | .table (.ok table) =>
          refine ⟨spans, ?_, fun _ _ same => nomatch same⟩
          intro _ same
          cases same
          exact named table rfl
      | .table (.error e) => trivial
      | .document _ | .counter _ | .done _ | .cursor _ | .indexes _ | .index _ => exact h
  | taking table =>
      have own := h.taking table rfl
      generalize (db.perform _ fault).1 = reply
      match reply with
      | .indexes indexes =>
          refine Within.next spans fun keyspace there => ?_
          rcases List.mem_append.1 there with there | there
          · obtain ⟨index, -, rfl⟩ := List.mem_map.1 there
            exact ⟨.buckets table.name index.name, spans _ own, rfl⟩
          · obtain rfl := List.mem_singleton.1 there
            exact ⟨.documents table.name, spans _ own, rfl⟩
      | .document _ | .counter _ | .done _ | .cursor _ | .index _ | .table _ => exact h
  | dropping keyspace rest =>
      generalize (db.perform _ fault).1 = reply
      match reply with
      | .done (.ok ()) =>
          exact Within.next spans fun name there =>
            h.dropping keyspace rest rfl name (List.mem_cons_of_mem _ there)
      | .done (.error e) => trivial
      | .document _ | .counter _ | .cursor _ | .indexes _ | .index _ | .table _ => exact h

end TableDrop

/-! ### All operations -/

/-- The drop of an index stays with its table and its name. -/
theorem IndexDrop.continues_resume (d : IndexDrop) (reply : Reply) :
    (Task.resume d reply).Satisfies (fun t => t.table = d.table ∧ t.name = d.name)
      fun _ => True := by
  simp only [Task.resume]
  split
  · exact ⟨rfl, rfl⟩
  · trivial
  · trivial
  · exact ⟨rfl, rfl⟩

namespace TableTask

variable {task : TableTask}

theorem Within.mono (h : task.Within names db owners)
    (grows : Database.Grows names later db after) : task.Within later after owners := by
  match task, h with
  | .document _, ⟨table, handles, spans, concerns⟩ =>
      exact ⟨table, grows.handles handles, spans,
        DocumentTask.Concerns.imp concerns (fun _ hm => grows.openedFor hm) fun _ _ he => he⟩
  | .creating _, h => exact IndexCreation.Within.mono h grows
  | .dropping _, h => exact h

theorem within_start {table : Table} (handles : db.Handles names table) (request : TableRequest) :
    (request.start table).Satisfies (Within names db (request.touched table.name))
      fun _ => True := by
  cases request with
  | document request =>
      have started : (request.start table).Satisfies (DocumentTask.Concerns table
          (fun m => db.OpenedFor {owner | owner.table = table.name} m.index.buckets)
          fun _ => True) fun _ => True := request.concerns_start table
      exact Progress.satisfies_map.2 (started.imp
        (fun _ concerns => ⟨table, handles, fun _ same => same, concerns⟩) fun _ _ => trivial)
  | createIndex name path =>
      refine Progress.satisfies_map.2 ?_
      unfold Table.createIndex IndexCreation.start
      split
      · trivial
      · split
        · trivial
        · refine ⟨handles.named, ?_, (fun _ same => nomatch same), fun _ _ same => nomatch same⟩
          intro _ _ same
          cases same
          exact rfl
  | dropIndex name => exact rfl

theorem Within.confined (h : task.Within names db owners) :
    db.Confined names owners (Task.call task) := by
  match task, h with
  | .document _, ⟨table, handles, spans, concerns⟩ =>
      have stored : db.OpenedFor owners table.documents :=
        ⟨.documents table.name, spans _ rfl, handles.stored⟩
      exact DocumentTask.call_of_concerns concerns (fun _ _ => trivial) (fun _ => trivial) trivial
        (fun _ _ => Database.confined_write.2 stored) fun _ hm _ => Database.confined_edit hm
  | .creating _, h => exact IndexCreation.Within.confined h
  | .dropping ⟨_, _, .unregistering⟩, _ => trivial
  | .dropping ⟨table, name, .dropping⟩, h => exact ⟨.buckets table.name name, h, rfl⟩

/-- The indexes that an operation on a document finds registered are those of its table. -/
theorem upholds (traced : db.Traced names) {table : Table} (handles : db.Handles names table)
    (spans : ∀ owner : Owner, owner.table = table.name → owner ∈ owners) (call : Call)
    (fault : Option Error) :
    Upholds table (fun m => db.OpenedFor owners m.index.buckets) (fun _ => True) call
      (db.perform call fault).1 := by
  refine ⟨?_, fun _ _ _ => trivial, fun _ _ _ _ => Progress.satisfies_true _⟩
  rintro indexes rfl read index there _ _
  obtain ⟨name, found⟩ := Database.exists_find?_of_readIndexes read there
  obtain ⟨other, known, bears⟩ := traced.registered table.id name _ found
  obtain rfl := Option.some.inj (handles.named.symm.trans known)
  exact ⟨.buckets table.name name, spans _ rfl, bears⟩

theorem within_step (traced : db.Traced names) (h : task.Within names db owners)
    (grows : Database.Grows names later db (db.perform (Task.call task) fault).2) :
    (Task.resume task (db.perform (Task.call task) fault).1).Satisfies
      (Within later (db.perform (Task.call task) fault).2 owners) fun _ => True := by
  match task, h with
  | .document task, ⟨table, handles, spans, concerns⟩ =>
      have kept := DocumentTask.concerns_resume concerns
        (upholds traced handles spans (Task.call task) fault)
      refine Progress.satisfies_map.2 (kept.imp (fun t concerns => ?_) fun _ _ => trivial)
      exact ⟨table, grows.handles handles, spans,
        DocumentTask.Concerns.imp concerns (fun _ hm => grows.openedFor hm) fun _ _ he => he⟩
  | .creating _, h =>
      exact Progress.satisfies_map.2 (IndexCreation.within_step traced h grows)
  | .dropping d, h =>
      refine Progress.satisfies_map.2 ((d.continues_resume _).imp ?_ fun _ _ => trivial)
      rintro t ⟨sameTable, sameName⟩
      change .buckets t.table.name t.name ∈ owners
      rw [sameTable, sameName]
      exact h

end TableTask

namespace DatabaseTask

variable {task : DatabaseTask}

theorem Within.mono (h : task.Within names db owners)
    (grows : Database.Grows names later db after) : task.Within later after owners := by
  match task, h with
  | .creating _, h => exact h
  | .dropping _, h => exact h
  | .table _, h => exact TableTask.Within.mono h grows
  | .query _, _ => trivial

/-- **An operation that stays within the keyspaces of some owners makes confined calls only.** -/
theorem confined (h : task.Within names db owners) :
    db.Confined names owners (Task.call task) := by
  match task, h with
  | .creating _, h => exact h
  | .dropping _, h => exact TableDrop.Within.confined h
  | .table _, h => exact TableTask.Within.confined h
  | .query task, _ => exact Database.confined_of_reads task.call_reads

/-- **An operation stays within**, whatever becomes of its call; and a table that it makes gets a
handle of its name. -/
theorem within_step (traced : db.Traced names) (h : task.Within names db owners)
    (made : (db.perform (Task.call task) fault).2.Traced later)
    (grows : Database.Grows names later db (db.perform (Task.call task) fault).2) :
    (Task.resume task (db.perform (Task.call task) fault).1).Satisfies
      (Within later (db.perform (Task.call task) fault).2 owners)
      (DatabaseOutcome.Handled later (db.perform (Task.call task) fault).2) := by
  match task, h with
  | .creating creation, h =>
      refine Progress.satisfies_map.2 ?_
      simp only [Task.call, Task.resume]
      split
      · rename_i result registered
        intro table same
        obtain rfl : result = .ok table := DatabaseOutcome.created.inj same
        -- the table that is made is the one that the catalog has under the name
        have added := Database.eq_addTable_of_registerTable registered
        have entered : (db.addTable creation.name).2.table? creation.name
            = some (db.addTable creation.name).1 :=
          (SortedMap.find?_insert _ _ _ _).trans (if_pos rfl)
        rw [added] at entered
        exact (made.catalog _ _ entered).2
      · exact h
  | .dropping _, h =>
      exact Progress.satisfies_map.2 ((TableDrop.within_step traced h).imp (fun _ h => h)
        fun _ _ _ same => nomatch same)
  | .table _, h =>
      exact Progress.satisfies_map.2 ((TableTask.within_step traced h grows).imp (fun _ h => h)
        fun _ _ _ same => nomatch same)
  | .query _, _ =>
      exact Progress.satisfies_map.2
        ((Progress.satisfies_true _).imp (fun _ _ => trivial) fun _ _ _ same => nomatch same)

end DatabaseTask

/-- A request begins within what it touches, if the handle that it comes with leads to stores of its
name. -/
theorem DatabaseRequest.within_start (request : DatabaseRequest)
    (handles : ∀ handle asked, request = .table handle asked → db.Handles names handle) :
    request.start.Satisfies (DatabaseTask.Within names db request.touched)
      (DatabaseOutcome.Handled names db) := by
  cases request with
  | createTable name =>
      refine Progress.satisfies_map.2 ?_
      unfold DocStore.createTable
      split
      · exact rfl
      · exact fun _ same => nomatch same
  | dropTable name =>
      exact ⟨fun _ same => same, (fun _ same => nomatch same), fun _ _ same => nomatch same⟩
  | table handle asked =>
      exact Progress.satisfies_map.2
        ((TableTask.within_start (handles handle asked rfl) asked).imp (fun _ h => h)
          fun _ _ _ same => nomatch same)
  | query asked =>
      exact Progress.satisfies_map.2
        ((Progress.satisfies_true _).imp (fun _ _ => trivial) fun _ _ _ same => nomatch same)

/-! ### Runs -/

variable {documents : Set String} {config : Config}
  {s : System DatabaseRequest DatabaseTask DatabaseOutcome}

/-- A state in which names and numbers go together, and every operation stays within what its
request touches. -/
def Database.Apart (names : List String)
    (s : System DatabaseRequest DatabaseTask DatabaseOutcome) : Prop :=
  s.Keeps (fun db => db.Traced names)
    (fun db request task => task.Within names db request.touched)
    fun db _ outcome => outcome.Handled names db

/-- A handle that was given out leads to stores of its name. -/
theorem Database.Apart.handles (apart : Database.Apart names s) {table : Table}
    (offers : s.Offers table) : s.db.Handles names table := by
  rcases offers with made | found
  · obtain ⟨event, returned, he⟩ := List.mem_filterMap.1 made
    unfold Event.table? at he
    split at he
    · obtain rfl := Option.some.inj he
      obtain ⟨_, -, handled⟩ := apart.returned _ _ returned
      exact handled _ rfl
    · cases he
  · obtain ⟨⟨name, _⟩, entry, rfl⟩ := List.mem_map.1 found
    exact (apart.base.catalog name _ (SortedMap.find?_eq_some_iff.2 entry)).2

/-- **In every state names and numbers go together**, and every operation stays within what its
request touches. -/
theorem Run.apart (run : Run (Database.apiRules documents) (.empty config) s) :
    ∃ names, Database.Apart names s := by
  refine run.exists_keeps [] (Database.traced_empty config) ?_ ?_ ?_
  · intro names s request kept admitted
    refine request.within_start fun handle asked same => ?_
    subst same
    exact Database.Apart.handles kept admitted.1
  · intro names db request task fault _ traced within
    obtain ⟨later, made, grows⟩ := traced.perform (DatabaseTask.confined within) fault
    exact ⟨later, made, DatabaseTask.within_step traced within made grows,
      fun _ _ h => h.mono grows, fun _ _ h table same => grows.handles (h table same)⟩
  · intro names db after elsewhere traced
    obtain ⟨kept, grows⟩ := traced.elsewhere elsewhere
    exact ⟨kept, fun _ _ h => h.mono grows, fun _ _ h table same => grows.handles (h table same)⟩

/-- An operation that is alone spares every owner that its request does not touch. -/
theorem Database.Apart.spared (apart : Database.Apart names s) {request : DatabaseRequest}
    (admitted : (Database.apiRules documents).admits s request) {outcome : DatabaseOutcome}
    (done : Completes s.db request.start outcome after) (out : owner ∉ request.touched) :
    owner.Spared s.db after := by
  have started := request.within_start fun handle asked same => by
    subst same
    exact apart.handles admitted.1
  -- by induction on the calls: what has been spared so far is spared by the next call, too
  refine done.satisfies
    (P := fun db task => ∃ names, db.Traced names ∧ task.Within names db request.touched ∧
      owner.Spared s.db db ∧ ∀ id name, s.db.backend.Bears id name → db.backend.Bears id name)
    (Q := fun db _ => owner.Spared s.db db) ?_ ?_
  · rintro db task ⟨names, traced, within, spared, bears⟩
    have confined := DatabaseTask.confined within
    obtain ⟨later, made, grows⟩ := traced.perform confined none
    have still : owner.Spared s.db (db.perform (Task.call task) none).2 :=
      spared.trans bears (Database.spared_perform confined none out)
    refine (DatabaseTask.within_step traced within made grows).imp (fun _ h => ?_) fun _ _ => still
    exact ⟨later, made, h, still, fun id name hb => grows.bears id name (bears id name hb)⟩
  · exact started.imp (fun _ h => ⟨names, apart.base, h, .refl _ _, fun _ _ hb => hb⟩)
      fun _ _ => .refl _ _

/-- **An operation spares every owner that its request does not touch**, and no two owners have the
same keyspace.  An operation on a table leaves the documents and the indexes of all other tables as
they are, and to make or to drop an index leaves the documents and the other indexes of its own
table as they are, too: in each of its calls, whatever else is under way and whatever fails, and as
a whole when it is alone. -/
theorem Run.spares_others (run : Run (Database.apiRules documents) (.empty config) s) :
    Function.Injective Owner.keyspace ∧
      (∀ operation task request, s.pending operation = some task →
        s.history[operation]? = some (.invoked request) →
          ∀ fault owner, owner ∉ request.touched →
            owner.Spared s.db (s.advance operation task fault).db) ∧
      ∀ request outcome after, (Database.apiRules documents).admits s request →
        Completes s.db request.start outcome after →
          ∀ owner, owner ∉ request.touched → owner.Spared s.db after := by
  obtain ⟨names, apart⟩ := run.apart
  refine ⟨Owner.keyspace_injective, ?_, ?_⟩
  · intro operation task request pending invoked fault owner out
    obtain ⟨asked, there, within⟩ := apart.pending operation task pending
    obtain rfl := Event.invoked.inj (Option.some.inj (invoked.symm.trans there))
    rw [System.db_advance]
    exact Database.spared_perform (DatabaseTask.confined within) fault out
  · intro request outcome after admitted done owner out
    exact apart.spared admitted done out

/-- A table is dropped while another one, whose name looks as if it began with that of the first and
an index of it, has a document that is filed. -/
theorem Run.spares_others_of_drop :
    ∃ s outcome after, Run (Database.apiRules {"x"}) (.empty .default) s ∧
      s.db.backend.find? (Name.documents "t") = some 0 ∧
      s.db.backend.find? (Name.documents "t.69") = some 1 ∧
      (s.db.backend.store 1).size = 1 ∧ (s.db.backend.store 2).size = 1 ∧
      Completes s.db (DatabaseRequest.dropTable "t").start outcome after ∧
      after.backend.find? (Name.documents "t") = none ∧
      (Owner.documents "t.69").Spared s.db after ∧ (Owner.buckets "t.69" "i").Spared s.db after := by
  let other : Table := ⟨1, "t.69", 1, Config.default.retry⟩
  have played : (((System.initial (Database.empty .default)).play? (Database.apiRules {"x"})
      [.invoke (.createTable "t"), .advance 0 none, .invoke (.createTable "t.69"),
        .advance 2 none, .invoke (.table other (.createIndex "i" "n")), .advance 4 none,
        .advance 4 none, .advance 4 none,
        .invoke (.table other (.document (.set "x" (.map [(.string "n", .bool true)])))),
        .advance 6 none, .advance 6 none, .advance 6 none, .advance 6 none, .advance 6 none,
        .advance 6 none]).any fun s =>
          s.db.backend.find? (Name.documents "t") == some 0 &&
          s.db.backend.find? (Name.documents "t.69") == some 1 &&
          (s.db.backend.store 1).size == 1 && (s.db.backend.store 2).size == 1 &&
          (s.db.finish? 4 (DatabaseRequest.dropTable "t").start).any fun r =>
            r.2.backend.find? (Name.documents "t") == none) = true := by
    decide +kernel
  obtain ⟨s, run, holds⟩ := Run.exists_of_play? played
  simp only [Bool.and_eq_true, beq_iff_eq] at holds
  obtain ⟨⟨⟨⟨first, second⟩, kept⟩, filed⟩, dropped⟩ := holds
  obtain ⟨⟨outcome, after⟩, ended, gone⟩ := (Option.any_eq_true _ _).1 dropped
  have done := Completes.of_finish? ended
  obtain ⟨-, -, spares⟩ := Run.spares_others run
  have spared := spares (.dropTable "t") outcome after trivial done
  refine ⟨s, outcome, after, run, first, second, kept, filed, done, beq_iff_eq.1 gone, ?_, ?_⟩
  · exact spared _ (by decide)
  · exact spared _ (by decide)

end DocStore
