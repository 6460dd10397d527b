/-
Creating and dropping the indexes of a table.

* `IndexCreation` — the operation: register the index, so that writers keep it from now on, and
  then file the documents that are there, each by what it is at that moment;
* `IndexDrop` — the operation: take the index from the table, then drop its buckets;
* `Table.createIndex`, `Table.dropIndex`.
-/

import DocStore.Index.Settle
import DocStore.Name
import DocStore.Table.Scan

set_option autoImplicit false

namespace DocStore

/-! ### Creating -/

/-- What creating an index is in the middle of. -/
inductive IndexCreation.Stage
  /-- The index is registered. -/
  | registering (name : String) (path : FieldPath)
  /-- A cursor is opened on the documents. -/
  | opening (index : Index)
  /-- The documents are filed; the cursor is open. -/
  | filing (index : Index) (queue : SettleQueue)
  /-- The cursor is released. -/
  | releasing (index : Index)

/-- An index that is being created. -/
structure IndexCreation where
  /-- The table. -/
  table : Table
  /-- What is under way. -/
  stage : IndexCreation.Stage

namespace IndexCreation

/-- Begins to create an index. -/
def start (table : Table) (name path : String) :
    Progress IndexCreation (Except Error Index) :=
  match Name.validate name with
  | .error e => .finished (.error e)
  | .ok () =>
      match FieldPath.parseField path with
      | .error reason => .finished (.error (.invalidPath reason))
      | .ok path => .waiting ⟨table, .registering name path⟩

/-- The memberships of the documents in a snapshot. -/
def memberships (index : Index) (documents : List Entry) : List Membership :=
  documents.flatMap fun e =>
    (index.path.indexKeys e.value).map fun indexKey => ⟨index, indexKey, e.keyText⟩

/-- Goes on with the documents that are filed. -/
def filed (table : Table) (index : Index) :
    Progress SettleQueue Unit → Progress IndexCreation (Except Error Index)
  | .waiting queue => .waiting ⟨table, .filing index queue⟩
  | .finished () => .waiting ⟨table, .releasing index⟩

instance : Task IndexCreation (Except Error Index) where
  call c :=
    match c.stage with
    | .registering name path => .registerIndex c.table name path
    | .opening _ => .iter c.table.documents false
    | .filing _ queue => Task.call queue
    | .releasing _ => .release c.table.documents
  resume c reply :=
    match c.stage, reply with
    | .registering _ _, .index (.ok index) => .waiting { c with stage := .opening index }
    | .registering _ _, .index (.error e) => .finished (.error e)
    | .opening index, .cursor (.ok cursor) =>
        let range := Range.onCursor c.table.documents cursor .min .max false
        filed c.table index (SettleQueue.start (memberships index range.drain))
    | .opening _, .cursor (.error e) => .finished (.error e)
    | .filing index queue, reply => filed c.table index (Task.resume queue reply)
    | .releasing index, .done _ => .finished (.ok index)
    | _, _ => .waiting c

end IndexCreation

/-! ### Dropping -/

/-- What dropping an index is in the middle of. -/
inductive IndexDrop.Stage
  /-- The index is taken from the table. -/
  | unregistering
  /-- The buckets are dropped. -/
  | dropping

/-- An index that is being dropped. -/
structure IndexDrop where
  /-- The table. -/
  table : Table
  /-- The name of the index. -/
  name : String
  /-- What is under way. -/
  stage : IndexDrop.Stage

namespace IndexDrop

instance : Task IndexDrop (Except Error Unit) where
  call d :=
    match d.stage with
    | .unregistering => .unregisterIndex d.table.id d.name
    | .dropping => .dropKeyspace (Name.buckets d.table.name d.name)
  resume d reply :=
    match d.stage, reply with
    | .unregistering, .index (.ok _) => .waiting { d with stage := .dropping }
    | .unregistering, .index (.error e) => .finished (.error e)
    | .dropping, .done result => .finished result
    | _, _ => .waiting d

end IndexDrop

namespace Table

/-- Creates an index of the values at a path. -/
def createIndex (table : Table) (name path : String) :
    Progress IndexCreation (Except Error Index) :=
  IndexCreation.start table name path

/-- Drops an index. -/
def dropIndex (table : Table) (name : String) : Progress IndexDrop (Except Error Unit) :=
  .waiting ⟨table, name, .unregistering⟩

end Table

end DocStore
