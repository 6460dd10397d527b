/-
Creating and dropping tables.

* `TableCreation` — the operation: enter the name and make the keyspace of the documents;
* `TableDrop` — the operation: take the table out of the catalog, take its indexes from it, and drop
  all keyspaces that it had, those of the indexes first;
* `createTable`, `dropTable`.
-/

import DocStore.Call
import DocStore.Name

set_option autoImplicit false

namespace DocStore

/-- A table that is being created. -/
structure TableCreation where
  /-- The name of the table. -/
  name : String

namespace TableCreation

instance : Task TableCreation (Except Error Table) where
  call c := .registerTable c.name
  resume c reply :=
    match reply with
    | .table result => .finished result
    | _ => .waiting c

end TableCreation

/-- Creates a table. -/
def createTable (name : String) : Progress TableCreation (Except Error Table) :=
  match Name.validate name with
  | .ok () => .waiting ⟨name⟩
  | .error e => .finished (.error e)

/-- What dropping a table is in the middle of. -/
inductive TableDrop.Stage
  /-- The table is taken out of the catalog. -/
  | unregistering
  /-- The indexes are taken from the table. -/
  | taking (table : Table)
  /-- A keyspace is dropped, with others to come. -/
  | dropping (keyspace : String) (rest : List String)

/-- A table that is being dropped. -/
structure TableDrop where
  /-- The name of the table. -/
  name : String
  /-- What is under way. -/
  stage : TableDrop.Stage

namespace TableDrop

/-- Begins to drop the next keyspace. -/
def next (d : TableDrop) : List String → Progress TableDrop (Except Error Unit)
  | [] => .finished (.ok ())
  | keyspace :: rest => .waiting { d with stage := .dropping keyspace rest }

instance : Task TableDrop (Except Error Unit) where
  call d :=
    match d.stage with
    | .unregistering => .unregisterTable d.name
    | .taking table => .takeIndexes table.id
    | .dropping keyspace _ => .dropKeyspace keyspace
  resume d reply :=
    match d.stage, reply with
    | .unregistering, .table (.ok table) => .waiting { d with stage := .taking table }
    | .unregistering, .table (.error e) => .finished (.error e)
    | .taking table, .indexes indexes =>
        d.next (indexes.map (fun i => Name.buckets table.name i.name)
          ++ [Name.documents table.name])
    | .dropping _ rest, .done (.ok ()) => d.next rest
    | .dropping _ _, .done (.error e) => .finished (.error e)
    | _, _ => .waiting d

end TableDrop

/-- Drops a table with all its indexes. -/
def dropTable (name : String) : Progress TableDrop (Except Error Unit) :=
  .waiting ⟨name, .unregistering⟩

end DocStore
