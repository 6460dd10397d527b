/-
Reading documents.

* `DocumentRead` — the operation: read one key of a table;
* `Table.getRaw`, `Table.get` — a document as bytes, and as a value of a shape.
-/

import DocStore.Call
import DocStore.Shape

set_option autoImplicit false

namespace DocStore

/-- Stored bytes as a value of a shape. -/
def Versioned.decode (stored : Versioned Bytes) (shape : Shape) :
    Except Error (Versioned Value) :=
  match shape.decode? stored.value with
  | some value => .ok ⟨value, stored.counter⟩
  | none => .error .decode

/-- A document that is being read. -/
structure DocumentRead where
  /-- The table. -/
  table : Table
  /-- The key of the document. -/
  key : String

namespace DocumentRead

instance : Task DocumentRead (Except Error (Versioned Bytes)) where
  call read := .get read.table.documents (Utf8.encode read.key)
  resume read reply :=
    match reply with
    | .document (.error e) => .finished (.error e)
    | .document (.ok none) => .finished (.error .notFound)
    | .document (.ok (some stored)) => .finished (.ok stored)
    | _ => .waiting read

end DocumentRead

/-- A document that is being read at a shape. -/
structure DocumentDecode where
  /-- The reading of its bytes. -/
  read : DocumentRead
  /-- The shape. -/
  shape : Shape

namespace DocumentDecode

/-- Goes on with the bytes. -/
def decoded (task : DocumentDecode) :
    Progress DocumentRead (Except Error (Versioned Bytes)) →
      Progress DocumentDecode (Except Error (Versioned Value)) :=
  Progress.map (fun read => { task with read }) fun result =>
    result.bind fun stored => stored.decode task.shape

instance : Task DocumentDecode (Except Error (Versioned Value)) where
  call task := Task.call task.read
  resume task reply := task.decoded (Task.resume task.read reply)

end DocumentDecode

namespace Table

/-- Reads the bytes of a document. -/
def getRaw (table : Table) (key : String) :
    Progress DocumentRead (Except Error (Versioned Bytes)) :=
  .waiting ⟨table, key⟩

/-- Reads a document as a value of a shape. -/
def get (table : Table) (key : String) (shape : Shape) :
    Progress DocumentDecode (Except Error (Versioned Value)) :=
  .waiting ⟨⟨table, key⟩, shape⟩

end Table

end DocStore
