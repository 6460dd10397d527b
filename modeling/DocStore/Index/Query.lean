/-
Asking an index for a value.

* `BucketRead` — the operation: read the documents of one bucket;
* `Index.keys`, `Index.bucket` — the documents filed under a value, and under an index key;
* `BucketLoad`, `Index.getAll` — their entries; a document that is gone is left out;
* `BucketFirst`, `Index.one` — the first document that is still there, at a shape.
-/

import DocStore.Index.Bucket
import DocStore.Table.Scan

set_option autoImplicit false

namespace DocStore

/-! ### The documents of a bucket -/

/-- A bucket that is being read. -/
structure BucketRead where
  /-- The index. -/
  index : Index
  /-- The key of the bucket. -/
  indexKey : Bytes

namespace BucketRead

/-- The documents of a bucket; there are none in one that does not exist. -/
def documents : Option (Versioned Bytes) → Except Error (List String)
  | none => .ok []
  | some stored =>
      match Bucket.decode? stored.value with
      | some documents => .ok documents
      | none => .error .decode

instance : Task BucketRead (Except Error (List String)) where
  call read := .get read.index.buckets read.indexKey
  resume read reply :=
    match reply with
    | .document found => .finished (found.bind documents)
    | _ => .waiting read

end BucketRead

/-! ### Their entries -/

/-- The entry of a document. -/
def entryOf (document : String) (stored : Versioned Bytes) : Entry :=
  ⟨Utf8.encode document, stored.value, stored.counter⟩

/-- What loading a bucket is in the middle of. -/
inductive BucketLoad.Stage
  /-- The bucket is read. -/
  | bucket (read : BucketRead)
  /-- A document is read, with others to come and entries found, the last one first. -/
  | document (key : String) (rest : List String) (found : List Entry)

/-- A bucket whose documents are being read. -/
structure BucketLoad where
  /-- The index. -/
  index : Index
  /-- What is under way. -/
  stage : BucketLoad.Stage

namespace BucketLoad

/-- Begins to read the next document. -/
def next (index : Index) (found : List Entry) :
    List String → Progress BucketLoad (Except Error (List Entry))
  | [] => .finished (.ok found.reverse)
  | key :: rest => .waiting ⟨index, .document key rest found⟩

/-- Goes on with the bucket. -/
def listed (index : Index) :
    Progress BucketRead (Except Error (List String)) →
      Progress BucketLoad (Except Error (List Entry))
  | .waiting read => .waiting ⟨index, .bucket read⟩
  | .finished (.ok keys) => next index [] keys
  | .finished (.error e) => .finished (.error e)

instance : Task BucketLoad (Except Error (List Entry)) where
  call load :=
    match load.stage with
    | .bucket read => Task.call read
    | .document key _ _ => .get load.index.documents (Utf8.encode key)
  resume load reply :=
    match load.stage, reply with
    | .bucket read, reply => listed load.index (Task.resume read reply)
    | .document _ _ _, .document (.error e) => .finished (.error e)
    | .document _ rest found, .document (.ok none) => next load.index found rest
    | .document key rest found, .document (.ok (some stored)) =>
        next load.index (entryOf key stored :: found) rest
    | _, _ => .waiting load

end BucketLoad

/-! ### The first of them -/

/-- What looking for the first document is in the middle of. -/
inductive BucketFirst.Stage
  /-- The bucket is read. -/
  | bucket (read : BucketRead)
  /-- A document is read, with others to come. -/
  | document (key : String) (rest : List String)

/-- A bucket whose first present document is looked for. -/
structure BucketFirst where
  /-- The index. -/
  index : Index
  /-- The shape at which the document is read. -/
  shape : Shape
  /-- What is under way. -/
  stage : BucketFirst.Stage

namespace BucketFirst

/-- Begins to read the next document. -/
def next (index : Index) (shape : Shape) :
    List String → Progress BucketFirst (Except Error (String × Versioned Value))
  | [] => .finished (.error .notFound)
  | key :: rest => .waiting ⟨index, shape, .document key rest⟩

/-- Goes on with the bucket. -/
def listed (index : Index) (shape : Shape) :
    Progress BucketRead (Except Error (List String)) →
      Progress BucketFirst (Except Error (String × Versioned Value))
  | .waiting read => .waiting ⟨index, shape, .bucket read⟩
  | .finished (.ok keys) => next index shape keys
  | .finished (.error e) => .finished (.error e)

instance : Task BucketFirst (Except Error (String × Versioned Value)) where
  call task :=
    match task.stage with
    | .bucket read => Task.call read
    | .document key _ => .get task.index.documents (Utf8.encode key)
  resume task reply :=
    match task.stage, reply with
    | .bucket read, reply => listed task.index task.shape (Task.resume read reply)
    | .document _ _, .document (.error e) => .finished (.error e)
    | .document _ rest, .document (.ok none) => next task.index task.shape rest
    | .document key _, .document (.ok (some stored)) =>
        .finished ((stored.decode task.shape).map fun document => (key, document))
    | _, _ => .waiting task

end BucketFirst

/-! ### Questions -/

namespace Index

/-- The documents filed under an index key, in the order of the bucket. -/
def bucket (index : Index) (indexKey : Bytes) :
    Progress BucketRead (Except Error (List String)) :=
  .waiting ⟨index, indexKey⟩

/-- The documents filed under a value, in the order of the bucket. -/
def keys (index : Index) (value : Value) : Progress BucketRead (Except Error (List String)) :=
  match value.indexKey? with
  | some indexKey => index.bucket indexKey
  | none => .finished (.error .encode)

/-- The entries of the documents filed under a value. -/
def getAll (index : Index) (value : Value) :
    Progress BucketLoad (Except Error (List Entry)) :=
  BucketLoad.listed index (index.keys value)

/-- The first document filed under a value, at a shape, with its key. -/
def one (index : Index) (value : Value) (shape : Shape) :
    Progress BucketFirst (Except Error (String × Versioned Value)) :=
  BucketFirst.listed index shape (index.keys value)

end Index

end DocStore
