/-
Buckets: the documents that an index files under one key.

* `Bucket.plan` — the write that adds a document to a bucket or removes it, if any is needed;
* `BucketEdit` — the operation: read the bucket, write it if nobody else did in between, and start
  over if somebody did.

A bucket is a list of strings, the keys of its documents in the order in which they came; there is
no bucket without documents.
-/

import DocStore.Call
import DocStore.Shape

set_option autoImplicit false

namespace DocStore

/-- What is done to a bucket. -/
inductive Bucket.Change
  /-- A document enters it. -/
  | add
  /-- A document leaves it. -/
  | remove
  deriving DecidableEq

namespace Bucket

/-- The bytes of a bucket. -/
def encode (documents : List String) : Bytes :=
  (Value.ofStrings documents).encoding

/-- The documents of a bucket. -/
def decode? (bytes : Bytes) : Option (List String) :=
  decodeStrings? bytes

/-- The write that makes a change to a bucket, given what is stored now; none when the bucket is as
it should be already.  A bucket that cannot be decoded is left alone. -/
def plan (change : Change) (document : String) :
    Option (Versioned Bytes) → Except Error (Option SlotWrite)
  | none =>
      match change with
      | .add => .ok (some (.create (encode [document])))
      | .remove => .ok none
  | some stored =>
      match decode? stored.value with
      | none => .error .decode
      | some documents =>
          match change with
          | .add =>
              if document ∈ documents then .ok none
              else .ok (some (.replace (encode (documents ++ [document])) stored.counter))
          | .remove =>
              if document ∈ documents then
                match documents.erase document with
                | [] => .ok (some (.erase stored.counter))
                | left => .ok (some (.replace (encode left) stored.counter))
              else .ok none

end Bucket

/-- A change of a bucket that is under way. -/
structure BucketEdit where
  /-- The index. -/
  index : Index
  /-- The key of the bucket. -/
  indexKey : Bytes
  /-- What is done. -/
  change : Bucket.Change
  /-- The document that enters or leaves. -/
  document : String
  /-- The attempts so far. -/
  attempts : Attempts
  /-- The write that is waited for; none while the bucket is read. -/
  write : Option SlotWrite

namespace BucketEdit

/-- Begins an attempt by reading the bucket. -/
def again (edit : BucketEdit) : Progress BucketEdit (Except Error Unit) :=
  match edit.attempts.begin with
  | .ok attempts => .waiting { edit with attempts, write := none }
  | .error e => .finished (.error e)

/-- Begins a change of a bucket. -/
def start (index : Index) (indexKey : Bytes) (change : Bucket.Change) (document : String) :
    Progress BucketEdit (Except Error Unit) :=
  again ⟨index, indexKey, change, document, index.retry.attempts indexKey, none⟩

/-- Goes on after a write: a lost one starts over. -/
def written (edit : BucketEdit) : Except Error Unit → Progress BucketEdit (Except Error Unit)
  | .error .swapMismatch => edit.again
  | result => .finished result

instance : Task BucketEdit (Except Error Unit) where
  call edit :=
    match edit.write with
    | none => .get edit.index.buckets edit.indexKey
    | some write => write.call edit.index.buckets edit.indexKey
  resume edit reply :=
    match edit.write, reply with
    | none, .document (.error e) => .finished (.error e)
    | none, .document (.ok stored) =>
        match Bucket.plan edit.change edit.document stored with
        | .error e => .finished (.error e)
        | .ok none => .finished (.ok ())
        | .ok (some write) => .waiting { edit with write := some write }
    | some _, .counter result => edit.written (result.map fun _ => ())
    | some _, .done result => edit.written result
    | _, _ => .waiting edit

end BucketEdit

end DocStore
