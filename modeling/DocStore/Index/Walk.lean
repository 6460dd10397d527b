/-
Walking an index in the order of its keys.

* `IndexRange` — the buckets between two bounds, as they were when the range was opened, and the
  documents of the bucket under way;
* `Index.between`, `Index.all` — opening a range;
* `IndexPull`, `IndexRange.pull` — the operation that gives the next document, as it is stored at
  that moment; a document that is gone is passed over, and a bucket that cannot be decoded is one
  failure among the items.

Backwards, the buckets come by descending key and the documents of each from its end.
-/

import DocStore.Index.Query

set_option autoImplicit false

namespace DocStore

/-! ### Opening -/

/-- The documents of the buckets between two bounds. -/
structure IndexRange where
  /-- The buckets. -/
  buckets : Range
  /-- The documents of the bucket under way, the next one first. -/
  pending : List String
  /-- The store of the documents. -/
  documents : StoreId
  /-- Whether the buckets come by descending key. -/
  reverse : Bool

/-- A range of buckets that is being opened. -/
structure IndexOpening where
  /-- The index. -/
  index : Index
  /-- The opening of the range of buckets. -/
  opening : RangeOpening

namespace IndexOpening

/-- Goes on with the range of buckets. -/
def opened (index : Index) (reverse : Bool) :
    Progress RangeOpening (Except Error Range) →
      Progress IndexOpening (Except Error IndexRange) :=
  Progress.map (fun opening => ⟨index, opening⟩) fun result =>
    result.map fun buckets => ⟨buckets, [], index.documents, reverse⟩

instance : Task IndexOpening (Except Error IndexRange) where
  call o := Task.call o.opening
  resume o reply := opened o.index o.opening.reverse (Task.resume o.opening reply)

end IndexOpening

namespace Index

/-- The documents filed between two bounds on the index key, both included. -/
def between (index : Index) (lower upper : Bound) (reverse : Bool) :
    Progress IndexOpening (Except Error IndexRange) :=
  IndexOpening.opened index reverse (RangeOpening.start index.buckets lower upper reverse)

/-- All documents that are filed. -/
def all (index : Index) (reverse : Bool) : Progress IndexOpening (Except Error IndexRange) :=
  index.between .min .max reverse

end Index

/-! ### Pulling -/

/-- What the buckets of a range have next. -/
inductive IndexRange.NextBucket
  /-- A bucket with documents. -/
  | documents (first : String) (rest : List String) (buckets : Range)
  /-- A bucket that cannot be decoded. -/
  | undecodable (buckets : Range)
  /-- The end: the cursor is to be released. -/
  | ended (buckets : Range)
  /-- Nothing, as the range was closed before. -/
  | nothing

/-- The next bucket that is not an empty list, among so many. -/
def IndexRange.nextBucket (reverse : Bool) : (fuel : Nat) → Range → IndexRange.NextBucket
  | 0, buckets =>
      match buckets.pull with
      | .ended buckets => .ended buckets
      | _ => .nothing
  | fuel + 1, buckets =>
      match buckets.pull with
      | .ended buckets => .ended buckets
      | .nothing => .nothing
      | .entry e buckets =>
          match Bucket.decode? e.value with
          | none => .undecodable buckets
          | some keys =>
              match if reverse then keys.reverse else keys with
              | [] => nextBucket reverse fuel buckets
              | first :: rest => .documents first rest buckets

/-- What pulling the next document is in the middle of. -/
inductive IndexPull.Stage
  /-- A document is read. -/
  | document (key : String)
  /-- The cursor is released at the end. -/
  | releasing

/-- A range whose next document is being read. -/
structure IndexPull where
  /-- The range after that document. -/
  range : IndexRange
  /-- What is under way. -/
  stage : IndexPull.Stage

/-- What a pull gives: an entry or a failure, or nothing at the end; and the range after it. -/
abbrev IndexPull.Result := Option (Except Error Entry) × IndexRange

/-- Begins to pull the next document. -/
def IndexRange.pull (range : IndexRange) : Progress IndexPull IndexPull.Result :=
  match range.pending with
  | key :: rest => .waiting ⟨{ range with pending := rest }, .document key⟩
  | [] =>
      match nextBucket range.reverse range.buckets.size range.buckets with
      | .documents key rest buckets =>
          .waiting ⟨{ range with buckets, pending := rest }, .document key⟩
      | .undecodable buckets => .finished (some (.error .decode), { range with buckets })
      | .ended buckets => .waiting ⟨{ range with buckets }, .releasing⟩
      | .nothing => .finished (none, range)

namespace IndexPull

instance : Task IndexPull IndexPull.Result where
  call p :=
    match p.stage with
    | .document key => .get p.range.documents (Utf8.encode key)
    | .releasing => .release p.range.buckets.store
  resume p reply :=
    match p.stage, reply with
    | .document key, .document (.ok (some stored)) =>
        .finished (some (.ok (entryOf key stored)), p.range)
    | .document _, .document (.ok none) => p.range.pull
    | .document _, .document (.error e) => .finished (some (.error e), p.range)
    | .releasing, .done _ => .finished (none, p.range)
    | _, _ => .waiting p

end IndexPull

end DocStore
