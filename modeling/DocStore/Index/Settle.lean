/-
Settling: making one membership of a bucket right.

* `Settling` — the operation: read the document, add it to the bucket or remove it as its present
  value demands, and read it again; if it was written meanwhile, start over;
* `SettleQueue` — several of them, one after another, whatever becomes of each.
-/

import DocStore.Index.Bucket
import DocStore.IndexDiff

set_option autoImplicit false

namespace DocStore

/-- One document and one bucket. -/
structure Membership where
  /-- The index. -/
  index : Index
  /-- The key of the bucket. -/
  indexKey : Bytes
  /-- The document. -/
  document : String

/-- Whether a document, if there is one, belongs into a bucket. -/
def Membership.wanted (m : Membership) : Option (Versioned Bytes) → Bool
  | some stored =>
      (m.index.path.extractEncoded stored.value).any fun value => value.indexKey == m.indexKey
  | none => false

/-- What a settling is in the middle of. -/
inductive Settling.Stage
  /-- The document is read. -/
  | before
  /-- The bucket is changed; the document was at this counter. -/
  | editing (seen : Option Counter) (edit : BucketEdit)
  /-- The document is read again; it was at this counter before. -/
  | after (seen : Option Counter)

/-- A membership that is being made right. -/
structure Settling where
  /-- The membership. -/
  membership : Membership
  /-- The attempts so far. -/
  attempts : Attempts
  /-- What is under way. -/
  stage : Settling.Stage

namespace Settling

/-- Begins an attempt by reading the document. -/
def again (s : Settling) : Progress Settling (Except Error Unit) :=
  match s.attempts.begin with
  | .ok attempts => .waiting { s with attempts, stage := .before }
  | .error e => .finished (.error e)

/-- Begins to make a membership right. -/
def start (m : Membership) : Progress Settling (Except Error Unit) :=
  again ⟨m, m.index.retry.attempts m.indexKey, .before⟩

/-- Goes on with the bucket. -/
def edited (s : Settling) (seen : Option Counter) :
    Progress BucketEdit (Except Error Unit) → Progress Settling (Except Error Unit)
  | .waiting edit => .waiting { s with stage := .editing seen edit }
  | .finished (.ok ()) => .waiting { s with stage := .after seen }
  | .finished (.error e) => .finished (.error e)

/-- The key of the document. -/
def documentKey (s : Settling) : Bytes :=
  Utf8.encode s.membership.document

instance : Task Settling (Except Error Unit) where
  call s :=
    match s.stage with
    | .editing _ edit => Task.call edit
    | _ => .get s.membership.index.documents s.documentKey
  resume s reply :=
    match s.stage, reply with
    | .before, .document (.error e) => .finished (.error e)
    | .before, .document (.ok stored) =>
        let m := s.membership
        let change := if m.wanted stored then .add else .remove
        s.edited (stored.map Versioned.counter)
          (BucketEdit.start m.index m.indexKey change m.document)
    | .editing seen edit, reply => s.edited seen (Task.resume edit reply)
    | .after _, .document (.error e) => .finished (.error e)
    | .after seen, .document (.ok stored) =>
        if stored.map Versioned.counter = seen then .finished (.ok ()) else s.again
    | _, _ => .waiting s

end Settling

/-- Memberships that are made right one after another. -/
structure SettleQueue where
  /-- The one under way. -/
  current : Settling
  /-- Those to come. -/
  rest : List Membership

namespace SettleQueue

/-- Begins with the first membership that has an attempt. -/
def start : List Membership → Progress SettleQueue Unit
  | [] => .finished ()
  | m :: rest =>
      match Settling.start m with
      | .waiting current => .waiting ⟨current, rest⟩
      | .finished _ => start rest

instance : Task SettleQueue Unit where
  call queue := Task.call queue.current
  resume queue reply :=
    match Task.resume queue.current reply with
    | .waiting current => .waiting { queue with current }
    | .finished _ => start queue.rest

end SettleQueue

end DocStore
