/-
What a change of a document means for the indexes.

* `Json.indexKeys` — the distinct keys under which a path files a document, in the order in which
  it finds them;
* `IndexDiff`, `IndexDiff.between` — the buckets that a document enters and those that it leaves
  when its bytes change.

Bytes that hold no JSON tree, and no bytes at all, are filed nowhere.
-/

import DocStore.FieldPath
import DocStore.IndexKey
import DocStore.Shape

set_option autoImplicit false

namespace DocStore

/-- The distinct keys under which a path files a document, in the order in which it finds them. -/
def Json.indexKeys (document : Json) (path : FieldPath) : List Bytes :=
  ((path.extract document).map Json.indexKey).eraseDups

/-- The values that a path finds in an encoded document. -/
def FieldPath.extractEncoded (path : FieldPath) (bytes : Bytes) : List Json :=
  match Json.decode? bytes with
  | some document => path.extract document
  | none => []

/-- The distinct keys under which a path files an encoded document. -/
def FieldPath.indexKeys (path : FieldPath) (bytes : Bytes) : List Bytes :=
  match Json.decode? bytes with
  | some document => document.indexKeys path
  | none => []

/-- One bucket of one index. -/
structure BucketId where
  /-- The name of the index. -/
  index : String
  /-- The key of the bucket. -/
  indexKey : Bytes
  deriving DecidableEq

/-- The buckets that a change of a document concerns. -/
structure IndexDiff where
  /-- The buckets that the document enters. -/
  additions : List BucketId
  /-- The buckets that the document leaves. -/
  removals : List BucketId
  deriving DecidableEq

namespace IndexDiff

/-- Whether no bucket is concerned. -/
def isEmpty (diff : IndexDiff) : Bool :=
  diff.additions.isEmpty && diff.removals.isEmpty

/-- The buckets of one index with the keys of `these` that are not among `those`. -/
def missing (index : String) (these those : List Bytes) : List BucketId :=
  (these.filter fun k => !those.contains k).map (BucketId.mk index)

/-- The buckets that a document enters and leaves when its bytes change from `old` to `new`, index
by index. -/
def between (old new : Bytes) (indexes : List (String × FieldPath)) : IndexDiff :=
  { additions := indexes.flatMap fun (name, path) =>
      missing name (path.indexKeys new) (path.indexKeys old)
    removals := indexes.flatMap fun (name, path) =>
      missing name (path.indexKeys old) (path.indexKeys new) }

end IndexDiff

end DocStore
