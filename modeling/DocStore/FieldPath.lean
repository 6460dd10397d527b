/-
Paths to fields inside documents.

* `FieldPath.Segment`, `FieldPath` — a member of an object or an item of an array, and a way down
  from the top of a document;
* `FieldPath.toString` — the written form of a path;
* `FieldPath.extract` — the values that a path finds in a JSON tree.

A path fans out: a key segment that meets an array is tried on every item, and an array at the end
of the path counts as its items.  An index segment takes one item and nothing else.
-/

import DocStore.Json

set_option autoImplicit false

namespace DocStore

/-- One step of a path. -/
inductive FieldPath.Segment
  /-- The member of an object with this key. -/
  | key (name : String)
  /-- The item of an array at this position, the first one being 0. -/
  | index (position : Nat)
  deriving DecidableEq

/-- A way down from the top of a document; the empty path is the document itself. -/
structure FieldPath where
  /-- The steps, from the top. -/
  segments : List FieldPath.Segment
  deriving DecidableEq

namespace FieldPath

/-- The path to the document itself. -/
def root : FieldPath :=
  ⟨[]⟩

/-- Whether a path has no step. -/
def isRoot (path : FieldPath) : Bool :=
  path.segments.isEmpty

/-! ### The written form -/

/-- A step as it is written after another one. -/
def Segment.chars : Segment → List Char
  | .key name => '.' :: name.toList
  | .index position => ['['] ++ Nat.toDigits 10 position ++ [']']

/-- The steps one after another; a dot at the very beginning is left out. -/
def chars (path : FieldPath) : List Char :=
  match path.segments.flatMap Segment.chars with
  | '.' :: rest => rest
  | written => written

/-- A step as text. -/
def Segment.toString (segment : Segment) : String :=
  String.ofList segment.chars

/-- A path as text. -/
def toString (path : FieldPath) : String :=
  String.ofList path.chars

/-! ### Finding values -/

mutual

/-- What `next` finds below the member with a key; an array is searched item by item. -/
def findMember (name : String) (next : Json → List Json) : Json → List Json
  | .object members =>
      match Json.member? name members with
      | some value => next value
      | none => []
  | .array items => findMemberInItems name next items
  | _ => []

/-- What `next` finds below the members with a key of some items. -/
def findMemberInItems (name : String) (next : Json → List Json) : List Json → List Json
  | [] => []
  | item :: rest => findMember name next item ++ findMemberInItems name next rest

end

/-- What `next` finds below the item of an array at a position. -/
def findItem (position : Nat) (next : Json → List Json) : Json → List Json
  | .array items =>
      match items[position]? with
      | some item => next item
      | none => []
  | _ => []

/-- What a path ends in: the items of an array, or the tree itself. -/
def ending : Json → List Json
  | .array items => items
  | tree => [tree]

/-- The values that some steps find below a tree. -/
def find : (segments : List Segment) → Json → List Json
  | [] => ending
  | .key name :: rest => findMember name (find rest)
  | .index position :: rest => findItem position (find rest)

/-- The values that a path finds in a document, in document order. -/
def extract (path : FieldPath) (document : Json) : List Json :=
  find path.segments document

end FieldPath

end DocStore
