/-
The kinds of documents that a program can ask for.

* `Shape` — JSON trees, integers of a width, floats, truth values, strings, lists, optional values
  and records;
* `Packed.toJson?` — what was read, as a JSON tree;
* `Shape.ofPacked?` — what was read, as a value of a shape;
* `Shape.decode?`, `Json.decode?` — the same from bytes.

A JSON tree is read only from text: byte strings and extensions are refused as values, and so is
text that is not well-formed.  The first key of a map tells that it is an object, and only a string
can tell so; each later key is a text in either form, a string or a byte string.  Every other shape
takes its numbers in any form that holds them.  A list is read from an array, or from a byte string
as the list of its bytes, which are numbers: an empty one is the empty list of any shape.  A record
is read from a map, whose unknown keys are ignored, or from an array of its fields.
-/

import DocStore.MessagePack.Encoding
import DocStore.MessagePack.Packed

set_option autoImplicit false

namespace DocStore

/-- A kind of document. -/
inductive Shape
  /-- A JSON tree. -/
  | json
  /-- An integer between two bounds, both included. -/
  | integer (least greatest : Int)
  /-- A float, or an integer rounded to one. -/
  | float
  | bool
  | string
  /-- A list of values of one shape. -/
  | list (item : Shape)
  /-- A value or nil. -/
  | optional (value : Shape)
  /-- A record with these fields, in this order. -/
  | record (fields : List (String × Shape))
  deriving Inhabited

namespace Packed

/-! ### Texts -/

/-- The text that was read, as a string or as a byte string. -/
def text? : Packed → Option String
  | .string raw => Utf8.decode? raw
  | .bytes raw => Utf8.decode? raw
  | _ => none

/-! ### JSON trees -/

/-- Whether the first key of a map is a string, as the first key of a JSON object has to be. -/
def opensWithString : List (Packed × Packed) → Bool
  | [] => true
  | (.string _, _) :: _ => true
  | _ => false

mutual

/-- What was read, as a JSON tree. -/
def toJson? : Packed → Option Json
  | .nil => some .null
  | .bool b => some (.bool b)
  | .unsigned n => some (.number (.int (.ofUInt64 n)))
  | .signed n => some (.number (.int (.ofInt64 n)))
  | .float32 x => some (.ofBinary64 x.widen)
  | .float64 x => some (.ofBinary64 x)
  | .string raw => (Utf8.decode? raw).map .string
  | .bytes _ => none
  | .extension _ _ => none
  | .array items => (itemsToJson? items).map .array
  | .map entries =>
      if opensWithString entries then (entriesToMembers? entries).map .ofMembers else none

/-- The trees of the items of an array. -/
def itemsToJson? : List Packed → Option (List Json)
  | [] => some []
  | item :: rest =>
      match item.toJson?, itemsToJson? rest with
      | some item, some rest => some (item :: rest)
      | _, _ => none

/-- The members that the entries of a map become. -/
def entriesToMembers? : List (Packed × Packed) → Option (List (String × Json))
  | [] => some []
  | (key, value) :: rest =>
      match key.text?, value.toJson?, entriesToMembers? rest with
      | some key, some value, some rest => some ((key, value) :: rest)
      | _, _, _ => none

end

/-! ### Scalars -/

/-- The integer that was read, whatever its form. -/
def integer? : Packed → Option Integer
  | .unsigned n => some (.ofUInt64 n)
  | .signed n => some (.ofInt64 n)
  | _ => none

/-- The float that was read, or the integer rounded to one. -/
def float? : Packed → Option Binary64
  | .float64 x => some x
  | .float32 x => some x.widen
  | p => p.integer?.map .ofInteger

/-! ### Fields of a record -/

/-- Whether a map key can name a field at all: by its text, or by its position. -/
def isFieldKey : Packed → Bool
  | .string _ => true
  | .bytes _ => true
  | .unsigned _ => true
  | _ => false

/-- Whether a map key names the field with this name at this position. -/
def namesField (name : String) (position : Nat) : Packed → Bool
  | .string raw => raw == Utf8.encode name
  | .bytes raw => raw == Utf8.encode name
  | .unsigned n => n.toNat == position
  | _ => false

end Packed

namespace Shape

/-! ### Reading at a shape -/

mutual

/-- What was read, as a value of a shape; a record becomes a map from its field names, in their
order. -/
def ofPacked? : Shape → Packed → Option Value
  | .json, p => p.toJson?.map Json.toValue
  | .integer least greatest, p =>
      match p.integer? with
      | some n => if least ≤ n.val ∧ n.val ≤ greatest then some (.int n) else none
      | none => none
  | .float, p => p.float?.map .float64
  | .bool, .bool b => some (.bool b)
  | .string, p => p.text?.map .string
  | .list item, .array items => (items.mapM (item.ofPacked? ·)).map .array
  | .list item, .bytes raw =>
      (raw.mapM fun b => item.ofPacked? (.unsigned b.toUInt64)).map .array
  | .optional _, .nil => some .null
  | .optional value, p => value.ofPacked? p
  | .record fields, .array items => (fieldsOfItems? fields items).map .map
  | .record fields, .map entries =>
      if entries.all fun entry => entry.1.isFieldKey then
        (fieldsOfEntries? fields 0 entries).map .map
      else none
  | _, _ => none

/-- The fields of a record from as many items. -/
def fieldsOfItems? : List (String × Shape) → List Packed → Option (List (Value × Value))
  | [], [] => some []
  | (name, shape) :: fields, item :: items =>
      match shape.ofPacked? item, fieldsOfItems? fields items with
      | some value, some rest => some ((.string name, value) :: rest)
      | _, _ => none
  | _, _ => none

/-- The fields of a record, from the given position on, each from the one entry that names it. -/
def fieldsOfEntries? :
    List (String × Shape) → Nat → List (Packed × Packed) → Option (List (Value × Value))
  | [], _, _ => some []
  | (name, shape) :: fields, position, entries =>
      match entries.filter fun entry => entry.1.namesField name position with
      | [(_, p)] =>
          match shape.ofPacked? p, fieldsOfEntries? fields (position + 1) entries with
          | some value, some rest => some ((.string name, value) :: rest)
          | _, _ => none
      | _ => none

end

/-- The first value of a byte string as a value of a shape; the bytes after it are ignored. -/
def decode? (shape : Shape) (bytes : Bytes) : Option Value :=
  (Packed.read? bytes).bind shape.ofPacked?

end Shape

/-- The JSON tree that a document holds: none for no bytes and for bytes that are no JSON tree. -/
def Json.decode? (bytes : Bytes) : Option Json :=
  (Packed.read? bytes).bind Packed.toJson?

/-- The texts of a list of strings. -/
def Value.strings? : Value → Option (List String)
  | .array items => items.mapM fun
      | .string s => some s
      | _ => none
  | _ => none

/-- The list of strings that a byte string holds. -/
def decodeStrings? (bytes : Bytes) : Option (List String) :=
  ((Shape.list .string).decode? bytes).bind Value.strings?

end DocStore
