/-
Values, as programs hand them to the store.

* `Value` — what can be written into a document or asked of an index: the scalars in all their
  widths, byte strings, arrays, and maps with any keys in any order;
* `Value.toJson?` — the JSON tree of a value, which is what an index key is made of;
* `Json.toValue` — a JSON tree as a value.

In a JSON tree a NaN or an infinity is null, a short float is widened, a byte string is an array of
its bytes, and a map key must have a text: a string is its own, integers, truth values and finite
floats are written as JSON writes them.
-/

import DocStore.Json.Text

set_option autoImplicit false

namespace DocStore

/-- A value to be stored or asked for. -/
inductive Value
  | null
  | bool (b : Bool)
  | int (n : Integer)
  | float32 (x : Binary32)
  | float64 (x : Binary64)
  | string (s : String)
  | bytes (b : Bytes)
  | array (items : List Value)
  /-- The entries in the order in which they are written; keys may repeat. -/
  | map (entries : List (Value × Value))
  /-- A value that refuses to be written. -/
  | refused
  deriving Inhabited

namespace Json

/-- The tree of a float: null for what JSON cannot write. -/
def ofBinary64 (x : Binary64) : Json :=
  match x.finite? with
  | some x => .number (.float x)
  | none => .null

/-- The tree of a byte string: its bytes as an array of integers. -/
def ofBytes (bytes : Bytes) : Json :=
  .array (bytes.map fun b => .number (.int (.ofUInt64 b.toUInt64)))

mutual

/-- A tree as a value. -/
def toValue : Json → Value
  | .null => .null
  | .bool b => .bool b
  | .number (.int n) => .int n
  | .number (.float x) => .float64 x.val
  | .string s => .string s
  | .array items => .array (itemsToValues items)
  | .object members => .map (membersToEntries members)

/-- The items of an array as values. -/
def itemsToValues : List Json → List Value
  | [] => []
  | item :: rest => item.toValue :: itemsToValues rest

/-- The members of an object as entries of a map. -/
def membersToEntries : List (String × Json) → List (Value × Value)
  | [] => []
  | (key, value) :: rest => (.string key, value.toValue) :: membersToEntries rest

end

end Json

namespace Value

/-- The text that a map key has in a JSON tree. -/
def keyText? : Value → Option String
  | .string s => some s
  | .int n => some (String.ofList n.text)
  | .bool true => some "true"
  | .bool false => some "false"
  | .float64 x => if x.isFinite then some (String.ofList x.text) else none
  | .float32 x => if x.isFinite then some (String.ofList x.text) else none
  | _ => none

mutual

/-- The JSON tree of a value, or `none` when a part of it refuses to be written or a map key has no
text. -/
def toJson? : Value → Option Json
  | .null => some .null
  | .bool b => some (.bool b)
  | .int n => some (.number (.int n))
  | .float32 x => some (.ofBinary64 x.widen)
  | .float64 x => some (.ofBinary64 x)
  | .string s => some (.string s)
  | .bytes b => some (.ofBytes b)
  | .array items => (itemsToJson? items).map .array
  | .map entries => (entriesToMembers? entries).map .ofMembers
  | .refused => none

/-- The trees of the items of an array. -/
def itemsToJson? : List Value → Option (List Json)
  | [] => some []
  | item :: rest =>
      match item.toJson?, itemsToJson? rest with
      | some item, some rest => some (item :: rest)
      | _, _ => none

/-- The members that the entries of a map become, in the order of the entries. -/
def entriesToMembers? : List (Value × Value) → Option (List (String × Json))
  | [] => some []
  | (key, value) :: rest =>
      match key.keyText?, value.toJson?, entriesToMembers? rest with
      | some key, some value, some rest => some ((key, value) :: rest)
      | _, _, _ => none

end

mutual

/-- Whether no part of a value refuses to be written. -/
def writable : Value → Bool
  | .array items => itemsWritable items
  | .map entries => entriesWritable entries
  | .refused => false
  | _ => true

/-- Whether all items of an array can be written. -/
def itemsWritable : List Value → Bool
  | [] => true
  | item :: rest => item.writable && itemsWritable rest

/-- Whether all entries of a map can be written. -/
def entriesWritable : List (Value × Value) → Bool
  | [] => true
  | (key, value) :: rest => key.writable && value.writable && entriesWritable rest

end

end Value

end DocStore
