/-
Index keys: the byte string under which an index files a value.

* `Number.integer?` — the integer that a number equals, if it fits 64 bits;
* `Json.indexKey` — the key of a JSON tree;
* `Value.indexKey?` — the key of a value, through its JSON tree.

The first byte is the class of the value: null, truth values, integers, integers that only an
unsigned word holds, floats, strings, arrays, objects.  What follows orders the values of the class
by their bytes.  An integer and a float that are equal as numbers have the same key; arrays and
objects are filed under their compact text.
-/

import DocStore.Text.Utf8
import DocStore.Value

set_option autoImplicit false

namespace DocStore

/-- The integer that a number equals, if it equals one that fits 64 bits. -/
def Number.integer? : Number → Option Integer
  | .int n => some n
  | .float x => x.val.integer?

namespace IndexKey

/-- The key of an integer.  One that fits a signed word is written with its sign bit flipped, so
that negative ones come first. -/
def ofInteger (n : Integer) : Bytes :=
  if n.val < 0x8000000000000000 then 0x02 :: Bytes.bigEndian 8 (n.val + 0x8000000000000000).toNat
  else 0x03 :: Bytes.bigEndian 8 n.val.toNat

/-- The word of a float, changed so that the order of the words is that of the numbers: a negative
one is inverted, the sign bit of another one is set. -/
def orderedBits (x : Binary64) : Nat :=
  if x.negative then 0xFFFFFFFFFFFFFFFF - x.bits.toNat else x.bits.toNat + 0x8000000000000000

/-- The key of a number. -/
def ofNumber (n : Number) : Bytes :=
  match n.integer?, n with
  | some i, _ => ofInteger i
  | none, .float x => 0x04 :: Bytes.bigEndian 8 (orderedBits x.val)
  | none, .int i => ofInteger i

end IndexKey

/-- The key under which an index files a JSON tree. -/
def Json.indexKey : Json → Bytes
  | .null => [0x00]
  | .bool b => [0x01, if b then 1 else 0]
  | .number n => IndexKey.ofNumber n
  | .string s => 0x05 :: Utf8.encode s
  | .array items => 0x06 :: Utf8.encode (String.ofList (Json.array items).text)
  | .object members => 0x07 :: Utf8.encode (String.ofList (Json.object members).text)

/-- The key under which an index files a value, or `none` when the value has no JSON tree. -/
def Value.indexKey? (value : Value) : Option Bytes :=
  value.toJson?.map Json.indexKey

end DocStore
