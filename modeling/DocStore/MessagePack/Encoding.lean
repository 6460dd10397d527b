/-
Values as MessagePack.

* `Value.encode?` — the encoding of a value, if no part of it refuses to be written;
* `Value.encoding` — the bytes of each part.

Each integer is written in the shortest form that holds it, a non-negative one always in an
unsigned form; the lengths of strings, byte strings, arrays and maps likewise.
-/

import DocStore.Text.Utf8
import DocStore.Value

set_option autoImplicit false

namespace DocStore

namespace MessagePack

/-! ### Headers -/

/-- An integer in the shortest form. -/
def integer (n : Integer) : Bytes :=
  if 0 ≤ n.val then
    let m := n.val.toNat
    if m < 128 then [UInt8.ofNat m]
    else if m < 0x100 then 0xCC :: Bytes.bigEndian 1 m
    else if m < 0x10000 then 0xCD :: Bytes.bigEndian 2 m
    else if m < 0x100000000 then 0xCE :: Bytes.bigEndian 4 m
    else 0xCF :: Bytes.bigEndian 8 m
  else
    let m := (n.val + 0x10000000000000000).toNat
    if -32 ≤ n.val then Bytes.bigEndian 1 m
    else if -0x80 ≤ n.val then 0xD0 :: Bytes.bigEndian 1 m
    else if -0x8000 ≤ n.val then 0xD1 :: Bytes.bigEndian 2 m
    else if -0x80000000 ≤ n.val then 0xD2 :: Bytes.bigEndian 4 m
    else 0xD3 :: Bytes.bigEndian 8 m

/-- The header of a string of so many bytes. -/
def stringHeader (length : Nat) : Bytes :=
  if length < 32 then [UInt8.ofNat (0xA0 + length)]
  else if length < 0x100 then 0xD9 :: Bytes.bigEndian 1 length
  else if length < 0x10000 then 0xDA :: Bytes.bigEndian 2 length
  else 0xDB :: Bytes.bigEndian 4 length

/-- The header of a byte string. -/
def bytesHeader (length : Nat) : Bytes :=
  if length < 0x100 then 0xC4 :: Bytes.bigEndian 1 length
  else if length < 0x10000 then 0xC5 :: Bytes.bigEndian 2 length
  else 0xC6 :: Bytes.bigEndian 4 length

/-- The header of an array of so many items. -/
def arrayHeader (length : Nat) : Bytes :=
  if length < 16 then [UInt8.ofNat (0x90 + length)]
  else if length < 0x10000 then 0xDC :: Bytes.bigEndian 2 length
  else 0xDD :: Bytes.bigEndian 4 length

/-- The header of a map of so many entries. -/
def mapHeader (length : Nat) : Bytes :=
  if length < 16 then [UInt8.ofNat (0x80 + length)]
  else if length < 0x10000 then 0xDE :: Bytes.bigEndian 2 length
  else 0xDF :: Bytes.bigEndian 4 length

/-- A string, with its header. -/
def string (s : String) : Bytes :=
  stringHeader (Utf8.encode s).length ++ Utf8.encode s

end MessagePack

namespace Value

/-! ### Values -/

mutual

/-- The bytes of a value; a part that refuses to be written has none. -/
def encoding : Value → Bytes
  | .null => [0xC0]
  | .bool false => [0xC2]
  | .bool true => [0xC3]
  | .int n => MessagePack.integer n
  | .float32 x => 0xCA :: Bytes.bigEndian 4 x.bits.toNat
  | .float64 x => 0xCB :: Bytes.bigEndian 8 x.bits.toNat
  | .string s => MessagePack.string s
  | .bytes b => MessagePack.bytesHeader b.length ++ b
  | .array items => MessagePack.arrayHeader items.length ++ encodingOfItems items
  | .map entries => MessagePack.mapHeader entries.length ++ encodingOfEntries entries
  | .refused => []

/-- The bytes of the items of an array. -/
def encodingOfItems : List Value → Bytes
  | [] => []
  | item :: rest => item.encoding ++ encodingOfItems rest

/-- The bytes of the entries of a map. -/
def encodingOfEntries : List (Value × Value) → Bytes
  | [] => []
  | (key, value) :: rest => key.encoding ++ (value.encoding ++ encodingOfEntries rest)

end

/-- The encoding of a value, or `none` when a part of it refuses to be written. -/
def encode? (value : Value) : Option Bytes :=
  if value.writable then some value.encoding else none

/-- The value that a list of strings is. -/
def ofStrings (strings : List String) : Value :=
  .array (strings.map .string)

end Value

end DocStore
