/-
MessagePack read into a tree.

* `Packed` — what a byte string says, before it is known what kind of document is wanted;
* `Packed.read?` — the first value of a byte string, with the bytes after it.

The reader takes every form of every length, the shortest or not.  It recurses on the number of
levels that may still be opened: at most `Packed.maxDepth` of them may be nested.  An array and a
map open a level for their parts, and a value of an extension type opens one for its payload.
-/

import DocStore.Text.Utf8
import DocStore.Number.Binary64

set_option autoImplicit false

namespace DocStore

/-- What a MessagePack byte string says. -/
inductive Packed
  | nil
  | bool (b : Bool)
  /-- An integer in an unsigned form. -/
  | unsigned (n : UInt64)
  /-- An integer in a signed form. -/
  | signed (n : Int64)
  | float32 (x : Binary32)
  | float64 (x : Binary64)
  /-- A string; its bytes need not be well-formed text. -/
  | string (raw : Bytes)
  | bytes (raw : Bytes)
  /-- A value of an extension type. -/
  | extension (type : UInt8) (raw : Bytes)
  | array (items : List Packed)
  | map (entries : List (Packed × Packed))
  deriving Inhabited

namespace Packed

/-! ### Leaves and headers -/

/-- What the first bytes of a value say: all of it, or how many parts follow. -/
inductive Head
  /-- A value without parts. -/
  | leaf (value : Packed)
  /-- An array of so many items. -/
  | array (length : Nat)
  /-- A map of so many entries. -/
  | map (length : Nat)
  /-- A value of an extension type, with its payload. -/
  | extension (type : UInt8) (raw : Bytes)

/-- A number of fixed width, most significant byte first. -/
def readNat? (width : Nat) (input : Bytes) : Option (Nat × Bytes) :=
  (Bytes.split? width input).map fun (digits, rest) => (Bytes.toNat digits, rest)

/-- An integer in an unsigned form of the given width. -/
def readUnsigned? (width : Nat) (input : Bytes) : Option (Head × Bytes) :=
  (readNat? width input).map fun (n, rest) => (.leaf (.unsigned (UInt64.ofNat n)), rest)

/-- An integer in a signed form of the given width: the upper half of the numbers is negative. -/
def readSigned? (width : Nat) (input : Bytes) : Option (Head × Bytes) :=
  (readNat? width input).map fun (n, rest) =>
    let sign := Nat.pow 2 (8 * width - 1)
    let value : Int := if n < sign then n else (n : Int) - Nat.pow 2 (8 * width)
    (.leaf (.signed (Int64.ofInt value)), rest)

/-- A leaf with a payload of so many bytes. -/
def readRaw? (make : Bytes → Packed) (length : Nat) (input : Bytes) : Option (Head × Bytes) :=
  (Bytes.split? length input).map fun (raw, rest) => (.leaf (make raw), rest)

/-- A leaf whose length comes first, in the given width. -/
def readSized? (make : Bytes → Packed) (width : Nat) (input : Bytes) : Option (Head × Bytes) :=
  (readNat? width input).bind fun (length, rest) => readRaw? make length rest

/-- An extension with a payload of so many bytes, after one byte for its type. -/
def readExtension? (length : Nat) : Bytes → Option (Head × Bytes)
  | [] => none
  | type :: rest =>
      (Bytes.split? length rest).map fun (raw, rest) => (.extension type raw, rest)

/-- The header of a container whose length has the given width. -/
def readContainer? (make : Nat → Head) (width : Nat) (input : Bytes) : Option (Head × Bytes) :=
  (readNat? width input).map fun (length, rest) => (make length, rest)

/-- The first bytes of a value, up to the parts of a container. -/
def readHead? : Bytes → Option (Head × Bytes)
  | [] => none
  | b :: rest =>
      let n := b.toNat
      if n < 0x80 then some (.leaf (.unsigned (UInt64.ofNat n)), rest)
      else if n < 0x90 then some (.map (n - 0x80), rest)
      else if n < 0xA0 then some (.array (n - 0x90), rest)
      else if n < 0xC0 then readRaw? .string (n - 0xA0) rest
      else if 0xE0 ≤ n then some (.leaf (.signed (Int64.ofInt ((n : Int) - 256))), rest)
      else match n with
        | 0xC0 => some (.leaf .nil, rest)
        | 0xC2 => some (.leaf (.bool false), rest)
        | 0xC3 => some (.leaf (.bool true), rest)
        | 0xC4 => readSized? .bytes 1 rest
        | 0xC5 => readSized? .bytes 2 rest
        | 0xC6 => readSized? .bytes 4 rest
        | 0xC7 => (readNat? 1 rest).bind fun (length, rest) => readExtension? length rest
        | 0xC8 => (readNat? 2 rest).bind fun (length, rest) => readExtension? length rest
        | 0xC9 => (readNat? 4 rest).bind fun (length, rest) => readExtension? length rest
        | 0xCA => (readNat? 4 rest).map fun (n, rest) => (.leaf (.float32 ⟨UInt32.ofNat n⟩), rest)
        | 0xCB => (readNat? 8 rest).map fun (n, rest) => (.leaf (.float64 ⟨UInt64.ofNat n⟩), rest)
        | 0xCC => readUnsigned? 1 rest
        | 0xCD => readUnsigned? 2 rest
        | 0xCE => readUnsigned? 4 rest
        | 0xCF => readUnsigned? 8 rest
        | 0xD0 => readSigned? 1 rest
        | 0xD1 => readSigned? 2 rest
        | 0xD2 => readSigned? 4 rest
        | 0xD3 => readSigned? 8 rest
        | 0xD4 => readExtension? 1 rest
        | 0xD5 => readExtension? 2 rest
        | 0xD6 => readExtension? 4 rest
        | 0xD7 => readExtension? 8 rest
        | 0xD8 => readExtension? 16 rest
        | 0xD9 => readSized? .string 1 rest
        | 0xDA => readSized? .string 2 rest
        | 0xDB => readSized? .string 4 rest
        | 0xDC => readContainer? .array 2 rest
        | 0xDD => readContainer? .array 4 rest
        | 0xDE => readContainer? .map 2 rest
        | 0xDF => readContainer? .map 4 rest
        | _ => none

/-! ### Trees -/

/-- Reads so many parts, one after another, in front of those already read. -/
def readParts? {α : Type} (read : Bytes → Option (α × Bytes)) :
    (count : Nat) → (parts : List α) → Bytes → Option (List α × Bytes)
  | 0, parts, input => some (parts.reverse, input)
  | count + 1, parts, input =>
      match read input with
      | some (part, rest) => readParts? read count (part :: parts) rest
      | none => none

/-- Reads a key and then its value. -/
def readPair? {α : Type} (read : Bytes → Option (α × Bytes)) (input : Bytes) :
    Option ((α × α) × Bytes) :=
  match read input with
  | none => none
  | some (key, rest) => (read rest).map fun (value, rest) => ((key, value), rest)

/-- The first value of a byte string and the bytes after it, if no more than so many levels are
open at any place. -/
def readNested? : (levels : Nat) → Bytes → Option (Packed × Bytes)
  | levels, input =>
      match readHead? input with
      | none => none
      | some (.leaf value, rest) => some (value, rest)
      | some (.array length, rest) =>
          match levels with
          | 0 => none
          | levels + 1 =>
              (readParts? (readNested? levels) length [] rest).map fun (items, rest) =>
                (.array items, rest)
      | some (.map length, rest) =>
          match levels with
          | 0 => none
          | levels + 1 =>
              let readEntry? := readPair? (readNested? levels)
              (readParts? readEntry? length [] rest).map fun (entries, rest) =>
                (.map entries, rest)
      | some (.extension type raw, rest) =>
          match levels with
          | 0 => none
          | _ + 1 => some (.extension type raw, rest)

/-- How many levels may be nested in each other. -/
def maxDepth : Nat :=
  1023

/-- The first value of a byte string; the bytes after it are ignored. -/
def read? (input : Bytes) : Option Packed :=
  (readNested? maxDepth input).map (·.1)

end Packed

end DocStore
