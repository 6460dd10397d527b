/-
Lists of texts survive being written and read.

A bucket is stored as a MessagePack array of strings.  The format counts the bytes of a string and
the items of an array in at most 32 bits, and a writer that is given more cuts the count off; this
module shows that up to there nothing is lost.

* `Packed.readHead?_arrayHeader`, `Packed.readHead?_string` — a header is read back, whatever form
  it was written in;
* `decodeStrings?_encoding` — **a list of texts is read back from its bytes**;
* `decodeStrings?_encoding_of_length` — the bound is sharp: a list of `2 ^ 32` texts is written
  with the header of the empty list.
-/

import DocStore.Shape
import Mathlib.Data.List.Basic

set_option autoImplicit false

namespace DocStore

namespace Packed

/-! ### Headers -/

/-- A number that fits its width is read back. -/
theorem readNat?_bigEndian {width n : Nat} (rest : Bytes) (h : n < Nat.pow 256 width) :
    readNat? width (Bytes.bigEndian width n ++ rest) = some (n, rest) := by
  have back : Bytes.toNat (Bytes.bigEndian width n) = n := by
    rw [Bytes.toNat_bigEndian, Nat.mod_eq_of_lt h]
  rw [readNat?, Bytes.split?_append rest (Bytes.length_bigEndian width n), Option.map_some]
  simp only [back]

/-- A header of a container with a count of fixed width is read back. -/
theorem readContainer?_bigEndian (make : Nat → Head) {width n : Nat} (rest : Bytes)
    (h : n < Nat.pow 256 width) :
    readContainer? make width (Bytes.bigEndian width n ++ rest) = some (make n, rest) := by
  rw [readContainer?, readNat?_bigEndian rest h, Option.map_some]

/-- A payload with a count of fixed width in front is read back. -/
theorem readSized?_bigEndian (make : Bytes → Packed) {width : Nat} (raw rest : Bytes)
    (h : raw.length < Nat.pow 256 width) :
    readSized? make width (Bytes.bigEndian width raw.length ++ (raw ++ rest))
      = some (.leaf (make raw), rest) := by
  rw [readSized?, readNat?_bigEndian _ h, Option.bind_some]
  simp only [readRaw?, Bytes.split?_append rest rfl, Option.map_some]

/-- The header of an array is read back as long as 32 bits hold its length. -/
theorem readHead?_arrayHeader {n : Nat} (rest : Bytes) (h : n < 0x100000000) :
    readHead? (MessagePack.arrayHeader n ++ rest) = some (.array n, rest) := by
  unfold MessagePack.arrayHeader
  split
  · have hb : (UInt8.ofNat (0x90 + n)).toNat = 0x90 + n := by simp; omega
    simp only [List.cons_append, List.nil_append, readHead?, hb]
    rw [if_neg (by omega), if_neg (by omega), if_pos (by omega), Nat.add_sub_cancel_left]
  · split
    · exact readContainer?_bigEndian .array rest (show n < Nat.pow 256 2 by simpa)
    · exact readContainer?_bigEndian .array rest (show n < Nat.pow 256 4 by simpa)

/-- One item more than 32 bits can count, and the header is that of the empty array: four bytes hold
the count only up to its remainder, which is zero. -/
theorem readHead?_arrayHeader_of_length (rest : Bytes) :
    readHead? (MessagePack.arrayHeader 0x100000000 ++ rest) = some (.array 0, rest) := by
  have header : MessagePack.arrayHeader 0x100000000 = 0xDD :: Bytes.bigEndian 4 0 := by decide
  rw [header]
  exact readContainer?_bigEndian .array rest (show 0 < Nat.pow 256 4 by simp)

/-- A string is read back as long as 32 bits hold the number of its bytes. -/
theorem readHead?_string {s : String} (rest : Bytes) (h : (Utf8.encode s).length < 0x100000000) :
    readHead? (MessagePack.string s ++ rest) = some (.leaf (.string (Utf8.encode s)), rest) := by
  unfold MessagePack.string
  generalize Utf8.encode s = raw at h ⊢
  unfold MessagePack.stringHeader
  rw [List.append_assoc]
  split
  · have hb : (UInt8.ofNat (0xA0 + raw.length)).toNat = 0xA0 + raw.length := by simp; omega
    simp only [List.cons_append, List.nil_append, readHead?, hb]
    rw [if_neg (by omega), if_neg (by omega), if_neg (by omega), if_pos (by omega),
      Nat.add_sub_cancel_left, readRaw?, Bytes.split?_append rest rfl, Option.map_some]
  · split
    · exact readSized?_bigEndian .string raw rest (show raw.length < Nat.pow 256 1 by simpa)
    · split
      · exact readSized?_bigEndian .string raw rest (show raw.length < Nat.pow 256 2 by simpa)
      · exact readSized?_bigEndian .string raw rest (show raw.length < Nat.pow 256 4 by simpa)

/-! ### Items -/

/-- A leaf is read at any number of levels. -/
theorem readNested?_leaf {levels : Nat} {input rest : Bytes} {value : Packed}
    (h : readHead? input = some (.leaf value, rest)) :
    readNested? levels input = some (value, rest) := by
  unfold readNested?
  simp only [h]

/-- Strings one after another are read back, in front of what follows them. -/
theorem readParts?_strings {levels : Nat} {strings : List String} (parts : List Packed)
    (rest : Bytes) (h : ∀ s ∈ strings, (Utf8.encode s).length < 0x100000000) :
    readParts? (readNested? levels) strings.length parts
        (Value.encodingOfItems (strings.map .string) ++ rest)
      = some (parts.reverse ++ strings.map fun s => .string (Utf8.encode s), rest) := by
  induction strings generalizing parts with
  | nil => simp [readParts?, Value.encodingOfItems]
  | cons s strings ih =>
      have hs := h s List.mem_cons_self
      have step : ∀ more, readNested? levels (MessagePack.string s ++ more)
          = some (.string (Utf8.encode s), more) :=
        fun more => readNested?_leaf (readHead?_string more hs)
      simp only [List.length_cons, List.map_cons, Value.encodingOfItems, Value.encoding,
        List.append_assoc, readParts?, step]
      rw [ih _ fun t ht => h t (List.mem_cons_of_mem s ht)]
      simp

/-- A list of texts is read back as an array of their bytes. -/
theorem read?_encoding_ofStrings {strings : List String} (few : strings.length < 0x100000000)
    (short : ∀ s ∈ strings, (Utf8.encode s).length < 0x100000000) :
    read? (Value.ofStrings strings).encoding
      = some (.array (strings.map fun s => .string (Utf8.encode s))) := by
  -- the array is the outermost of the levels that may be nested
  have items := @readParts?_strings 1022 _ [] [] short
  rw [List.append_nil] at items
  rw [Value.ofStrings, Value.encoding, List.length_map, read?, maxDepth, readNested?,
    readHead?_arrayHeader _ few]
  simp only [items, Option.map_some, List.reverse_nil, List.nil_append]

end Packed

/-! ### Lists of texts -/

/-- Byte strings of texts are texts. -/
theorem mapM_ofPacked?_string (strings : List String) :
    (strings.map fun s => Packed.string (Utf8.encode s)).mapM (Shape.string.ofPacked? ·)
      = some (strings.map Value.string) := by
  induction strings with
  | nil => rfl
  | cons s strings ih =>
      have hs : Shape.string.ofPacked? (.string (Utf8.encode s)) = some (.string s) := by
        simp [Shape.ofPacked?, Packed.text?]
      rw [List.map_cons, List.mapM_cons, ih, hs]
      rfl

/-- The texts of an array of texts. -/
theorem strings?_ofStrings (strings : List String) :
    (Value.ofStrings strings).strings? = some strings := by
  simp only [Value.ofStrings, Value.strings?]
  induction strings with
  | nil => rfl
  | cons s strings ih =>
      rw [List.map_cons, List.mapM_cons, ih]
      rfl

/-- **A list of texts is read back from its bytes.** -/
theorem decodeStrings?_encoding {strings : List String} (few : strings.length < 0x100000000)
    (short : ∀ s ∈ strings, (Utf8.encode s).length < 0x100000000) :
    decodeStrings? (Value.ofStrings strings).encoding = some strings := by
  rw [decodeStrings?, Shape.decode?, Packed.read?_encoding_ofStrings few short, Option.bind_some,
    Shape.ofPacked?, mapM_ofPacked?_string, Option.map_some, Option.bind_some]
  exact strings?_ofStrings strings

/-- The bound on the number of texts is sharp: one more, and the list is written with the header of
the empty list. -/
theorem decodeStrings?_encoding_of_length {strings : List String}
    (h : strings.length = 0x100000000) :
    decodeStrings? (Value.ofStrings strings).encoding = some [] := by
  rw [decodeStrings?, Shape.decode?, Packed.read?, Packed.maxDepth, Packed.readNested?,
    Value.ofStrings, Value.encoding, List.length_map, h, Packed.readHead?_arrayHeader_of_length]
  simp [Packed.readParts?, Shape.ofPacked?, Value.strings?]

end DocStore
