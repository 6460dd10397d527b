/-
Values survive being written and read.

Whatever a value is made of, its bytes say what it says: the reader gives back its parts, in the
forms in which they were written.  There are two limits.  The format counts with 32 bits, and the
reader gives up where more levels are nested than it may open; it does so at every place, so that a
value that is nested too deeply cannot be read at all.

* `Value.depth` — how deeply arrays and maps are nested;
* `Value.fits` — all lengths fit 32 bits;
* `Value.packed` — what the bytes of a value say;
* `Packed.readHead?_integer`, `Packed.readHead?_mapHeader`, `Packed.readHead?_bytes` — what was
  written first is read back;
* `Packed.readNested?_encoding` — a value is read back in front of what follows it, if enough levels
  may be opened, and else not at all;
* `Packed.read?_encoding` — **a value is read back from its bytes exactly if it is not nested too
  deeply.**
-/

import DocStore.Proofs.MessagePack.Strings

set_option autoImplicit false

namespace DocStore

namespace Value

mutual

/-- How many arrays and maps are nested in each other at the deepest place. -/
def depth : Value → Nat
  | .array items => depthOfItems items + 1
  | .map entries => depthOfEntries entries + 1
  | _ => 0

/-- The greatest depth of some items. -/
def depthOfItems : List Value → Nat
  | [] => 0
  | item :: rest => max item.depth (depthOfItems rest)

/-- The greatest depth of some keys and values. -/
def depthOfEntries : List (Value × Value) → Nat
  | [] => 0
  | (key, value) :: rest => max key.depth (max value.depth (depthOfEntries rest))

end

/-- Whether 32 bits hold a length. -/
def countable (length : Nat) : Bool :=
  length < 0x100000000

mutual

/-- Whether 32 bits hold the lengths of all strings, byte strings, arrays and maps. -/
def fits : Value → Bool
  | .string s => countable (Utf8.encode s).length
  | .bytes b => countable b.length
  | .array items => countable items.length && itemsFit items
  | .map entries => countable entries.length && entriesFit entries
  | _ => true

/-- Whether the lengths in some items fit. -/
def itemsFit : List Value → Bool
  | [] => true
  | item :: rest => item.fits && itemsFit rest

/-- Whether the lengths in some keys and values fit. -/
def entriesFit : List (Value × Value) → Bool
  | [] => true
  | (key, value) :: rest => key.fits && value.fits && entriesFit rest

end

/-- What the bytes of an integer say: a non-negative one is unsigned. -/
def packedInteger (n : Integer) : Packed :=
  if 0 ≤ n.val then .unsigned (UInt64.ofNat n.val.toNat) else .signed (Int64.ofInt n.val)

mutual

/-- What the bytes of a value say; a part that refuses to be written has none. -/
def packed : Value → Packed
  | .null => .nil
  | .bool b => .bool b
  | .int n => packedInteger n
  | .float32 x => .float32 x
  | .float64 x => .float64 x
  | .string s => .string (Utf8.encode s)
  | .bytes b => .bytes b
  | .array items => .array (packedItems items)
  | .map entries => .map (packedEntries entries)
  | .refused => .nil

/-- What the bytes of some items say. -/
def packedItems : List Value → List Packed
  | [] => []
  | item :: rest => item.packed :: packedItems rest

/-- What the bytes of some entries say. -/
def packedEntries : List (Value × Value) → List (Packed × Packed)
  | [] => []
  | (key, value) :: rest => (key.packed, value.packed) :: packedEntries rest

end

end Value

namespace Packed

/-! ### Headers -/

/-- Of a number that does not fit its width, the rest is read back. -/
theorem readNat?_bigEndian_mod (width n : Nat) (rest : Bytes) :
    readNat? width (Bytes.bigEndian width n ++ rest) = some (n % Nat.pow 256 width, rest) := by
  rw [readNat?, Bytes.split?_append rest (Bytes.length_bigEndian width n), Option.map_some]
  simp only [Bytes.toNat_bigEndian]

/-- The header of a map is read back as long as 32 bits hold its length. -/
theorem readHead?_mapHeader {n : Nat} (rest : Bytes) (h : n < 0x100000000) :
    readHead? (MessagePack.mapHeader n ++ rest) = some (.map n, rest) := by
  unfold MessagePack.mapHeader
  split
  · have hb : (UInt8.ofNat (0x80 + n)).toNat = 0x80 + n := by simp; omega
    simp only [List.cons_append, List.nil_append, readHead?, hb]
    rw [if_neg (by omega), if_pos (by omega), Nat.add_sub_cancel_left]
  · split
    · exact readContainer?_bigEndian .map rest (show n < Nat.pow 256 2 by simpa)
    · exact readContainer?_bigEndian .map rest (show n < Nat.pow 256 4 by simpa)

/-- A byte string is read back as long as 32 bits hold the number of its bytes. -/
theorem readHead?_bytes {raw : Bytes} (rest : Bytes) (h : raw.length < 0x100000000) :
    readHead? (MessagePack.bytesHeader raw.length ++ raw ++ rest)
      = some (.leaf (.bytes raw), rest) := by
  unfold MessagePack.bytesHeader
  rw [List.append_assoc]
  split
  · exact readSized?_bigEndian .bytes raw rest (show raw.length < Nat.pow 256 1 by simpa)
  · split
    · exact readSized?_bigEndian .bytes raw rest (show raw.length < Nat.pow 256 2 by simpa)
    · exact readSized?_bigEndian .bytes raw rest (show raw.length < Nat.pow 256 4 by simpa)

/-- A non-negative integer is read back from the width that it fits. -/
theorem readUnsigned?_bigEndian {width n : Nat} (rest : Bytes) (h : n < Nat.pow 256 width) :
    readUnsigned? width (Bytes.bigEndian width n ++ rest)
      = some (.leaf (.unsigned (UInt64.ofNat n)), rest) := by
  rw [readUnsigned?, readNat?_bigEndian rest h, Option.map_some]

/-- A negative integer is read back from the width that it fits: the words of this width repeat in
those of 64 bits, and its own one is in the upper half of them. -/
theorem readSigned?_bigEndian (width : Nat) {n : Int} (rest : Bytes) (negative : n < 0)
    (h : -(Nat.pow 2 (8 * width - 1) : Int) ≤ n)
    (halves : Nat.pow 2 (8 * width) = 2 * Nat.pow 2 (8 * width - 1))
    (words : Nat.pow 256 width = Nat.pow 2 (8 * width))
    (repeats : Nat.pow 2 (8 * width) ∣ 0x10000000000000000) :
    readSigned? width (Bytes.bigEndian width (n + 0x10000000000000000).toNat ++ rest)
      = some (.leaf (.signed (Int64.ofInt n)), rest) := by
  have le := Nat.le_of_dvd (by omega) repeats
  obtain ⟨k, hk⟩ := repeats
  have word : (n + 0x10000000000000000).toNat % Nat.pow 256 width
      = (n + Nat.pow 2 (8 * width)).toNat := by
    rw [words]
    generalize Nat.pow 2 (8 * width) = count at *
    obtain ⟨k, rfl⟩ : ∃ j, k = j + 1 := ⟨k - 1, by cases k <;> omega⟩
    have split : (n + 0x10000000000000000).toNat = (n + count).toNat + count * k := by
      rw [Nat.mul_add, Nat.mul_one] at hk
      omega
    rw [split, Nat.add_mul_mod_self_left, Nat.mod_eq_of_lt (by omega)]
  rw [readSigned?, readNat?_bigEndian_mod, Option.map_some, word]
  generalize Nat.pow 2 (8 * width) = count at *
  generalize Nat.pow 2 (8 * width - 1) = half at *
  have upper : ¬ (n + count).toNat < half := by omega
  have value : ((n + count).toNat : Int) - count = n := by omega
  simp only [if_neg upper, value]

/-- **An integer is read back**, whatever form it was written in. -/
theorem readHead?_integer (n : Integer) (rest : Bytes) :
    readHead? (MessagePack.integer n ++ rest) = some (.leaf (Value.packedInteger n), rest) := by
  have lower := n.lower
  have upper := n.upper
  unfold MessagePack.integer Value.packedInteger
  by_cases sign : 0 ≤ n.val
  · rw [if_pos sign, if_pos sign]
    dsimp only
    split
    · have hb : (UInt8.ofNat n.val.toNat).toNat = n.val.toNat := by simp; omega
      simp only [List.cons_append, List.nil_append, readHead?, hb]
      rw [if_pos (by omega)]
    · split
      · exact readUnsigned?_bigEndian rest (show n.val.toNat < 0x100 by omega)
      · split
        · exact readUnsigned?_bigEndian rest (show n.val.toNat < 0x10000 by omega)
        · split
          · exact readUnsigned?_bigEndian rest (show n.val.toNat < 0x100000000 by omega)
          · exact readUnsigned?_bigEndian rest
              (show n.val.toNat < 0x10000000000000000 by omega)
  · rw [if_neg sign, if_neg sign]
    have negative : n.val < 0 := by omega
    dsimp only
    split
    · have hb : (UInt8.ofNat (n.val + 0x10000000000000000).toNat).toNat
          = (n.val + 256).toNat := by simp; omega
      simp only [Bytes.bigEndian, List.cons_append, List.nil_append, readHead?]
      simp only [show Nat.pow 256 0 = 1 from rfl, Nat.div_one, hb]
      rw [if_neg (by omega), if_neg (by omega), if_neg (by omega), if_neg (by omega),
        if_pos (by omega)]
      have value : ((n.val + 256).toNat : Int) - 256 = n.val := by omega
      rw [value]
    · split
      · exact readSigned?_bigEndian 1 rest negative (by simpa) rfl rfl (by decide)
      · split
        · exact readSigned?_bigEndian 2 rest negative (by simpa) rfl rfl (by decide)
        · split
          · exact readSigned?_bigEndian 4 rest negative (by simpa) rfl rfl (by decide)
          · exact readSigned?_bigEndian 8 rest negative (by simpa) rfl rfl (by decide)

/-- A float is read back. -/
theorem readHead?_float32 (x : Binary32) (rest : Bytes) :
    readHead? (0xCA :: Bytes.bigEndian 4 x.bits.toNat ++ rest)
      = some (.leaf (.float32 x), rest) := by
  have word := readNat?_bigEndian rest (show x.bits.toNat < Nat.pow 256 4 from x.bits.toNat_lt)
  change (readNat? 4 (Bytes.bigEndian 4 x.bits.toNat ++ rest)).map _ = _
  rw [word]
  simp only [Option.map_some, UInt32.ofNat_toNat]

theorem readHead?_float64 (x : Binary64) (rest : Bytes) :
    readHead? (0xCB :: Bytes.bigEndian 8 x.bits.toNat ++ rest)
      = some (.leaf (.float64 x), rest) := by
  have word := readNat?_bigEndian rest (show x.bits.toNat < Nat.pow 256 8 from x.bits.toNat_lt)
  change (readNat? 8 (Bytes.bigEndian 8 x.bits.toNat ++ rest)).map _ = _
  rw [word]
  simp only [Option.map_some, UInt64.ofNat_toNat]

/-! ### Trees -/

/-- An array is read if another level may be opened, and its items can be read. -/
theorem readNested?_array {levels length : Nat} {input rest : Bytes}
    (h : readHead? input = some (.array length, rest)) :
    readNested? (levels + 1) input
      = (readParts? (readNested? levels) length [] rest).map fun (items, rest) =>
        (.array items, rest) := by
  rw [readNested?]
  simp only [h]

theorem readNested?_map {levels length : Nat} {input rest : Bytes}
    (h : readHead? input = some (.map length, rest)) :
    readNested? (levels + 1) input
      = (readParts? (readPair? (readNested? levels)) length [] rest).map fun (entries, rest) =>
        (.map entries, rest) := by
  rw [readNested?]
  simp only [h]

mutual

/-- **A value is read back, in front of what follows it, if so many levels may be opened**, and else
not at all. -/
theorem readNested?_encoding (levels : Nat) (rest : Bytes) :
    (value : Value) → (writable : value.writable = true) → (fits : value.fits = true) →
      readNested? levels (value.encoding ++ rest)
        = if value.depth ≤ levels then some (value.packed, rest) else none
  | .null, _, _ => readNested?_leaf rfl
  | .bool false, _, _ => readNested?_leaf rfl
  | .bool true, _, _ => readNested?_leaf rfl
  | .int n, _, _ => readNested?_leaf (readHead?_integer n rest)
  | .float32 x, _, _ => readNested?_leaf (readHead?_float32 x rest)
  | .float64 x, _, _ => readNested?_leaf (readHead?_float64 x rest)
  | .string s, _, fits => readNested?_leaf (readHead?_string rest (of_decide_eq_true fits))
  | .bytes b, _, fits => readNested?_leaf (readHead?_bytes rest (of_decide_eq_true fits))
  | .array items, writable, fits => by
      rw [Value.fits, Bool.and_eq_true] at fits
      have head := readHead?_arrayHeader (Value.encodingOfItems items ++ rest)
        (of_decide_eq_true fits.1)
      rw [Value.encoding, List.append_assoc, Value.depth, Value.packed]
      cases levels with
      | zero =>
          rw [if_neg (by omega), readNested?]
          simp only [head]
      | succ levels =>
          rw [readNested?_array head, readParts?_items levels [] rest items writable fits.2]
          simp only [Nat.add_le_add_iff_right, List.reverse_nil, List.nil_append]
          split <;> rfl
  | .map entries, writable, fits => by
      rw [Value.fits, Bool.and_eq_true] at fits
      have head := readHead?_mapHeader (Value.encodingOfEntries entries ++ rest)
        (of_decide_eq_true fits.1)
      rw [Value.encoding, List.append_assoc, Value.depth, Value.packed]
      cases levels with
      | zero =>
          rw [if_neg (by omega), readNested?]
          simp only [head]
      | succ levels =>
          rw [readNested?_map head, readParts?_entries levels [] rest entries writable fits.2]
          simp only [Nat.add_le_add_iff_right, List.reverse_nil, List.nil_append]
          split <;> rfl

/-- Items are read back one after another, if all of them are. -/
theorem readParts?_items (levels : Nat) (parts : List Packed) (rest : Bytes) :
    (items : List Value) → (writable : Value.itemsWritable items = true) →
      (fits : Value.itemsFit items = true) →
      readParts? (readNested? levels) items.length parts (Value.encodingOfItems items ++ rest)
        = if Value.depthOfItems items ≤ levels
          then some (parts.reverse ++ Value.packedItems items, rest) else none
  | [], _, _ => by simp [readParts?, Value.encodingOfItems, Value.depthOfItems, Value.packedItems]
  | item :: items, writable, fits => by
      rw [Value.itemsWritable, Bool.and_eq_true] at writable
      rw [Value.itemsFit, Bool.and_eq_true] at fits
      rw [Value.encodingOfItems, List.append_assoc, List.length_cons, readParts?,
        readNested?_encoding levels _ item writable.1 fits.1, Value.depthOfItems]
      by_cases shallow : item.depth ≤ levels
      · simp only [Nat.max_le, shallow, true_and, if_true]
        rw [readParts?_items levels (item.packed :: parts) rest items writable.2 fits.2,
          List.reverse_cons, List.append_assoc]
        rfl
      · simp only [Nat.max_le, shallow, false_and, if_false]

/-- Entries are read back one after another, if all their keys and values are. -/
theorem readParts?_entries (levels : Nat) (parts : List (Packed × Packed)) (rest : Bytes) :
    (entries : List (Value × Value)) → (writable : Value.entriesWritable entries = true) →
      (fits : Value.entriesFit entries = true) →
      readParts? (readPair? (readNested? levels)) entries.length parts
          (Value.encodingOfEntries entries ++ rest)
        = if Value.depthOfEntries entries ≤ levels
          then some (parts.reverse ++ Value.packedEntries entries, rest) else none
  | [], _, _ => by
      simp [readParts?, Value.encodingOfEntries, Value.depthOfEntries, Value.packedEntries]
  | (key, value) :: entries, writable, fits => by
      rw [Value.entriesWritable, Bool.and_eq_true, Bool.and_eq_true] at writable
      rw [Value.entriesFit, Bool.and_eq_true, Bool.and_eq_true] at fits
      rw [Value.encodingOfEntries, List.append_assoc, List.append_assoc, List.length_cons,
        readParts?, readPair?, readNested?_encoding levels _ key writable.1.1 fits.1.1,
        Value.depthOfEntries]
      by_cases shallow : key.depth ≤ levels
      · simp only [Nat.max_le, shallow, true_and, if_true]
        rw [readNested?_encoding levels _ value writable.1.2 fits.1.2]
        by_cases low : value.depth ≤ levels
        · simp only [low, true_and, if_true, Option.map_some]
          rw [readParts?_entries levels ((key.packed, value.packed) :: parts) rest entries
              writable.2 fits.2, List.reverse_cons, List.append_assoc]
          rfl
        · simp only [low, false_and, if_false, Option.map_none]
      · simp only [Nat.max_le, shallow, false_and, if_false]

end

/-- **A value is read back from its bytes exactly if it is not nested too deeply.** -/
theorem read?_encoding {value : Value} (writable : value.writable = true)
    (fits : value.fits = true) :
    read? value.encoding = if value.depth ≤ maxDepth then some value.packed else none := by
  have nested := readNested?_encoding maxDepth [] value writable fits
  rw [List.append_nil] at nested
  rw [read?, nested]
  split <;> rfl

end Packed

end DocStore
