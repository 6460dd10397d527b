/-
Stored values and asked values have the same trees.

A value comes to an index in two ways: as a part of a document, which is read from its bytes, and as
what a query asks for, which becomes a JSON tree at once.  Where both give a tree it is the same
one, so that a document is filed under the key that a query for its value computes.

What is stored is a tree if it has no byte string in it, all its map keys are strings and it is not
nested too deeply; and it is one also where a map key that is not the first one of its map is a byte
string that holds text, which the reader takes for that text.  A query refuses such a map.

* `Value.isTree` — values that are trees, with these map keys;
* `Value.textKeys` — a value with text for the byte strings among its map keys;
* `Packed.toJson?_packed`, `Json.decode?_encoding` — the tree that is read from the bytes of a
  value;
* `Json.decode?_of_encode?` — **which values are read back as trees, and that the trees are those of
  the values;**
* `Json.decode?_of_bytesKey` — a map with a byte string for a key is read as a tree all the same.
-/

import DocStore.IndexKey
import DocStore.Proofs.MessagePack.Values

set_option autoImplicit false

namespace DocStore

namespace Value

/-! ### Values that are trees -/

/-- Whether a map key is a string. -/
def isString : Value → Bool
  | .string _ => true
  | _ => false

/-- Whether a map key is a string, or a byte string that holds text. -/
def isText : Value → Bool
  | .string _ => true
  | .bytes b => (Utf8.decode? b).isSome
  | _ => false

/-- Whether the first key of a map is a string. -/
def opensWithString : List (Value × Value) → Bool
  | [] => true
  | (key, _) :: _ => key.isString

mutual

/-- Whether there is no byte string in a value but for map keys, and every map begins with a string
and has only such keys. -/
def isTree (isKey : Value → Bool) : Value → Bool
  | .bytes _ => false
  | .array items => itemsAreTrees isKey items
  | .map entries => opensWithString entries && entriesAreTrees isKey entries
  | _ => true

/-- Whether the items of an array are trees. -/
def itemsAreTrees (isKey : Value → Bool) : List Value → Bool
  | [] => true
  | item :: rest => item.isTree isKey && itemsAreTrees isKey rest

/-- Whether the entries of a map have such keys, and values that are trees. -/
def entriesAreTrees (isKey : Value → Bool) : List (Value × Value) → Bool
  | [] => true
  | (key, value) :: rest => isKey key && value.isTree isKey && entriesAreTrees isKey rest

end

/-- A map key, with its text for a byte string. -/
def textKey : Value → Value
  | .bytes b =>
      match Utf8.decode? b with
      | some text => .string text
      | none => .bytes b
  | key => key

mutual

/-- A value with text for the byte strings among its map keys. -/
def textKeys : Value → Value
  | .array items => .array (itemsTextKeys items)
  | .map entries => .map (entriesTextKeys entries)
  | value => value

/-- Items with text for the byte strings among their map keys. -/
def itemsTextKeys : List Value → List Value
  | [] => []
  | item :: rest => item.textKeys :: itemsTextKeys rest

/-- Entries with text for the byte strings among their keys, and among those of their values. -/
def entriesTextKeys : List (Value × Value) → List (Value × Value)
  | [] => []
  | (key, value) :: rest => (key.textKey, value.textKeys) :: entriesTextKeys rest

end

theorem isText_of_isString {key : Value} (h : key.isString = true) : key.isText = true := by
  cases key <;> first | rfl | cases h

theorem textKey_of_isString {key : Value} (h : key.isString = true) : key.textKey = key := by
  cases key <;> first | rfl | cases h

mutual

/-- A tree whose keys are strings is also one whose keys are texts, and has no byte strings among
them. -/
theorem textKeys_of_isTree : (value : Value) → value.isTree isString = true →
    value.isTree isText = true ∧ value.textKeys = value
  | .null, _ => ⟨rfl, rfl⟩
  | .bool _, _ => ⟨rfl, rfl⟩
  | .int _, _ => ⟨rfl, rfl⟩
  | .float32 _, _ => ⟨rfl, rfl⟩
  | .float64 _, _ => ⟨rfl, rfl⟩
  | .string _, _ => ⟨rfl, rfl⟩
  | .refused, _ => ⟨rfl, rfl⟩
  | .array items, h => by
      obtain ⟨trees, same⟩ := itemsTextKeys_of_areTrees items h
      exact ⟨trees, congrArg Value.array same⟩
  | .map entries, h => by
      rw [isTree, Bool.and_eq_true] at h
      obtain ⟨trees, same⟩ := entriesTextKeys_of_areTrees entries h.2
      refine ⟨?_, congrArg Value.map same⟩
      rw [isTree, h.1, trees]
      rfl

theorem itemsTextKeys_of_areTrees : (items : List Value) → itemsAreTrees isString items = true →
    itemsAreTrees isText items = true ∧ itemsTextKeys items = items
  | [], _ => ⟨rfl, rfl⟩
  | item :: items, h => by
      rw [itemsAreTrees, Bool.and_eq_true] at h
      obtain ⟨tree, same⟩ := textKeys_of_isTree item h.1
      obtain ⟨trees, rest⟩ := itemsTextKeys_of_areTrees items h.2
      rw [itemsAreTrees, tree, trees, itemsTextKeys, same, rest]
      exact ⟨rfl, rfl⟩

theorem entriesTextKeys_of_areTrees : (entries : List (Value × Value)) →
    entriesAreTrees isString entries = true →
      entriesAreTrees isText entries = true ∧ entriesTextKeys entries = entries
  | [], _ => ⟨rfl, rfl⟩
  | (key, value) :: entries, h => by
      rw [entriesAreTrees, Bool.and_eq_true, Bool.and_eq_true] at h
      obtain ⟨tree, same⟩ := textKeys_of_isTree value h.1.2
      obtain ⟨trees, rest⟩ := entriesTextKeys_of_areTrees entries h.2
      rw [entriesAreTrees, isText_of_isString h.1.1, tree, trees, entriesTextKeys,
        textKey_of_isString h.1.1, same, rest]
      exact ⟨rfl, rfl⟩

end

/-! ### The trees of values -/

/-- A key that is text has that text. -/
theorem keyText?_textKey {key : Value} (h : key.isText = true) :
    ∃ text, key.textKey.keyText? = some text := by
  cases key with
  | string s => exact ⟨s, rfl⟩
  | bytes b =>
      obtain ⟨text, found⟩ := Option.isSome_iff_exists.1 h
      exact ⟨text, by rw [textKey, found, keyText?]⟩
  | _ => cases h

mutual

/-- A value that is a tree has a JSON tree. -/
theorem exists_toJson?_textKeys : (value : Value) → value.writable = true →
    value.isTree isText = true → ∃ tree, value.textKeys.toJson? = some tree
  | .null, _, _ => ⟨_, rfl⟩
  | .bool _, _, _ => ⟨_, rfl⟩
  | .int _, _, _ => ⟨_, rfl⟩
  | .float32 _, _, _ => ⟨_, rfl⟩
  | .float64 _, _, _ => ⟨_, rfl⟩
  | .string _, _, _ => ⟨_, rfl⟩
  | .array items, writable, h => by
      obtain ⟨trees, found⟩ := exists_itemsToJson?_textKeys items writable h
      exact ⟨.array trees, by rw [textKeys, toJson?, found, Option.map_some]⟩
  | .map entries, writable, h => by
      rw [isTree, Bool.and_eq_true] at h
      obtain ⟨members, found⟩ := exists_entriesToMembers?_textKeys entries writable h.2
      exact ⟨.ofMembers members, by rw [textKeys, toJson?, found, Option.map_some]⟩

theorem exists_itemsToJson?_textKeys : (items : List Value) → itemsWritable items = true →
    itemsAreTrees isText items = true → ∃ trees, itemsToJson? (itemsTextKeys items) = some trees
  | [], _, _ => ⟨_, rfl⟩
  | item :: items, writable, h => by
      rw [itemsWritable, Bool.and_eq_true] at writable
      rw [itemsAreTrees, Bool.and_eq_true] at h
      obtain ⟨tree, found⟩ := exists_toJson?_textKeys item writable.1 h.1
      obtain ⟨trees, rest⟩ := exists_itemsToJson?_textKeys items writable.2 h.2
      exact ⟨tree :: trees, by rw [itemsTextKeys, itemsToJson?, found, rest]⟩

theorem exists_entriesToMembers?_textKeys : (entries : List (Value × Value)) →
    entriesWritable entries = true → entriesAreTrees isText entries = true →
      ∃ members, entriesToMembers? (entriesTextKeys entries) = some members
  | [], _, _ => ⟨_, rfl⟩
  | (key, value) :: entries, writable, h => by
      rw [entriesWritable, Bool.and_eq_true, Bool.and_eq_true] at writable
      rw [entriesAreTrees, Bool.and_eq_true, Bool.and_eq_true] at h
      obtain ⟨text, named⟩ := keyText?_textKey h.1.1
      obtain ⟨tree, found⟩ := exists_toJson?_textKeys value writable.1.2 h.1.2
      obtain ⟨members, rest⟩ := exists_entriesToMembers?_textKeys entries writable.2 h.2
      exact ⟨(text, tree) :: members, by rw [entriesTextKeys, entriesToMembers?, named, found, rest]⟩

end

end Value

/-! ### The trees that are read -/

namespace Packed

/-- The text of a map key, as it was written. -/
theorem text?_packed (key : Value) :
    key.packed.text? = if key.isText then key.textKey.keyText? else none := by
  cases key with
  | string s => exact Utf8.decode?_encode s
  | bytes b =>
      rw [Value.packed, text?, Value.isText, Value.textKey]
      cases Utf8.decode? b <;> rfl
  | int n =>
      rw [Value.packed, Value.packedInteger]
      split <;> rfl
  | _ => rfl

theorem opensWithString_packed (entries : List (Value × Value)) :
    opensWithString (Value.packedEntries entries) = Value.opensWithString entries := by
  cases entries with
  | nil => rfl
  | cons entry rest =>
      obtain ⟨key, value⟩ := entry
      cases key with
      | int n =>
          rw [Value.packedEntries, Value.packed, Value.packedInteger]
          split <;> rfl
      | _ => rfl

/-- An integer is read as itself. -/
theorem toJson?_packedInteger (n : Integer) :
    (Value.packedInteger n).toJson? = some (.number (.int n)) := by
  have lower := n.lower
  have upper := n.upper
  have same : ∀ m : Integer, m.val = n.val →
      some (Json.number (.int m)) = some (.number (.int n)) := by
    intro m hm
    obtain ⟨val, _, _⟩ := n
    obtain ⟨val', _, _⟩ := m
    obtain rfl : val' = val := hm
    rfl
  unfold Value.packedInteger
  split
  · refine same _ ?_
    simp only [Integer.ofUInt64, UInt64.toNat_ofNat']
    omega
  · refine same _ ?_
    exact Int64.toInt_ofInt_of_le (by simpa using lower) (by simp; omega)

mutual

/-- **The tree that is read from the bytes of a value** is that of the value with text for the byte
strings among its map keys, if it has one. -/
theorem toJson?_packed : (value : Value) → value.writable = true →
    value.packed.toJson? = if value.isTree Value.isText then value.textKeys.toJson? else none
  | .null, _ => rfl
  | .bool _, _ => rfl
  | .int n, _ => toJson?_packedInteger n
  | .float32 _, _ => rfl
  | .float64 _, _ => rfl
  | .string s, _ => by rw [Value.packed, toJson?, Utf8.decode?_encode]; rfl
  | .bytes _, _ => rfl
  | .array items, writable => by
      rw [Value.packed, toJson?, itemsToJson?_packed items writable, Value.isTree, Value.textKeys,
        Value.toJson?]
      split <;> rfl
  | .map entries, writable => by
      rw [Value.packed, toJson?, opensWithString_packed, entriesToMembers?_packed entries writable,
        Value.isTree, Value.textKeys, Value.toJson?]
      cases Value.opensWithString entries with
      | true =>
          simp only [if_true, Bool.true_and]
          split <;> rfl
      | false => rfl

theorem itemsToJson?_packed : (items : List Value) → Value.itemsWritable items = true →
    itemsToJson? (Value.packedItems items)
      = if Value.itemsAreTrees Value.isText items
        then Value.itemsToJson? (Value.itemsTextKeys items) else none
  | [], _ => rfl
  | item :: items, writable => by
      rw [Value.itemsWritable, Bool.and_eq_true] at writable
      rw [Value.packedItems, itemsToJson?, toJson?_packed item writable.1,
        itemsToJson?_packed items writable.2, Value.itemsAreTrees, Value.itemsTextKeys,
        Value.itemsToJson?]
      cases item.isTree Value.isText with
      | false => rfl
      | true =>
          cases Value.itemsAreTrees Value.isText items with
          | true => rfl
          | false => simp

theorem entriesToMembers?_packed : (entries : List (Value × Value)) →
    Value.entriesWritable entries = true →
      entriesToMembers? (Value.packedEntries entries)
        = if Value.entriesAreTrees Value.isText entries
          then Value.entriesToMembers? (Value.entriesTextKeys entries) else none
  | [], _ => rfl
  | (key, value) :: entries, writable => by
      rw [Value.entriesWritable, Bool.and_eq_true, Bool.and_eq_true] at writable
      rw [Value.packedEntries, entriesToMembers?, text?_packed, toJson?_packed value writable.1.2,
        entriesToMembers?_packed entries writable.2, Value.entriesAreTrees, Value.entriesTextKeys,
        Value.entriesToMembers?]
      cases key.isText with
      | false => rfl
      | true =>
          cases value.isTree Value.isText with
          | false => simp
          | true =>
              cases Value.entriesAreTrees Value.isText entries with
              | true => rfl
              | false => simp

end

end Packed

theorem Value.of_encode? {value : Value} {bytes : Bytes} (h : value.encode? = some bytes) :
    value.writable = true ∧ value.encoding = bytes := by
  unfold encode? at h
  split at h
  · rename_i writable
    exact ⟨writable, Option.some.inj h⟩
  · cases h

/-- What is read from the bytes of a value. -/
theorem Json.decode?_encoding {value : Value} (writable : value.writable = true)
    (fits : value.fits = true) :
    Json.decode? value.encoding
      = if value.isTree Value.isText = true ∧ value.depth ≤ 1023 then value.textKeys.toJson?
        else none := by
  rw [Json.decode?, Packed.read?_encoding writable fits, Packed.maxDepth]
  by_cases shallow : value.depth ≤ 1023
  · rw [if_pos shallow]
    change value.packed.toJson? = _
    rw [Packed.toJson?_packed value writable]
    simp only [shallow, and_true]
  · rw [if_neg shallow, if_neg fun h => shallow h.2]
    rfl

/-- **Which values are read back as trees, and that the trees are those of the values.**  A value is
one if it has no byte string but for map keys, if every map begins with a string and its keys are
texts, and if it is not nested too deeply.  Where all keys are strings, it is filed in an index
under the key that a query for it computes. -/
theorem Json.decode?_of_encode? {value : Value} {bytes : Bytes}
    (written : value.encode? = some bytes) (fits : value.fits = true) :
    ((Json.decode? bytes).isSome = true ↔
        value.isTree Value.isText = true ∧ value.depth ≤ 1023) ∧
      (∀ tree, Json.decode? bytes = some tree → value.textKeys.toJson? = some tree) ∧
      (value.isTree Value.isString = true →
        value.isTree Value.isText = true ∧ ∀ tree, Json.decode? bytes = some tree →
          value.toJson? = some tree ∧ value.indexKey? = some tree.indexKey) := by
  obtain ⟨writable, rfl⟩ := Value.of_encode? written
  have read := Json.decode?_encoding writable fits
  have same : ∀ tree, Json.decode? value.encoding = some tree →
      value.textKeys.toJson? = some tree := by
    intro tree found
    rw [read] at found
    split at found
    · exact found
    · cases found
  refine ⟨⟨?_, ?_⟩, same, ?_⟩
  · intro found
    rw [read] at found
    split at found
    · rename_i both
      exact both
    · cases found
  · intro both
    obtain ⟨json, found⟩ := value.exists_toJson?_textKeys writable both.1
    rw [read, if_pos both, found]
    rfl
  · intro tree
    obtain ⟨texts, plain⟩ := value.textKeys_of_isTree tree
    refine ⟨texts, fun json found => ?_⟩
    have own := same json found
    rw [plain] at own
    exact ⟨own, by rw [Value.indexKey?, own, Option.map_some]⟩

/-- A map whose entries are not in the order of their keys: the query computes the key under which
it is filed. -/
theorem Json.decode?_of_encode?_map :
    let value : Value := .map [(.string "b", .float64 ⟨0⟩), (.string "a", .array [.null])]
    value.isTree Value.isString = true ∧ value.depth ≤ 1023 ∧ value.fits = true ∧
      ∃ bytes tree, value.encode? = some bytes ∧ Json.decode? bytes = some tree ∧
        value.indexKey? = some tree.indexKey := by
  intro value
  have written : value.encode? = some value.encoding := rfl
  have fits : value.fits = true := by decide +kernel
  have tree : value.isTree Value.isString = true := rfl
  obtain ⟨read, -, filed⟩ := Json.decode?_of_encode? written fits
  obtain ⟨texts, same⟩ := filed tree
  obtain ⟨json, found⟩ := Option.isSome_iff_exists.1 (read.2 ⟨texts, by decide⟩)
  exact ⟨tree, by decide, fits, _, json, written, found, (same json found).2⟩

/-- A map whose second key is a byte string is read back as a tree all the same, for which no query
can ask. -/
theorem Json.decode?_of_bytesKey :
    let value : Value := .map [(.string "a", .int (.ofUInt64 1)), (.bytes [98], .int (.ofUInt64 2))]
    value.isTree Value.isString = false ∧ value.depth ≤ 1023 ∧
      value.encode? = some [0x82, 0xA1, 97, 1, 0xC4, 1, 98, 2] ∧
      (Json.decode? [0x82, 0xA1, 97, 1, 0xC4, 1, 98, 2]).isSome = true ∧
      value.indexKey? = none := by
  intro value
  exact ⟨rfl, by decide, by decide +kernel, by decide +kernel, rfl⟩

/-- More items than 32 bits can count are not read back: an array of so many is read as the empty
one. -/
theorem Json.decode?_of_length {items : List Value} (h : items.length = 0x100000000) :
    Json.decode? (Value.array items).encoding = some (.array []) := by
  rw [Json.decode?, Packed.read?, Packed.maxDepth, Value.encoding, h,
    Packed.readNested?_array (Packed.readHead?_arrayHeader_of_length _)]
  rfl

end DocStore
