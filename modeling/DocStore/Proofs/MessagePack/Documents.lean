/-
Documents survive being written and read at their own shape.

A program writes a value and asks for it at a shape.  Any integer is written in its shortest form
and a record as a map from its field names, so what is read has lost the shape: it is the shape that
the program asks for that tells a byte from a word, and a record from an object.  A value of a shape
comes back at that shape, whatever bytes follow it, because the reader stops where the value ends.

Apart from the lengths, for which the format has 32 bits, the one limit is the depth.  Only trees
are nested as deeply as one likes; every other shape says how deeply its values are nested at most.
What is nested too deeply is written all the same, and not read at all.

* `Json.Ascending` — all objects of a tree list their members by ascending key;
* `Shape.Has`, `Shape.levels?` — the values of a shape, and how deeply they are nested at most;
* `Json.toJson?_packed_toValue` — **a tree is read back as itself**;
* `Shape.ofPacked?_packed` — **a value is read back at its shape**, by induction on how it is one of
  its values;
* `Shape.decode?_encoding_append` — **a document is written as at least one byte, and read back from
  these bytes and any more exactly if it is not nested too deeply.**
-/

import DocStore.Proofs.MessagePack.Trees

set_option autoImplicit false

namespace DocStore

/-! ### Trees -/

namespace Json

mutual

/-- All objects of a tree list their members by ascending key, each key once. -/
def Ascending : Json → Prop
  | .array items => ItemsAscend items
  | .object members => (members.Pairwise fun m n => m.1 < n.1) ∧ MembersAscend members
  | _ => True

/-- All objects in some items do. -/
def ItemsAscend : List Json → Prop
  | [] => True
  | item :: rest => item.Ascending ∧ ItemsAscend rest

/-- All objects in some members do. -/
def MembersAscend : List (String × Json) → Prop
  | [] => True
  | (_, value) :: rest => value.Ascending ∧ MembersAscend rest

end

/-- A member with a greater key than the others is put behind them. -/
theorem insert_of_forall_lt {key : String} (value : Json) {members : List (String × Json)}
    (h : ∀ m ∈ members, m.1 < key) : insert key value members = members ++ [(key, value)] := by
  induction members with
  | nil => rfl
  | cons m rest ih =>
      obtain ⟨first, others⟩ := List.forall_mem_cons.1 h
      have other : key ≠ m.1 := fun same => String.lt_irrefl m.1 (same ▸ first)
      rw [insert, if_neg (String.lt_asymm first), if_neg other, ih others]
      rfl

/-- Members that ascend are an object as they are. -/
theorem ofMembers_of_pairwise {members : List (String × Json)}
    (h : members.Pairwise fun m n => m.1 < n.1) : ofMembers members = .object members := by
  have onto : ∀ (later earlier : List (String × Json)),
      (earlier ++ later).Pairwise (fun m n => m.1 < n.1) →
        later.foldl (fun sorted m => insert m.1 m.2 sorted) earlier = earlier ++ later := by
    intro later
    induction later with
    | nil => exact fun earlier _ => (List.append_nil earlier).symm
    | cons m later ih =>
        intro earlier ascending
        have before := (List.pairwise_append.1 ascending).2.2
        rw [List.foldl_cons,
          insert_of_forall_lt m.2 fun n hn => before n hn m List.mem_cons_self]
        rw [List.append_cons] at ascending
        rw [List.append_cons earlier m later]
        exact ih _ ascending
  exact congrArg object (onto members [] h)

mutual

/-- A tree is nested as deeply as the value that it is written as. -/
theorem depth_toValue : (tree : Json) → tree.toValue.depth = tree.depth
  | .null => rfl
  | .bool _ => rfl
  | .number (.int _) => rfl
  | .number (.float _) => rfl
  | .string _ => rfl
  | .array items => congrArg (· + 1) (depth_itemsToValues items)
  | .object members => congrArg (· + 1) (depth_membersToEntries members)

theorem depth_itemsToValues : (items : List Json) →
    Value.depthOfItems (itemsToValues items) = depthOfItems items
  | [] => rfl
  | item :: items => by
      rw [itemsToValues, Value.depthOfItems, depth_toValue item, depth_itemsToValues items]
      rfl

theorem depth_membersToEntries : (members : List (String × Json)) →
    Value.depthOfEntries (membersToEntries members) = depthOfMembers members
  | [] => rfl
  | (key, value) :: members => by
      rw [membersToEntries, Value.depthOfEntries, depth_toValue value,
        depth_membersToEntries members]
      exact Nat.zero_max _

end

mutual

/-- Every tree can be written. -/
theorem writable_toValue : (tree : Json) → tree.toValue.writable = true
  | .null => rfl
  | .bool _ => rfl
  | .number (.int _) => rfl
  | .number (.float _) => rfl
  | .string _ => rfl
  | .array items => writable_itemsToValues items
  | .object members => writable_membersToEntries members

theorem writable_itemsToValues : (items : List Json) →
    Value.itemsWritable (itemsToValues items) = true
  | [] => rfl
  | item :: items => by
      rw [itemsToValues, Value.itemsWritable, writable_toValue item, writable_itemsToValues items]
      rfl

theorem writable_membersToEntries : (members : List (String × Json)) →
    Value.entriesWritable (membersToEntries members) = true
  | [] => rfl
  | (key, value) :: members => by
      rw [membersToEntries, Value.entriesWritable, writable_toValue value,
        writable_membersToEntries members]
      rfl

end

mutual

/-- **A tree is read back as itself.** -/
theorem toJson?_packed_toValue : (tree : Json) → tree.Ascending →
    tree.toValue.packed.toJson? = some tree
  | .null, _ => rfl
  | .bool _, _ => rfl
  | .number (.int n), _ => Packed.toJson?_packedInteger n
  | .number (.float x), _ => by
      rw [toValue, Value.packed, Packed.toJson?, ofBinary64, Binary64.finite?_val]
  | .string s, _ => by rw [toValue, Value.packed, Packed.toJson?, Utf8.decode?_encode]; rfl
  | .array items, h => by
      rw [toValue, Value.packed, Packed.toJson?, itemsToJson?_packed_toValues items h]
      rfl
  | .object members, h => by
      have opens : Value.opensWithString (membersToEntries members) = true := by
        cases members <;> rfl
      rw [toValue, Value.packed, Packed.toJson?, Packed.opensWithString_packed, opens, if_pos rfl,
        entriesToMembers?_packed_toEntries members h.2, Option.map_some,
        ofMembers_of_pairwise h.1]

theorem itemsToJson?_packed_toValues : (items : List Json) → ItemsAscend items →
    Packed.itemsToJson? (Value.packedItems (itemsToValues items)) = some items
  | [], _ => rfl
  | item :: items, h => by
      rw [itemsToValues, Value.packedItems, Packed.itemsToJson?, toJson?_packed_toValue item h.1,
        itemsToJson?_packed_toValues items h.2]

theorem entriesToMembers?_packed_toEntries : (members : List (String × Json)) →
    MembersAscend members →
      Packed.entriesToMembers? (Value.packedEntries (membersToEntries members)) = some members
  | [], _ => rfl
  | (key, value) :: members, h => by
      have name : (Value.string key).packed.text? = some key := Utf8.decode?_encode key
      rw [membersToEntries, Value.packedEntries, Packed.entriesToMembers?, name,
        toJson?_packed_toValue value h.1, entriesToMembers?_packed_toEntries members h.2]

end

end Json

/-! ### The values of a shape -/

namespace Shape

mutual

/-- The values of a shape, as they are written. -/
inductive Has : Shape → Value → Prop
  | json {tree : Json} (ascending : tree.Ascending) : Has .json tree.toValue
  | integer {least greatest : Int} {n : Integer} (lower : least ≤ n.val)
      (upper : n.val ≤ greatest) : Has (.integer least greatest) (.int n)
  | float (x : Binary64) : Has .float (.float64 x)
  | bool (b : Bool) : Has .bool (.bool b)
  | string (s : String) : Has .string (.string s)
  | list {item : Shape} {items : List Value} (all : HasItems item items) :
      Has (.list item) (.array items)
  | absent {value : Shape} : Has (.optional value) .null
  | present {value : Shape} {v : Value} (has : Has value v) : Has (.optional value) v
  /-- A record is written as a map from the names of its fields, which differ. -/
  | record {fields : List (String × Shape)} {entries : List (Value × Value)}
      (distinct : (fields.map Prod.fst).Nodup) (all : HasFields fields entries) :
      Has (.record fields) (.map entries)

/-- Items of a shape. -/
inductive HasItems : Shape → List Value → Prop
  | nil {item : Shape} : HasItems item []
  | cons {item : Shape} {v : Value} {items : List Value} (first : Has item v)
      (rest : HasItems item items) : HasItems item (v :: items)

/-- Entries with the names of some fields, and values of their shapes. -/
inductive HasFields : List (String × Shape) → List (Value × Value) → Prop
  | nil : HasFields [] []
  | cons {name : String} {shape : Shape} {fields : List (String × Shape)} {v : Value}
      {entries : List (Value × Value)} (first : Has shape v) (rest : HasFields fields entries) :
      HasFields ((name, shape) :: fields) ((.string name, v) :: entries)

end

mutual

/-- How deeply the values of a shape are nested at most; trees know no bound. -/
def levels? : Shape → Option Nat
  | .json => none
  | .list item => item.levels?.map (· + 1)
  | .optional value => value.levels?
  | .record fields => (levelsOfFields? fields).map (· + 1)
  | _ => some 0

/-- How deeply the values of some fields are nested at most. -/
def levelsOfFields? : List (String × Shape) → Option Nat
  | [] => some 0
  | (_, shape) :: fields =>
      shape.levels?.bind fun first => (levelsOfFields? fields).map (max first)

end

mutual

/-- Every value of a shape can be written. -/
theorem Has.writable : {shape : Shape} → {value : Value} → shape.Has value →
    value.writable = true
  | _, _, @Has.json tree _ => tree.writable_toValue
  | _, _, .integer _ _ => rfl
  | _, _, .float _ => rfl
  | _, _, .bool _ => rfl
  | _, _, .string _ => rfl
  | _, _, .list all => all.writable
  | _, _, .absent => rfl
  | _, _, .present has => has.writable
  | _, _, .record _ all => all.writable

theorem HasItems.writable : {item : Shape} → {items : List Value} → HasItems item items →
    Value.itemsWritable items = true
  | _, _, .nil => rfl
  | _, _, .cons first rest => by
      rw [Value.itemsWritable, first.writable, rest.writable]
      rfl

theorem HasFields.writable : {fields : List (String × Shape)} → {entries : List (Value × Value)} →
    HasFields fields entries → Value.entriesWritable entries = true
  | _, _, .nil => rfl
  | _, _, .cons first rest => by
      rw [Value.entriesWritable, first.writable, rest.writable]
      rfl

end

mutual

/-- No value is nested more deeply than its shape says. -/
theorem Has.depth_le : {shape : Shape} → {value : Value} → {levels : Nat} → shape.Has value →
    shape.levels? = some levels → value.depth ≤ levels
  | _, _, _, .integer _ _, _ => Nat.zero_le _
  | _, _, _, .float _, _ => Nat.zero_le _
  | _, _, _, .bool _, _ => Nat.zero_le _
  | _, _, _, .string _, _ => Nat.zero_le _
  | _, _, _, .list all, bound => by
      obtain ⟨n, inside, rfl⟩ := Option.map_eq_some_iff.1 bound
      exact Nat.succ_le_succ (all.depth_le inside)
  | _, _, _, .absent, _ => Nat.zero_le _
  | _, _, _, .present has, bound => has.depth_le bound
  | _, _, _, .record _ all, bound => by
      obtain ⟨n, inside, rfl⟩ := Option.map_eq_some_iff.1 bound
      exact Nat.succ_le_succ (all.depth_le inside)

theorem HasItems.depth_le : {item : Shape} → {items : List Value} → {levels : Nat} →
    HasItems item items → item.levels? = some levels → Value.depthOfItems items ≤ levels
  | _, _, _, .nil, _ => Nat.zero_le _
  | _, _, _, .cons first rest, bound => Nat.max_le.2 ⟨first.depth_le bound, rest.depth_le bound⟩

theorem HasFields.depth_le : {fields : List (String × Shape)} →
    {entries : List (Value × Value)} → {levels : Nat} → HasFields fields entries →
      levelsOfFields? fields = some levels → Value.depthOfEntries entries ≤ levels
  | _, _, _, .nil, _ => Nat.zero_le _
  | _, _, _, .cons first rest, bound => by
      obtain ⟨here, bounded, bound⟩ := Option.bind_eq_some_iff.1 bound
      obtain ⟨there, after, rfl⟩ := Option.map_eq_some_iff.1 bound
      refine Nat.max_le.2 ⟨Nat.zero_le _, Nat.max_le.2 ⟨?_, ?_⟩⟩
      · exact Nat.le_trans (first.depth_le bounded) (Nat.le_max_left here there)
      · exact Nat.le_trans (rest.depth_le after) (Nat.le_max_right here there)

end

/-! ### Reading at a shape -/

/-- An integer is read as itself, whichever form it has. -/
theorem integer?_packedInteger (n : Integer) : (Value.packedInteger n).integer? = some n := by
  have tree := Packed.toJson?_packedInteger n
  unfold Value.packedInteger at tree ⊢
  split at tree
  · rename_i sign
    rw [if_pos sign]
    simpa [Packed.toJson?, Packed.integer?] using tree
  · rename_i sign
    rw [if_neg sign]
    simpa [Packed.toJson?, Packed.integer?] using tree

/-- An entry is named by a field exactly if it is written under its name. -/
theorem namesField_packed_string (name other : String) (position : Nat) :
    (Value.string other).packed.namesField name position = decide (other = name) := by
  rw [Value.packed, Packed.namesField, Bool.eq_iff_iff, beq_iff_eq, decide_eq_true_eq]
  exact ⟨fun same => Utf8.encode_injective same, fun same => congrArg Utf8.encode same⟩

/-- The entries of a record are written under its names. -/
theorem HasFields.map_fst {fields : List (String × Shape)} {entries : List (Value × Value)}
    (h : HasFields fields entries) :
    entries.map Prod.fst = (fields.map Prod.fst).map Value.string := by
  induction entries generalizing fields with
  | nil => cases h; rfl
  | cons entry entries ih =>
      cases h with
      | cons first rest => rw [List.map_cons, ih rest]; rfl

/-- Under a name that no field has, nothing is written. -/
theorem filter_namesField_eq_nil {name : String} (position : Nat) {names : List String}
    {entries : List (Value × Value)} (h : entries.map Prod.fst = names.map Value.string)
    (other : name ∉ names) :
    (Value.packedEntries entries).filter (fun entry => entry.1.namesField name position) = [] := by
  induction entries generalizing names with
  | nil => rfl
  | cons entry entries ih =>
      obtain ⟨key, value⟩ := entry
      cases names with
      | nil => cases h
      | cons first names =>
          obtain ⟨rfl, rest⟩ := List.cons.inj h
          obtain ⟨ne, other⟩ := not_or.1 (mt List.mem_cons.2 other)
          rw [Value.packedEntries, List.filter_cons_of_neg, ih rest other]
          simpa [namesField_packed_string] using Ne.symm ne

/-- **Under the name of a field, the one entry is written that has it.** -/
theorem filter_namesField {name : String} (position : Nat) {names : List String}
    {entries : List (Value × Value)} (h : entries.map Prod.fst = names.map Value.string)
    (distinct : names.Nodup) {value : Value} (mem : (.string name, value) ∈ entries) :
    (Value.packedEntries entries).filter (fun entry => entry.1.namesField name position)
      = [((Value.string name).packed, value.packed)] := by
  induction entries generalizing names with
  | nil => cases mem
  | cons entry entries ih =>
      obtain ⟨key, first⟩ := entry
      cases names with
      | nil => cases h
      | cons other names =>
          obtain ⟨rfl, rest⟩ := List.cons.inj h
          obtain ⟨once, distinct⟩ := List.nodup_cons.1 distinct
          rw [Value.packedEntries]
          rcases List.mem_cons.1 mem with here | there
          · obtain ⟨same, rfl⟩ := Prod.mk.inj here
            obtain rfl := Value.string.inj same
            rw [List.filter_cons_of_pos (by simp [namesField_packed_string]),
              filter_namesField_eq_nil position rest once]
          · have among : Value.string name ∈ names.map Value.string :=
              rest ▸ List.mem_map_of_mem (f := Prod.fst) there
            have ne : other ≠ name := by
              rintro rfl
              exact once (List.mem_map_of_injective (fun _ _ => Value.string.inj) |>.1 among)
            rw [List.filter_cons_of_neg (by simpa [namesField_packed_string] using ne),
              ih rest distinct there]

/-- Every key of a record can name a field. -/
theorem HasFields.isFieldKey {fields : List (String × Shape)} {entries : List (Value × Value)}
    (h : HasFields fields entries) :
    (Value.packedEntries entries).all (fun entry => entry.1.isFieldKey) = true := by
  induction entries generalizing fields with
  | nil => rfl
  | cons entry entries ih =>
      cases h with
      | cons first rest => rw [Value.packedEntries, List.all_cons, ih rest]; rfl

/-- Only null is written as nil. -/
theorem eq_null_of_packed {value : Value} (writable : value.writable = true)
    (h : value.packed = .nil) : value = .null := by
  cases value with
  | null => rfl
  | int n =>
      rw [Value.packed, Value.packedInteger] at h
      split at h <;> cases h
  | refused => cases writable
  | _ => cases h

/-- What is not nil is read as the value that may be absent. -/
theorem ofPacked?_optional {value : Shape} {p : Packed} (h : p ≠ .nil) :
    (optional value).ofPacked? p = value.ofPacked? p := by
  cases p with
  | nil => exact absurd rfl h
  | _ => rw [ofPacked?]; exact h

mutual

/-- **A value of a shape is read back at that shape.** -/
theorem ofPacked?_packed : {shape : Shape} → {value : Value} → shape.Has value →
    shape.ofPacked? value.packed = some value
  | _, _, @Has.json tree ascending => by
      rw [ofPacked?, tree.toJson?_packed_toValue ascending, Option.map_some]
  | _, _, @Has.integer _ _ n lower upper => by
      rw [Value.packed, ofPacked?, integer?_packedInteger]
      exact if_pos ⟨lower, upper⟩
  | _, _, .float _ => rfl
  | _, _, .bool _ => rfl
  | _, _, .string s => congrArg (Option.map Value.string) (Utf8.decode?_encode s)
  | _, _, .list all => by
      rw [Value.packed, ofPacked?, mapM_ofPacked?_packed all]
      rfl
  | _, _, .absent => by rw [Value.packed, ofPacked?]
  | _, _, @Has.present shape value has => by
      by_cases nil : value.packed = .nil
      · rw [nil, eq_null_of_packed has.writable nil, ofPacked?]
      · rw [ofPacked?_optional nil, ofPacked?_packed has]
  | _, _, @Has.record fields entries distinct all => by
      rw [Value.packed, ofPacked?, if_pos all.isFieldKey,
        fieldsOfEntries?_packed all 0 fun name value mem position =>
          filter_namesField position all.map_fst distinct mem]
      rfl

theorem mapM_ofPacked?_packed : {item : Shape} → {items : List Value} → HasItems item items →
    (Value.packedItems items).mapM (item.ofPacked? ·) = some items
  | _, _, .nil => rfl
  | _, _, .cons first rest => by
      rw [Value.packedItems, List.mapM_cons, ofPacked?_packed first, mapM_ofPacked?_packed rest]
      rfl

theorem fieldsOfEntries?_packed : {fields : List (String × Shape)} →
    {entries : List (Value × Value)} → HasFields fields entries → (position : Nat) →
      {all : List (Packed × Packed)} →
      (∀ name value, (Value.string name, value) ∈ entries → ∀ position,
        all.filter (fun entry => entry.1.namesField name position)
          = [((Value.string name).packed, value.packed)]) →
      fieldsOfEntries? fields position all = some entries
  | _, _, .nil, _, _, _ => by rw [fieldsOfEntries?]
  | _, _, .cons first rest, position, all, found => by
      have here := found _ _ List.mem_cons_self position
      have others := fieldsOfEntries?_packed rest (position + 1) fun name value mem =>
        found name value (List.mem_cons_of_mem _ mem)
      simp only [fieldsOfEntries?, here, ofPacked?_packed first, others]

end

end Shape

/-! ### Bytes -/

namespace MessagePack

theorem bigEndian_ne_nil {width : Nat} (h : 0 < width) (n : Nat) : Bytes.bigEndian width n ≠ [] :=
  List.ne_nil_of_length_pos (by rwa [Bytes.length_bigEndian])

theorem integer_ne_nil (n : Integer) : integer n ≠ [] := by
  have word : ∀ m, Bytes.bigEndian 1 m ≠ [] := bigEndian_ne_nil Nat.one_pos
  grind [integer]

theorem stringHeader_ne_nil (length : Nat) : stringHeader length ≠ [] := by
  grind [stringHeader]

theorem bytesHeader_ne_nil (length : Nat) : bytesHeader length ≠ [] := by
  grind [bytesHeader]

theorem arrayHeader_ne_nil (length : Nat) : arrayHeader length ≠ [] := by
  grind [arrayHeader]

theorem mapHeader_ne_nil (length : Nat) : mapHeader length ≠ [] := by
  grind [mapHeader]

end MessagePack

/-- A value is written as at least one byte. -/
theorem Value.encoding_ne_nil {value : Value} (writable : value.writable = true) :
    value.encoding ≠ [] := by
  cases value with
  | bool b => cases b <;> exact List.cons_ne_nil _ _
  | int n => exact MessagePack.integer_ne_nil n
  | string s => exact List.append_ne_nil_of_left_ne_nil (MessagePack.stringHeader_ne_nil _) _
  | bytes b => exact List.append_ne_nil_of_left_ne_nil (MessagePack.bytesHeader_ne_nil _) _
  | array items => exact List.append_ne_nil_of_left_ne_nil (MessagePack.arrayHeader_ne_nil _) _
  | map entries => exact List.append_ne_nil_of_left_ne_nil (MessagePack.mapHeader_ne_nil _) _
  | refused => cases writable
  | _ => exact List.cons_ne_nil _ _

/-- What is read from the bytes of a value and any more is what was written, exactly if it is not
nested too deeply. -/
theorem Packed.read?_encoding_append {value : Value} (writable : value.writable = true)
    (fits : value.fits = true) (rest : Bytes) :
    read? (value.encoding ++ rest)
      = if value.depth ≤ 1023 then some value.packed else none := by
  rw [read?, readNested?_encoding maxDepth rest value writable fits, maxDepth]
  split <;> rfl

/-- **A tree is read back from its bytes and any more** exactly if it is not nested too deeply. -/
theorem Json.decode?_toValue_encoding_append {tree : Json} (ascending : tree.Ascending)
    (fits : tree.toValue.fits = true) (rest : Bytes) :
    decode? (tree.toValue.encoding ++ rest) = if tree.depth ≤ 1023 then some tree else none := by
  rw [decode?, Packed.read?_encoding_append tree.writable_toValue fits, depth_toValue]
  split
  · exact tree.toJson?_packed_toValue ascending
  · rfl

/-- **A document is written as at least one byte, and read back at its shape from these bytes and
any more exactly if it is not nested too deeply.**  What is written for a tree is nested as deeply
as the tree, and a value of a shape without trees no more deeply than the shape says. -/
theorem Shape.decode?_encoding_append {shape : Shape} {value : Value} (has : shape.Has value)
    (fits : value.fits = true) :
    ∃ bytes, value.encode? = some bytes ∧ bytes ≠ [] ∧
      (∀ rest, shape.decode? (bytes ++ rest) = if value.depth ≤ 1023 then some value else none) ∧
      (∀ levels, shape.levels? = some levels → value.depth ≤ levels) ∧
      ∀ tree : Json, tree.Ascending → value = tree.toValue →
        value.depth = tree.depth ∧ ∀ rest,
          Json.decode? (bytes ++ rest) = if tree.depth ≤ 1023 then some tree else none := by
  refine ⟨value.encoding, if_pos has.writable, Value.encoding_ne_nil has.writable, fun rest => ?_,
    fun _ bound => has.depth_le bound, ?_⟩
  · rw [decode?, Packed.read?_encoding_append has.writable fits]
    split
    · exact ofPacked?_packed has
    · rfl
  · rintro tree ascending rfl
    exact ⟨tree.depth_toValue, Json.decode?_toValue_encoding_append ascending fits⟩

/-- A record of a string and a list of strings is read back, whatever follows it; its shape allows
for two levels. -/
theorem Shape.decode?_encoding_append_of_record :
    let shape : Shape := .record [("title", .string), ("tag", .list .string)]
    let value : Value := .map [(.string "title", .string "a"),
      (.string "tag", .array [.string "b", .string "c"])]
    shape.Has value ∧ value.fits = true ∧ shape.levels? = some 2 ∧
      ∀ rest, shape.decode? (value.encoding ++ rest) = some value := by
  intro shape value
  have has : shape.Has value :=
    .record (by decide) (.cons (.string "a")
      (.cons (.list (.cons (.string "b") (.cons (.string "c") .nil))) .nil))
  have fits : value.fits = true := by decide +kernel
  obtain ⟨bytes, written, -, read, levels, -⟩ := Shape.decode?_encoding_append has fits
  obtain ⟨-, rfl⟩ := Value.of_encode? written
  have shallow : value.depth ≤ 1023 := Nat.le_trans (levels 2 rfl) (by decide)
  exact ⟨has, fits, rfl, fun rest => (read rest).trans (if_pos shallow)⟩

end DocStore
