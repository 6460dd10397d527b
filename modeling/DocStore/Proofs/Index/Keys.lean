/-
An index key tells the value that it is made of.

The first byte of a key is the class of the value, so that values of different kinds are kept apart.
A number that equals an integer is filed as that integer, in whichever form it was written, and
every other number is a float that is filed as its bits; so numbers have the same key exactly if
they are equal as numbers.  Arrays and objects are filed as their texts, which tell them; and the
order in which the members of an object are written does not show in its tree.

* `IndexKey.ofInteger_injective`, `IndexKey.orderedBits_injective` — the two forms of numbers;
* `IndexKey.ofNumber_eq_iff` — **numbers have the same key exactly if they are equal as numbers**;
* `IndexKey.kindOf?` — the kind that a first byte tells;
* `Json.indexKey_faithful` — **trees with the same key are the same tree or equal numbers; equal
  numbers have the same key, and the order of members does not matter.**
-/

import DocStore.Proofs.Json.Order
import DocStore.Proofs.Json.Texts

set_option autoImplicit false

namespace DocStore

namespace IndexKey

/-! ### Numbers -/

/-- A word is told by its bytes. -/
theorem bigEndian_inj {m n : Nat} (hm : m < 0x10000000000000000) (hn : n < 0x10000000000000000)
    (h : Bytes.bigEndian 8 m = Bytes.bigEndian 8 n) : m = n := by
  have read := congrArg Bytes.toNat h
  have words : Nat.pow 256 8 = 0x10000000000000000 := rfl
  rwa [Bytes.toNat_bigEndian, Bytes.toNat_bigEndian, words, Nat.mod_eq_of_lt hm,
    Nat.mod_eq_of_lt hn] at read

/-- Different integers have different keys. -/
theorem ofInteger_injective {m n : Integer} (h : ofInteger m = ofInteger n) : m = n := by
  have lower := m.lower
  have upper := m.upper
  have lower' := n.lower
  have upper' := n.upper
  refine Integer.eq_of_val ?_
  unfold ofInteger at h
  split at h
  · split at h
    · have words := bigEndian_inj (by omega) (by omega) (List.cons.inj h).2
      omega
    · cases (List.cons.inj h).1
  · split at h
    · cases (List.cons.inj h).1
    · have words := bigEndian_inj (by omega) (by omega) (List.cons.inj h).2
      omega

theorem orderedBits_lt (x : Binary64) : orderedBits x < 0x10000000000000000 := by
  have word := x.bits.toNat_lt
  unfold orderedBits Binary64.negative
  split <;> simp_all <;> omega

/-- Different floats have different words. -/
theorem orderedBits_injective {x y : Binary64} (h : orderedBits x = orderedBits y) : x = y := by
  have word := x.bits.toNat_lt
  have word' := y.bits.toNat_lt
  have bits : x.bits.toNat = y.bits.toNat := by
    unfold orderedBits Binary64.negative at h
    simp only [decide_eq_true_eq] at h
    split at h <;> split at h <;> omega
  obtain ⟨bits⟩ := x
  obtain ⟨bits'⟩ := y
  exact congrArg Binary64.mk (UInt64.toNat_inj.1 bits)

/-- A number that equals an integer is filed as that integer. -/
theorem ofNumber_of_integer? {n : Number} {i : Integer} (h : n.integer? = some i) :
    ofNumber n = ofInteger i := by
  unfold ofNumber
  rw [h]

/-- A number that equals no integer is a float, and is filed as its bits. -/
theorem ofNumber_of_no_integer {n : Number} (h : n.integer? = none) :
    ∃ x, n = .float x ∧ ofNumber n = 0x04 :: Bytes.bigEndian 8 (orderedBits x.val) := by
  cases n with
  | int i => cases h
  | float x =>
      refine ⟨x, rfl, ?_⟩
      unfold ofNumber
      rw [h]

/-- An integer is not filed as a float. -/
theorem ofInteger_ne_float (i : Integer) (word : Bytes) : ofInteger i ≠ 0x04 :: word := by
  unfold ofInteger
  split <;> intro h <;> cases (List.cons.inj h).1

/-- Numbers with the same key are equal as numbers. -/
theorem rational_eq_of_ofNumber {m n : Number} (h : ofNumber m = ofNumber n) :
    m.rational = n.rational := by
  cases hm : m.integer? with
  | some i =>
      rw [ofNumber_of_integer? hm] at h
      cases hn : n.integer? with
      | some j =>
          rw [ofNumber_of_integer? hn] at h
          obtain rfl := ofInteger_injective h
          exact ((m.integer?_eq_some_iff i).1 hm).trans ((n.integer?_eq_some_iff i).1 hn).symm
      | none =>
          obtain ⟨y, -, filed⟩ := ofNumber_of_no_integer hn
          exact absurd (h.trans filed) (ofInteger_ne_float i _)
  | none =>
      obtain ⟨x, rfl, filed⟩ := ofNumber_of_no_integer hm
      rw [filed] at h
      cases hn : n.integer? with
      | some j =>
          rw [ofNumber_of_integer? hn] at h
          exact absurd h.symm (ofInteger_ne_float j _)
      | none =>
          obtain ⟨y, rfl, filed'⟩ := ofNumber_of_no_integer hn
          rw [filed'] at h
          have words := bigEndian_inj (orderedBits_lt _) (orderedBits_lt _) (List.cons.inj h).2
          rw [Number.rational, Number.rational, orderedBits_injective words]

/-- Numbers that are equal have the same key, in whichever form they are written. -/
theorem ofNumber_congr {m n : Number} (h : m.rational = n.rational) : ofNumber m = ofNumber n := by
  have integers := Number.integer?_congr h
  cases hm : m.integer? with
  | some i => rw [ofNumber_of_integer? hm, ofNumber_of_integer? (integers.symm.trans hm)]
  | none =>
      obtain ⟨x, rfl, -⟩ := ofNumber_of_no_integer hm
      obtain ⟨y, rfl, -⟩ := ofNumber_of_no_integer (integers.symm.trans hm)
      rw [Finite64.eq_of_rational h hm]

/-- **Numbers have the same key exactly if they are equal as numbers.** -/
theorem ofNumber_eq_iff (m n : Number) : ofNumber m = ofNumber n ↔ m.rational = n.rational :=
  ⟨rational_eq_of_ofNumber, ofNumber_congr⟩

/-! ### Kinds -/

/-- The kind of the trees whose key begins with a byte, if there are any. -/
def kindOf? (first : UInt8) : Option Json.Kind :=
  if first = 0x00 then some .null
  else if first = 0x01 then some .bool
  else if first = 0x02 ∨ first = 0x03 ∨ first = 0x04 then some .number
  else if first = 0x05 then some .string
  else if first = 0x06 then some .array
  else if first = 0x07 then some .object
  else none

theorem exists_ofInteger_eq_cons (i : Integer) :
    ∃ first word, ofInteger i = first :: word ∧ kindOf? first = some .number := by
  unfold ofInteger
  split <;> exact ⟨_, _, rfl, rfl⟩

/-- The first byte of a key tells the kind of the tree. -/
theorem exists_indexKey_eq_cons (tree : Json) :
    ∃ first rest, tree.indexKey = first :: rest ∧ kindOf? first = some tree.kind := by
  cases tree with
  | number n =>
      cases h : n.integer? with
      | some i =>
          obtain ⟨first, word, filed, kind⟩ := exists_ofInteger_eq_cons i
          exact ⟨first, word, (ofNumber_of_integer? h).trans filed, kind⟩
      | none =>
          obtain ⟨x, -, filed⟩ := ofNumber_of_no_integer h
          exact ⟨0x04, _, filed, rfl⟩
  | _ => exact ⟨_, _, rfl, rfl⟩

theorem kind_eq_of_indexKey {a b : Json} (h : a.indexKey = b.indexKey) : a.kind = b.kind := by
  obtain ⟨first, rest, ha, kind⟩ := exists_indexKey_eq_cons a
  obtain ⟨first', rest', hb, kind'⟩ := exists_indexKey_eq_cons b
  rw [ha, hb] at h
  obtain rfl := (List.cons.inj h).1
  exact Option.some.inj (kind.symm.trans kind')

end IndexKey

namespace Json

/-! ### Trees -/

/-- A text that is filed after a first byte is told by the key. -/
theorem text_eq_of_filed {a b : Json} {first : UInt8}
    (h : first :: Utf8.encode (String.ofList a.text)
      = first :: Utf8.encode (String.ofList b.text)) :
    a = b :=
  text_injective (String.ofList_injective (Utf8.encode_injective (List.cons.inj h).2))

/-- Trees with the same key are the same tree, or numbers that are equal. -/
theorem eq_or_of_indexKey {a b : Json} (h : a.indexKey = b.indexKey) :
    a = b ∨ ∃ m n, a = .number m ∧ b = .number n ∧ m.rational = n.rational := by
  have kind := IndexKey.kind_eq_of_indexKey h
  cases a with
  | null =>
      cases b with
      | null => exact .inl rfl
      | _ => cases kind
  | bool x =>
      cases b with
      | bool y =>
          cases x <;> cases y
          · exact .inl rfl
          · cases h
          · cases h
          · exact .inl rfl
      | _ => cases kind
  | number m =>
      cases b with
      | number n => exact .inr ⟨m, n, rfl, rfl, (IndexKey.ofNumber_eq_iff m n).1 h⟩
      | _ => cases kind
  | string x =>
      cases b with
      | string y => exact .inl (congrArg string (Utf8.encode_injective (List.cons.inj h).2))
      | _ => cases kind
  | array items =>
      cases b with
      | array others => exact .inl (text_eq_of_filed h)
      | _ => cases kind
  | object members =>
      cases b with
      | object others => exact .inl (text_eq_of_filed h)
      | _ => cases kind

/-- **Index keys merge what they should, and nothing else.**  Trees with the same key are the same
tree, or numbers of the same exact value.  Numbers of the same value have the same key, in whichever
form they are written; and neither the order in which the members of an object are written shows in
its key, nor that of the entries of a map, at any depth of a value. -/
theorem indexKey_faithful :
    (∀ a b : Json, a.indexKey = b.indexKey →
      a = b ∨ ∃ m n, a = .number m ∧ b = .number n ∧ m.rational = n.rational) ∧
    (∀ m n : Number, m.rational = n.rational → (number m).indexKey = (number n).indexKey) ∧
    (∀ members others : List (String × Json), members.Perm others →
      (members.map Prod.fst).Nodup → (ofMembers members).indexKey = (ofMembers others).indexKey) ∧
    (∀ v w : Value, v.Rearranged w → v.indexKey? = w.indexKey?) := by
  refine ⟨fun a b h => eq_or_of_indexKey h, fun m n h => (IndexKey.ofNumber_eq_iff m n).2 h,
    ?_, ?_⟩
  · intro members others perm distinct
    rw [ofMembers_perm perm distinct]
  · intro v w h
    rw [Value.indexKey?, Value.indexKey?, h.toJson?_eq]

/-- The float `2 ^ 63` is filed as the integer, and so is the negative zero; and a map inside an
array is filed in whichever order it was written. -/
theorem indexKey_faithful_of_forms :
    (number (.float ⟨⟨0x43E0000000000000⟩, by decide⟩)).indexKey
      = (number (.int ⟨0x8000000000000000, by decide, by decide⟩)).indexKey ∧
    (number (.float ⟨⟨0x8000000000000000⟩, by decide⟩)).indexKey
      = (number (.int ⟨0, by decide, by decide⟩)).indexKey ∧
    (Value.array [.map [(.string "a", .null), (.bool true, .null)]]).indexKey?
      = (Value.array [.map [(.bool true, .null), (.string "a", .null)]]).indexKey? := by
  obtain ⟨-, numbers, -, values⟩ := indexKey_faithful
  refine ⟨numbers _ _ ?_, numbers _ _ ?_, values _ _ ?_⟩
  · exact (Number.integer?_eq_some_iff _ _).1 (by decide)
  · have zero : (Binary64.mk 0x8000000000000000).dyadic.rational = 0 :=
      Dyadic.rational_eq_zero_iff.2 (by decide)
    exact (mul_eq_zero_of_right _ zero).trans Int.cast_zero.symm
  · exact .item [] [] (.entries (.swap _ _ []) (by decide))

end Json

end DocStore
