/-
The order of index keys is an order of values.

Keys are compared byte by byte.  The first byte puts the class of a value in front of everything
else, and what follows it was chosen so that its bytes come in the order of the values: a word is
written with its most significant byte first, an integer has its sign bit flipped, and the words of
floats are turned round below zero.  Integers come in two forms, which meet at `2 ^ 63`; a float
that equals an integer of 64 bits has the key of that integer, and the other floats are a class of
their own behind all integers, so that a float and an integer are not compared as numbers.

* `cmp_cons`, `Bytes.cmp_bigEndian` — byte strings are compared by their first bytes, and then by
  the others, and so words are compared as numbers;
* `IndexKey.cmp_ofInteger`, `IndexKey.orderedBits_lt_iff` — **so are the keys of integers, and the
  words of floats;**
* `IsWord`, `Json.rank`, `Json.cmpWithin` — the classes, and the order inside each;
* `Json.cmp_indexKey` — **the keys of two trees are compared by class, and then by value;**
* `IndexKey.FiledUpTo`, `IndexKey.ofNumber_le_iff` — the order in which numbers are filed.
-/

import DocStore.Proofs.Index.Keys
import Mathlib.Order.Compare

set_option autoImplicit false

namespace DocStore

/-! ### Byte strings -/

/-- What is less on either side in the same way is compared in the same way. -/
theorem cmp_eq_cmp {α β : Type} [LT α] [DecidableLT α] [LT β] [DecidableLT β] {a b : α} {c d : β}
    (less : a < b ↔ c < d) (greater : b < a ↔ d < c) : cmp a b = cmp c d := by
  unfold cmp cmpUsing
  simp only [less, greater]

theorem cmp_of_lt {α : Type} [LT α] [DecidableLT α] {a b : α} (less : a < b) :
    cmp a b = .lt :=
  if_pos less

theorem cmp_of_gt {α : Type} [LT α] [DecidableLT α] {a b : α} (not : ¬ a < b) (greater : b < a) :
    cmp a b = .gt :=
  (if_neg not).trans (if_pos greater)

theorem lt_of_cmp {α : Type} [LT α] [DecidableLT α] {a b : α} (h : cmp a b = .lt) : a < b := by
  unfold cmp cmpUsing at h
  split at h
  · assumption
  · split at h <;> cases h

/-- Byte strings are compared by their first bytes, and then by the others. -/
theorem cmp_cons (a b : UInt8) (l m : Bytes) :
    cmp (a :: l) (b :: m) = (cmp a.toNat b.toNat).then (cmp l m) := by
  have first : ∀ (a b : UInt8) (l m : Bytes),
      a :: l < b :: m ↔ a.toNat < b.toNat ∨ a.toNat = b.toNat ∧ l < m := by
    intro a b l m
    rw [List.cons_lt_cons_iff, UInt8.lt_iff_toNat_lt, UInt8.toNat_inj]
  rcases Nat.lt_trichotomy a.toNat b.toNat with less | same | greater
  · rw [cmp_of_lt less, cmp_of_lt ((first a b l m).2 (.inl less))]
    rfl
  · rw [same, cmp_self_eq_eq]
    refine cmp_eq_cmp ?_ ?_
    · simp [first, same]
    · simp [first, same]
  · have not : ¬ a :: l < b :: m := by
      rw [first]
      omega
    have more : b :: m < a :: l := (first b a m l).2 (.inl greater)
    rw [cmp_of_gt (Nat.lt_asymm greater) greater, cmp_of_gt not more]
    rfl

namespace Bytes

/-- Numbers are compared by their quotients, and then by their remainders. -/
theorem cmp_quotient_remainder {unit r s : Nat} (hr : r < unit) (hs : s < unit) (p q : Nat) :
    (cmp p q).then (cmp r s) = cmp (r + unit * p) (s + unit * q) := by
  rcases Nat.lt_trichotomy p q with less | rfl | greater
  · have step : unit * p + unit ≤ unit * q := Nat.mul_le_mul_left unit less
    rw [cmp_of_lt less, cmp_of_lt (show r + unit * p < s + unit * q by omega)]
    rfl
  · rw [cmp_self_eq_eq]
    exact cmp_eq_cmp Nat.add_lt_add_iff_right.symm Nat.add_lt_add_iff_right.symm
  · have step : unit * q + unit ≤ unit * p := Nat.mul_le_mul_left unit greater
    have more : s + unit * q < r + unit * p := by omega
    rw [cmp_of_gt (Nat.lt_asymm greater) greater, cmp_of_gt (Nat.lt_asymm more) more]
    rfl

/-- **Words are compared as the numbers that they hold.** -/
theorem cmp_bigEndian (width m n : Nat) :
    cmp (bigEndian width m) (bigEndian width n)
      = cmp (m % Nat.pow 256 width) (n % Nat.pow 256 width) := by
  induction width with
  | zero => rw [show Nat.pow 256 0 = 1 from rfl, Nat.mod_one, Nat.mod_one]; rfl
  | succ width ih =>
      have positive : 0 < Nat.pow 256 width := Nat.pow_pos (by decide)
      have digit : ∀ n : Nat, (UInt8.ofNat (n / Nat.pow 256 width)).toNat
          = n / Nat.pow 256 width % 256 := fun n => by simp
      rw [bigEndian, bigEndian, cmp_cons, ih, digit, digit,
        cmp_quotient_remainder (Nat.mod_lt m positive) (Nat.mod_lt n positive),
        ← Nat.mod_mul, ← Nat.mod_mul]
      rfl

/-- Numbers that fit are compared by their words. -/
theorem cmp_words {m n : Nat} (hm : m < 0x10000000000000000) (hn : n < 0x10000000000000000) :
    cmp (bigEndian 8 m) (bigEndian 8 n) = cmp m n := by
  have words : Nat.pow 256 8 = 0x10000000000000000 := rfl
  rw [cmp_bigEndian, words, Nat.mod_eq_of_lt hm, Nat.mod_eq_of_lt hn]

end Bytes

/-! ### Numbers -/

/-- **The keys of integers are compared as the integers.**  Those that only an unsigned word holds
have a greater first byte. -/
theorem IndexKey.cmp_ofInteger (m n : Integer) :
    cmp (ofInteger m) (ofInteger n) = cmp m.val n.val := by
  have lower := m.lower
  have upper := m.upper
  have lower' := n.lower
  have upper' := n.upper
  unfold ofInteger
  by_cases low : m.val < 0x8000000000000000 <;> by_cases low' : n.val < 0x8000000000000000
  · rw [if_pos low, if_pos low', cmp_cons, cmp_self_eq_eq, Ordering.eq_then,
      Bytes.cmp_words (by omega) (by omega)]
    exact cmp_eq_cmp (by omega) (by omega)
  · rw [if_pos low, if_neg low', cmp_cons, cmp_of_lt (show m.val < n.val by omega)]
    rfl
  · have greater : n.val < m.val := by omega
    rw [if_neg low, if_pos low', cmp_cons, cmp_of_gt (lt_asymm greater) greater]
    rfl
  · rw [if_neg low, if_neg low', cmp_cons, cmp_self_eq_eq, Ordering.eq_then,
      Bytes.cmp_words (by omega) (by omega)]
    exact cmp_eq_cmp (by omega) (by omega)

namespace Binary64

variable {x y : Binary64}

/-- The word of a float without its sign. -/
def magnitude (x : Binary64) : Nat :=
  x.exponentField * 0x10000000000000 + x.fraction

/-- A float with a smaller word is smaller, but for the signs. -/
theorem rational_lt_of_magnitude (h : x.magnitude < y.magnitude) :
    x.dyadic.rational < y.dyadic.rational := by
  have fraction : x.fraction < 0x10000000000000 := Nat.mod_lt _ (by decide)
  have fraction' : y.fraction < 0x10000000000000 := Nat.mod_lt _ (by decide)
  unfold magnitude at h
  by_cases exponents : x.exponent < y.exponent
  · exact x.isBinary64.rational_lt y.isBinary64 exponents
  · -- the exponents are the same, and the mantissas are compared
    have same : x.exponent = y.exponent := by
      unfold exponent at exponents ⊢
      omega
    have less : x.mantissa < y.mantissa := by
      unfold exponent at same
      unfold mantissa
      split <;> split <;> omega
    have unit : (0 : ℚ) < 2 ^ y.exponent := by positivity
    change (x.mantissa : ℚ) * 2 ^ x.exponent < y.mantissa * 2 ^ y.exponent
    rw [same]
    exact mul_lt_mul_of_pos_right (by exact_mod_cast less) unit

/-- **Without their signs, floats are compared by their words.** -/
theorem magnitude_lt_iff :
    x.magnitude < y.magnitude ↔ x.dyadic.rational < y.dyadic.rational := by
  have fraction : x.fraction < 0x10000000000000 := Nat.mod_lt _ (by decide)
  have fraction' : y.fraction < 0x10000000000000 := Nat.mod_lt _ (by decide)
  refine ⟨rational_lt_of_magnitude, fun less => ?_⟩
  rcases Nat.lt_trichotomy x.magnitude y.magnitude with lt | eq | gt
  · exact lt
  · -- equal words are those of the same mantissa and exponent
    have fields : x.exponentField = y.exponentField ∧ x.fraction = y.fraction := by
      unfold magnitude at eq
      omega
    have same : x.dyadic = y.dyadic := by
      unfold dyadic mantissa exponent
      rw [fields.1, fields.2]
    exact absurd less (same ▸ lt_irrefl _)
  · exact absurd less (lt_asymm (rational_lt_of_magnitude gt))

end Binary64

/-- **The words under which floats are filed are compared as the floats**, unless both are zero. -/
theorem IndexKey.orderedBits_lt_iff {x y : Binary64} (nonzero : x.rational ≠ 0) :
    orderedBits x < orderedBits y ↔ x.rational < y.rational := by
  have hx := x.dyadic.rational_nonneg
  have hy := y.dyadic.rational_nonneg
  have positive : 0 < x.dyadic.rational := by
    refine lt_of_le_of_ne hx fun zero => nonzero ?_
    rw [Binary64.rational, ← zero, mul_zero]
  have word := x.bits.toNat_lt
  have word' := y.bits.toNat_lt
  have bits := x.toNat_bits
  have bits' := y.toNat_bits
  have below := @Binary64.magnitude_lt_iff x y
  have above := @Binary64.magnitude_lt_iff y x
  unfold Binary64.magnitude at below above
  unfold orderedBits Binary64.rational
  cases hn : x.negative <;> cases hm : y.negative <;>
    simp only [hn, hm, if_true, if_false, Bool.false_eq_true, one_mul, neg_one_mul]
      at bits bits' ⊢
  · rw [← below]
    omega
  · refine iff_of_false (by omega) (by linarith)
  · refine iff_of_true (by omega) (by linarith)
  · rw [neg_lt_neg_iff, ← above]
    omega

/-! ### Classes -/

/-- Whether a value is an integer that fits 64 bits, signed or unsigned. -/
def IsWord (q : ℚ) : Prop :=
  ∃ i : Integer, q = i.val

theorem Number.isWord_iff (n : Number) : IsWord n.rational ↔ n.integer?.isSome := by
  rw [Option.isSome_iff_exists]
  exact exists_congr fun i => (n.integer?_eq_some_iff i).symm

instance (n : Number) : Decidable (IsWord n.rational) :=
  decidable_of_iff _ n.isWord_iff.symm

namespace Json

/-- The class of a tree, counted from the one whose keys come first: null, truth values, numbers
that equal an integer of 64 bits, other numbers, strings, arrays, objects. -/
def rank : Json → Nat
  | .null => 0
  | .bool _ => 1
  | .number n => if IsWord n.rational then 2 else 3
  | .string _ => 4
  | .array _ => 5
  | .object _ => 6

theorem rank_number (n : Number) : (number n).rank = if n.integer?.isSome then 2 else 3 := by
  simp only [rank, n.isWord_iff]

/-- The compact text of a tree, as bytes. -/
def textBytes (tree : Json) : Bytes :=
  Utf8.encode (String.ofList tree.text)

/-- How two trees of one class are compared: truth values with the false one first, numbers by their
exact value, strings by their bytes, and arrays and objects by their compact texts. -/
def cmpWithin : Json → Json → Ordering
  | .bool x, .bool y => cmp x y
  | .number m, .number n => cmp m.rational n.rational
  | .string s, .string t => cmp (Utf8.encode s) (Utf8.encode t)
  | .array items, .array others => cmp (array items).textBytes (array others).textBytes
  | .object members, .object others => cmp (object members).textBytes (object others).textBytes
  | _, _ => .eq

end Json

namespace IndexKey

/-- The first byte of the key of an integer. -/
theorem exists_ofInteger_eq (i : Integer) :
    ∃ first word, ofInteger i = first :: word ∧ (first = 0x02 ∨ first = 0x03) := by
  unfold ofInteger
  split
  · exact ⟨_, _, rfl, .inl rfl⟩
  · exact ⟨_, _, rfl, .inr rfl⟩

/-- Numbers that equal no integer of 64 bits are not zero. -/
theorem rational_ne_zero {n : Number} (h : n.integer? = none) : n.rational ≠ 0 := by
  intro zero
  have whole := (n.integer?_eq_some_iff (.ofUInt64 0)).2 zero
  rw [h] at whole
  cases whole

/-- **The keys of numbers are compared by class, and then by value.** -/
theorem cmp_ofNumber (m n : Number) : cmp (ofNumber m) (ofNumber n)
    = (cmp (Json.number m).rank (Json.number n).rank).then (cmp m.rational n.rational) := by
  rw [Json.rank_number, Json.rank_number]
  cases hm : m.integer? with
  | some i =>
      have value : m.rational = i.val := (m.integer?_eq_some_iff i).1 hm
      rw [ofNumber_of_integer? hm]
      cases hn : n.integer? with
      | some j =>
          have value' : n.rational = j.val := (n.integer?_eq_some_iff j).1 hn
          rw [ofNumber_of_integer? hn, cmp_ofInteger, value, value']
          exact cmp_eq_cmp Int.cast_lt.symm Int.cast_lt.symm
      | none =>
          obtain ⟨y, -, filed⟩ := ofNumber_of_no_integer hn
          obtain ⟨first, word, filed', rfl | rfl⟩ := exists_ofInteger_eq i
          · rw [filed, filed', cmp_cons]
            rfl
          · rw [filed, filed', cmp_cons]
            rfl
  | none =>
      obtain ⟨x, rfl, filed⟩ := ofNumber_of_no_integer hm
      cases hn : n.integer? with
      | some j =>
          obtain ⟨first, word, filed', rfl | rfl⟩ := exists_ofInteger_eq j
          · rw [filed, ofNumber_of_integer? hn, filed', cmp_cons]
            rfl
          · rw [filed, ofNumber_of_integer? hn, filed', cmp_cons]
            rfl
      | none =>
          obtain ⟨y, rfl, filed'⟩ := ofNumber_of_no_integer hn
          rw [filed, filed', cmp_cons, cmp_self_eq_eq, Ordering.eq_then,
            Bytes.cmp_words (orderedBits_lt _) (orderedBits_lt _), cmp_self_eq_eq,
            Ordering.eq_then]
          exact cmp_eq_cmp (orderedBits_lt_iff (rational_ne_zero hm))
            (orderedBits_lt_iff (rational_ne_zero hn))

end IndexKey

namespace Json

/-- The first byte of a key puts it in its class. -/
theorem exists_first (tree : Json) :
    ∃ (first : UInt8) (rest : Bytes), tree.indexKey = first :: rest ∧
      tree.rank = if first.toNat < 3 then first.toNat else first.toNat - 1 := by
  cases tree with
  | number n =>
      rw [rank_number]
      cases h : n.integer? with
      | some i =>
          obtain ⟨first, word, filed, rfl | rfl⟩ := IndexKey.exists_ofInteger_eq i
          · exact ⟨_, word, (IndexKey.ofNumber_of_integer? h).trans filed, rfl⟩
          · exact ⟨_, word, (IndexKey.ofNumber_of_integer? h).trans filed, rfl⟩
      | none =>
          obtain ⟨x, -, filed⟩ := IndexKey.ofNumber_of_no_integer h
          exact ⟨0x04, _, filed, rfl⟩
  | _ => exact ⟨_, _, rfl, rfl⟩

/-- Trees of different classes are compared by their classes. -/
theorem cmp_indexKey_of_rank_ne {a b : Json} (h : a.rank ≠ b.rank) :
    cmp a.indexKey b.indexKey = cmp a.rank b.rank := by
  obtain ⟨first, rest, ha, rank⟩ := a.exists_first
  obtain ⟨first', rest', hb, rank'⟩ := b.exists_first
  rw [ha, hb, cmp_cons]
  rcases Nat.lt_trichotomy first.toNat first'.toNat with less | same | greater
  · have fewer : a.rank < b.rank := by split at rank <;> split at rank' <;> omega
    rw [cmp_of_lt less, cmp_of_lt fewer]
    rfl
  · rw [rank, rank', same] at h
    exact absurd rfl h
  · have more : b.rank < a.rank := by split at rank <;> split at rank' <;> omega
    rw [cmp_of_gt (Nat.lt_asymm greater) greater, cmp_of_gt (Nat.lt_asymm more) more]
    rfl

/-- Trees whose keys come in order are of classes in order. -/
theorem rank_le_of_indexKey {a b : Json} (h : a.indexKey ≤ b.indexKey) : a.rank ≤ b.rank := by
  by_contra more
  have less : b.rank < a.rank := Nat.lt_of_not_le more
  have compared := cmp_indexKey_of_rank_ne (Nat.ne_of_lt less)
  rw [cmp_of_lt less] at compared
  exact List.not_lt.2 h (lt_of_cmp compared)

/-- A tree whose key lies between those of two numbers is a number. -/
theorem exists_number_of_between {m n : Number} {tree : Json}
    (below : (number m).indexKey ≤ tree.indexKey) (above : tree.indexKey ≤ (number n).indexKey) :
    ∃ x, tree = .number x := by
  have lower := rank_le_of_indexKey below
  have upper := rank_le_of_indexKey above
  rw [rank_number] at lower upper
  cases tree with
  | number x => exact ⟨x, rfl⟩
  | _ =>
      simp only [rank] at lower upper
      split at lower <;> split at upper <;> omega

/-- Trees of the same class are of the same kind. -/
theorem kind_eq_of_rank {a b : Json} (h : a.rank = b.rank) : a.kind = b.kind := by
  have told : ∀ tree : Json,
      [Kind.null, .bool, .number, .number, .string, .array, .object][tree.rank]?
        = some tree.kind := by
    intro tree
    cases tree with
    | number n =>
        rw [rank_number]
        split <;> rfl
    | _ => rfl
  rw [← Option.some.injEq, ← told a, ← told b, h]

/-- Trees of the same class are compared by their values. -/
theorem cmp_indexKey_of_rank_eq {a b : Json} (h : a.rank = b.rank) :
    cmp a.indexKey b.indexKey = a.cmpWithin b := by
  have kind := kind_eq_of_rank h
  -- the first bytes are the same, but for numbers
  have payload : ∀ (first : UInt8) (l m : Bytes), cmp (first :: l) (first :: m) = cmp l m := by
    intro first l m
    rw [cmp_cons, cmp_self_eq_eq, Ordering.eq_then]
  cases a with
  | null =>
      cases b with
      | null => rfl
      | _ => cases kind
  | bool x =>
      cases b with
      | bool y => cases x <;> cases y <;> rfl
      | _ => cases kind
  | number m =>
      cases b with
      | number n =>
          have numbers := IndexKey.cmp_ofNumber m n
          rw [h, cmp_self_eq_eq, Ordering.eq_then] at numbers
          exact numbers
      | _ => cases kind
  | string s =>
      cases b with
      | string t => exact payload _ _ _
      | _ => cases kind
  | array items =>
      cases b with
      | array others => exact payload _ _ _
      | _ => cases kind
  | object members =>
      cases b with
      | object others => exact payload _ _ _
      | _ => cases kind

/-- **The keys of two trees are compared by class, and then by value.**  The classes are, in this
order, null, truth values, numbers that equal an integer from `-2 ^ 63` up to but not including
`2 ^ 64`, all other numbers, strings, arrays, objects.  Within a class false comes before true,
numbers are compared by their exact values, in whichever form they are written, and strings by their
bytes; arrays and objects are compared by their compact texts. -/
theorem cmp_indexKey (a b : Json) :
    cmp a.indexKey b.indexKey = (cmp a.rank b.rank).then (a.cmpWithin b) := by
  by_cases ranks : a.rank = b.rank
  · rw [ranks, cmp_self_eq_eq, Ordering.eq_then]
    exact cmp_indexKey_of_rank_eq ranks
  · rw [cmp_indexKey_of_rank_ne ranks]
    rcases Nat.lt_or_gt_of_ne ranks with less | greater
    · rw [cmp_of_lt less]
      rfl
    · rw [cmp_of_gt (Nat.lt_asymm greater) greater]
      rfl

end Json

/-! ### The order in which numbers are filed -/

namespace IndexKey

/-- The first value is filed before the second one, or with it: integers of 64 bits by their value,
and behind them all other values, by their value. -/
def FiledUpTo (p q : ℚ) : Prop :=
  IsWord p ∧ ¬ IsWord q ∨ (IsWord p ↔ IsWord q) ∧ p ≤ q

/-- **The keys of numbers come in the order in which their values are filed.** -/
theorem ofNumber_le_iff (m n : Number) :
    ofNumber m ≤ ofNumber n ↔ FiledUpTo m.rational n.rational := by
  have less : ofNumber n < ofNumber m ↔ cmp (ofNumber n) (ofNumber m) = .lt :=
    ⟨cmp_of_lt, lt_of_cmp⟩
  have ranks : ∀ n : Number, (Json.number n).rank = if IsWord n.rational then 2 else 3 :=
    fun _ => rfl
  have before : cmp 2 3 = Ordering.lt := rfl
  have behind : cmp 3 2 = Ordering.gt := rfl
  rw [← List.not_lt, less, cmp_ofNumber, ranks, ranks, FiledUpTo]
  by_cases hm : IsWord m.rational <;> by_cases hn : IsWord n.rational
  · rw [if_pos hm, if_pos hn, cmp_self_eq_eq, Ordering.eq_then, cmp_eq_lt_iff]
    simp [hm, hn]
  · rw [if_pos hm, if_neg hn, behind, Ordering.gt_then]
    simp [hm, hn]
  · rw [if_neg hm, if_pos hn, before, Ordering.lt_then]
    simp [hm, hn]
  · rw [if_neg hm, if_neg hn, cmp_self_eq_eq, Ordering.eq_then, cmp_eq_lt_iff]
    simp [hm, hn]

end IndexKey

end DocStore
