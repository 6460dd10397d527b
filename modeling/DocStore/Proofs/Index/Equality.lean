/-
Equal values and their keys.

Two trees are equal as values when they are the same but for the numbers in them, and these have the
same exact values.  Numbers that are equal as values have the same key, but arrays and objects are
filed as their texts, in which an integer and a float, or the two zeros, look different.  So equal
values share a key if they are numbers, and otherwise only if every number in them has the same form
on both sides.

* `Json.Equal` — equality of values, at every depth;
* `Number.Form`, `Json.forms` — what a number looks like, and the forms of all numbers of a tree;
* `Number.eq_of_form` — **a number is its value and its form**;
* `Json.Equal.eq_of_forms` — equal values with the same forms are the same tree;
* `Json.indexKey_eq_iff_forms` — **equal values have the same key exactly if they are numbers, or
  the numbers in them have the same forms.**
-/

import DocStore.Proofs.Index.Keys

set_option autoImplicit false

namespace DocStore

/-! ### Forms of numbers -/

/-- What a number looks like. -/
inductive Number.Form
  /-- It has neither fraction nor exponent. -/
  | integer
  /-- It has a fraction or an exponent, and a sign or none. -/
  | float (negative : Bool)
  deriving DecidableEq

/-- What a number looks like. -/
def Number.form : Number → Form
  | .int _ => .integer
  | .float x => .float x.val.negative

namespace Binary64

/-- All bits of a zero but its sign are zero. -/
theorem fields_eq_zero {x : Binary64} (zero : x.rational = 0) :
    x.exponentField = 0 ∧ x.fraction = 0 := by
  have sign : (if x.negative then -1 else 1 : ℚ) ≠ 0 := by
    split <;> norm_num
  have magnitude : x.dyadic.rational = 0 := (mul_eq_zero.1 zero).resolve_left sign
  have mantissa : x.mantissa = 0 := Dyadic.rational_eq_zero_iff.1 magnitude
  unfold Binary64.mantissa at mantissa
  split at mantissa
  · exact ⟨by assumption, mantissa⟩
  · omega

/-- A float is its value and its sign. -/
theorem eq_of_rational_of_negative {x y : Binary64} (h : x.rational = y.rational)
    (sign : x.negative = y.negative) : x = y := by
  by_cases zero : x.rational = 0
  · obtain ⟨exponent, fraction⟩ := fields_eq_zero zero
    obtain ⟨exponent', fraction'⟩ := fields_eq_zero (h.symm.trans zero)
    have bits : x.bits.toNat = y.bits.toNat := by
      rw [x.toNat_bits, y.toNat_bits, sign, exponent, fraction, exponent', fraction']
    obtain ⟨word⟩ := x
    obtain ⟨word'⟩ := y
    exact congrArg Binary64.mk (UInt64.toNat_inj.1 bits)
  · exact eq_of_rational h zero

end Binary64

/-- **A number is its value and its form.** -/
theorem Number.eq_of_form {m n : Number} (h : m.rational = n.rational) (form : m.form = n.form) :
    m = n := by
  cases m with
  | int i =>
      cases n with
      | int j => exact congrArg Number.int (Integer.eq_of_val (Int.cast_injective h))
      | float y => cases form
  | float x =>
      cases n with
      | int j => cases form
      | float y =>
          obtain ⟨x, _⟩ := x
          obtain ⟨y, _⟩ := y
          obtain rfl : x = y := Binary64.eq_of_rational_of_negative h (Form.float.inj form)
          rfl

namespace Json

/-! ### Equal values -/

mutual

/-- Trees that are equal as values: numbers are compared by their exact values, at every depth. -/
inductive Equal : Json → Json → Prop
  | null : Equal .null .null
  | bool (b : Bool) : Equal (.bool b) (.bool b)
  | number {m n : Number} (same : m.rational = n.rational) : Equal (.number m) (.number n)
  | string (s : String) : Equal (.string s) (.string s)
  | array {items others : List Json} (same : EqualItems items others) :
      Equal (.array items) (.array others)
  | object {members others : List (String × Json)} (same : EqualMembers members others) :
      Equal (.object members) (.object others)

/-- Items that are equal as values, one by one. -/
inductive EqualItems : List Json → List Json → Prop
  | nil : EqualItems [] []
  | cons {item other : Json} {items others : List Json} (first : Equal item other)
      (rest : EqualItems items others) : EqualItems (item :: items) (other :: others)

/-- Members that have the same keys and are equal as values, one by one. -/
inductive EqualMembers : List (String × Json) → List (String × Json) → Prop
  | nil : EqualMembers [] []
  | cons {key : String} {value other : Json} {members others : List (String × Json)}
      (first : Equal value other) (rest : EqualMembers members others) :
      EqualMembers ((key, value) :: members) ((key, other) :: others)

end

mutual

/-- The forms of the numbers in a tree, from left to right. -/
def forms : Json → List Number.Form
  | .number n => [n.form]
  | .array items => formsOfItems items
  | .object members => formsOfMembers members
  | _ => []

/-- The forms of the numbers in some items. -/
def formsOfItems : List Json → List Number.Form
  | [] => []
  | item :: items => item.forms ++ formsOfItems items

/-- The forms of the numbers in some members. -/
def formsOfMembers : List (String × Json) → List Number.Form
  | [] => []
  | (_, value) :: members => value.forms ++ formsOfMembers members

end

mutual

/-- Equal values have as many numbers. -/
theorem Equal.length_forms {a b : Json} (h : a.Equal b) : a.forms.length = b.forms.length := by
  cases h with
  | array same => exact same.length_forms
  | object same => exact same.length_forms
  | _ => rfl

theorem EqualItems.length_forms {items others : List Json} (h : EqualItems items others) :
    (formsOfItems items).length = (formsOfItems others).length := by
  cases h with
  | nil => rfl
  | cons first rest =>
      simp only [formsOfItems, List.length_append, first.length_forms, rest.length_forms]

theorem EqualMembers.length_forms {members others : List (String × Json)}
    (h : EqualMembers members others) :
    (formsOfMembers members).length = (formsOfMembers others).length := by
  cases h with
  | nil => rfl
  | cons first rest =>
      simp only [formsOfMembers, List.length_append, first.length_forms, rest.length_forms]

end

mutual

/-- **Equal values with the same forms of numbers are the same tree.** -/
theorem Equal.eq_of_forms {a b : Json} (h : a.Equal b) (forms : a.forms = b.forms) : a = b := by
  cases h with
  | number same => rw [Number.eq_of_form same (List.singleton_inj.1 forms)]
  | array same => rw [same.eq_of_forms forms]
  | object same => rw [same.eq_of_forms forms]
  | _ => rfl

theorem EqualItems.eq_of_forms {items others : List Json} (h : EqualItems items others)
    (forms : formsOfItems items = formsOfItems others) : items = others := by
  cases h with
  | nil => rfl
  | cons first rest =>
      obtain ⟨here, after⟩ := List.append_inj forms first.length_forms
      rw [first.eq_of_forms here, rest.eq_of_forms after]

theorem EqualMembers.eq_of_forms {members others : List (String × Json)}
    (h : EqualMembers members others) (forms : formsOfMembers members = formsOfMembers others) :
    members = others := by
  cases h with
  | nil => rfl
  | cons first rest =>
      obtain ⟨here, after⟩ := List.append_inj forms first.length_forms
      rw [first.eq_of_forms here, rest.eq_of_forms after]

end

/-- **Equal values have the same key exactly if they are numbers, or the numbers in them have the
same forms**: in an array or an object, an integer is not filed as a float of the same value, nor
one zero as the other. -/
theorem indexKey_eq_iff_forms {a b : Json} (h : a.Equal b) :
    a.indexKey = b.indexKey ↔ a.kind = .number ∨ a.forms = b.forms := by
  constructor
  · intro same
    rcases eq_or_of_indexKey same with rfl | ⟨m, n, rfl, -, -⟩
    · exact .inr rfl
    · exact .inl rfl
  · rintro (kind | forms)
    · cases h with
      | number same => exact (IndexKey.ofNumber_eq_iff _ _).2 same
      | _ => cases kind
    · rw [h.eq_of_forms forms]

/-- The integer one and the float one are equal as values. -/
theorem equal_one : (number (.int ⟨1, by decide, by decide⟩)).Equal
    (number (.float ⟨⟨0x3FF0000000000000⟩, by decide⟩)) := by
  refine .number ?_
  exact ((Number.integer?_eq_some_iff (.float ⟨⟨0x3FF0000000000000⟩, by decide⟩)
    ⟨1, by decide, by decide⟩).1 (by decide)).symm

/-- One as an integer and as a float: the numbers share a key, and the objects with an array of them
do not. -/
theorem indexKey_eq_iff_forms_of_one :
    let one : Json := number (.int ⟨1, by decide, by decide⟩)
    let float : Json := number (.float ⟨⟨0x3FF0000000000000⟩, by decide⟩)
    one.indexKey = float.indexKey ∧
      (object [("n", array [one])]).indexKey ≠ (object [("n", array [float])]).indexKey := by
  refine ⟨(indexKey_eq_iff_forms equal_one).2 (.inl rfl), fun same => ?_⟩
  have inside : (object [("n", array [_])]).Equal (object [("n", array [_])]) :=
    .object (.cons (.array (.cons equal_one .nil)) .nil)
  rcases (indexKey_eq_iff_forms inside).1 same with kind | forms
  · cases kind
  · exact absurd forms (by decide)

/-- The arrays of the integer one and of the float one are equal as values, and have different keys:
`[1]` and `[1.0]`. -/
theorem indexKey_ne_of_equal :
    let one : Json := array [number (.int ⟨1, by decide, by decide⟩)]
    let float : Json := array [number (.float ⟨⟨0x3FF0000000000000⟩, by decide⟩)]
    one.Equal float ∧ one.indexKey ≠ float.indexKey := by
  refine ⟨.array (.cons equal_one .nil), fun same => ?_⟩
  rcases eq_or_of_indexKey same with tree | ⟨_, _, array, -⟩
  · cases tree
  · cases array

end Json

end DocStore
