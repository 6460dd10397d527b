/-
The exact values of numbers.

A finite floating-point number is a whole number times a power of two, and the format writes each
such value in one way: the mantissa is as great as its width allows, unless the exponent is the
least one.  So the value of a float tells its bits, but for the sign of zero.

* `Dyadic.rational`, `Binary64.rational`, `Number.rational` — the values;
* `Dyadic.IsBinary64` — the mantissas and exponents of the 64-bit format;
* `Dyadic.IsBinary64.eq_of_rational` — **of two floats with the same value, the mantissas and the
  exponents are the same**, unless both are zero;
* `Binary64.eq_of_dyadic` — a float is its sign, its mantissa and its exponent;
* `Number.integer?_eq_some_iff` — **a number is filed as an integer exactly if it equals that
  integer.**
-/

import DocStore.IndexKey
import DocStore.Number.Shortest
import Mathlib.Algebra.Order.Field.Power
import Mathlib.Algebra.Order.Field.Rat
import Mathlib.Tactic.FieldSimp
import Mathlib.Tactic.Linarith
import Mathlib.Tactic.NormNum
import Mathlib.Tactic.Positivity
import Mathlib.Tactic.Ring

set_option autoImplicit false

namespace DocStore

/-! ### Binary numbers -/

/-- A power of natural numbers as one of fractions. -/
theorem cast_natPow (base k : Nat) : ((Nat.pow base k : Nat) : ℚ) = base ^ k :=
  Nat.cast_pow base k

namespace Dyadic

/-- The value of a binary number. -/
def rational (x : Dyadic) : ℚ :=
  x.mantissa * 2 ^ x.exponent

/-- A mantissa and an exponent as the 64-bit format has them: the mantissa has at most 53 bits, and
so many unless the exponent is the least one. -/
structure IsBinary64 (x : Dyadic) : Prop where
  lowest : -1074 ≤ x.exponent
  bounded : x.mantissa < 0x20000000000000
  normal : -1074 < x.exponent → 0x10000000000000 ≤ x.mantissa
  least : x.leastOfBinade = true ↔ x.mantissa = 0x10000000000000 ∧ -1074 < x.exponent

theorem rational_nonneg (x : Dyadic) : 0 ≤ x.rational := by
  unfold rational
  positivity

theorem rational_eq_zero_iff {x : Dyadic} : x.rational = 0 ↔ x.mantissa = 0 := by
  have power : (2 : ℚ) ^ x.exponent ≠ 0 := by positivity
  rw [rational, mul_eq_zero, or_iff_left power, Nat.cast_eq_zero]

/-- The value over the unit of a smaller exponent. -/
theorem rational_eq_of_exponent {x : Dyadic} {e : Int} {k : Nat} (h : x.exponent = e + k) :
    x.rational = (x.mantissa * 2 ^ k : Nat) * 2 ^ e := by
  have two : (2 : ℚ) ≠ 0 := by norm_num
  rw [rational, h, zpow_add₀ two, zpow_natCast]
  push_cast
  ring

/-- A float with a smaller exponent has a smaller value. -/
theorem IsBinary64.rational_lt {x y : Dyadic} (hx : x.IsBinary64) (hy : y.IsBinary64)
    (h : x.exponent < y.exponent) : x.rational < y.rational := by
  obtain ⟨k, hk⟩ : ∃ k : Nat, y.exponent = x.exponent + (k + 1 : Nat) :=
    ⟨(y.exponent - x.exponent - 1).toNat, by omega⟩
  have bounded := hx.bounded
  have normal := hy.normal (by have := hx.lowest; omega)
  have power : 1 ≤ 2 ^ k := Nat.one_le_two_pow
  have less : x.mantissa < y.mantissa * 2 ^ (k + 1) := by
    rw [pow_succ]
    calc x.mantissa < 0x10000000000000 * (1 * 2) := by omega
      _ ≤ y.mantissa * (2 ^ k * 2) := Nat.mul_le_mul normal (Nat.mul_le_mul_right 2 power)
  rw [rational_eq_of_exponent hk, rational]
  have unit : (0 : ℚ) < 2 ^ x.exponent := by positivity
  exact mul_lt_mul_of_pos_right (by exact_mod_cast less) unit

/-- **Of two floats with the same value, the mantissas and the exponents are the same.** -/
theorem IsBinary64.eq_of_rational {x y : Dyadic} (hx : x.IsBinary64) (hy : y.IsBinary64)
    (h : x.rational = y.rational) (nonzero : x.mantissa ≠ 0) : x = y := by
  have exponents : x.exponent = y.exponent := by
    rcases lt_trichotomy x.exponent y.exponent with lt | eq | gt
    · exact absurd h (hx.rational_lt hy lt).ne
    · exact eq
    · exact absurd h (hy.rational_lt hx gt).ne'
  have mantissas : x.mantissa = y.mantissa := by
    have unit : (2 : ℚ) ^ y.exponent ≠ 0 := by positivity
    rw [rational, rational, exponents] at h
    exact_mod_cast mul_right_cancel₀ unit h
  obtain ⟨m, e, least⟩ := x
  obtain ⟨n, f, least'⟩ := y
  obtain rfl : m = n := mantissas
  obtain rfl : e = f := exponents
  congr 1
  exact Bool.eq_iff_iff.2 (hx.least.trans hy.least.symm)

end Dyadic

/-! ### Floats -/

namespace Binary64

/-- The magnitude of a float. -/
def dyadic (x : Binary64) : Dyadic :=
  ⟨x.mantissa, x.exponent, decide (x.fraction = 0 ∧ 1 < x.exponentField)⟩

/-- The value of a finite float. -/
def rational (x : Binary64) : ℚ :=
  (if x.negative then -1 else 1) * x.dyadic.rational

/-- The word of a float is put together from its fields. -/
theorem toNat_bits (x : Binary64) : x.bits.toNat
    = (if x.negative then 0x8000000000000000 else 0) + x.exponentField * 0x10000000000000
      + x.fraction := by
  have := x.bits.toNat_lt
  unfold negative exponentField fraction
  split <;> simp_all <;> omega

theorem isBinary64 (x : Binary64) : x.dyadic.IsBinary64 := by
  have fraction : x.fraction < 0x10000000000000 := Nat.mod_lt _ (by decide)
  have mantissa : x.dyadic.mantissa = x.mantissa := rfl
  have exponent : x.dyadic.exponent = x.exponent := rfl
  refine ⟨?_, ?_, ?_, ?_⟩
  · rw [exponent, Binary64.exponent]
    omega
  · rw [mantissa, Binary64.mantissa]
    split <;> omega
  · rw [exponent, mantissa, Binary64.exponent, Binary64.mantissa]
    intro h
    rw [if_neg (by omega)]
    omega
  · rw [exponent, mantissa, Binary64.exponent, Binary64.mantissa]
    change decide (x.fraction = 0 ∧ 1 < x.exponentField) = true ↔ _
    rw [decide_eq_true_iff]
    split <;> omega

/-- **A float is its sign, its mantissa and its exponent.** -/
theorem eq_of_dyadic {x y : Binary64} (sign : x.negative = y.negative) (h : x.dyadic = y.dyadic) :
    x = y := by
  have mantissa : x.mantissa = y.mantissa := congrArg Dyadic.mantissa h
  have exponent : x.exponent = y.exponent := congrArg Dyadic.exponent h
  have fraction : x.fraction < 0x10000000000000 := Nat.mod_lt _ (by decide)
  have fraction' : y.fraction < 0x10000000000000 := Nat.mod_lt _ (by decide)
  have fields : x.exponentField = y.exponentField ∧ x.fraction = y.fraction := by
    unfold Binary64.mantissa at mantissa
    unfold Binary64.exponent at exponent
    split at mantissa <;> split at mantissa <;> omega
  have bits : x.bits.toNat = y.bits.toNat := by
    rw [x.toNat_bits, y.toNat_bits, sign, fields.1, fields.2]
  obtain ⟨word⟩ := x
  obtain ⟨word'⟩ := y
  exact congrArg Binary64.mk (UInt64.toNat_inj.1 bits)

/-- The value of a float tells the float, but for the sign of zero. -/
theorem eq_of_rational {x y : Binary64} (h : x.rational = y.rational) (nonzero : x.rational ≠ 0) :
    x = y := by
  have hx := x.dyadic.rational_nonneg
  have hy := y.dyadic.rational_nonneg
  have positive : 0 < x.dyadic.rational := by
    refine lt_of_le_of_ne hx fun zero => nonzero ?_
    rw [rational, ← zero, mul_zero]
  -- a negative value and a positive one are not the same
  have both : x.negative = y.negative ∧ x.dyadic.rational = y.dyadic.rational := by
    unfold rational at h
    cases hn : x.negative <;> cases hm : y.negative <;> simp [hn, hm] at h ⊢ <;> linarith
  refine eq_of_dyadic both.1 (x.isBinary64.eq_of_rational y.isBinary64 both.2 ?_)
  exact fun zero => positive.ne' (Dyadic.rational_eq_zero_iff.2 zero)

/-- A fraction with a power of two is whole exactly if the power divides it. -/
theorem div_eq_iff_mod {m unit : Nat} (positive : 0 < unit) (n : Int) :
    (m : ℚ) / unit = n ↔ m % unit = 0 ∧ ((m / unit : Nat) : Int) = n := by
  have unit_ne : (unit : ℚ) ≠ 0 := by exact_mod_cast positive.ne'
  rw [div_eq_iff unit_ne]
  constructor
  · intro h
    have whole : (m : Int) = n * unit := by exact_mod_cast h
    have divides : (unit : Int) ∣ m := ⟨n, by rw [whole, mul_comm]⟩
    refine ⟨Nat.mod_eq_zero_of_dvd (Int.natCast_dvd_natCast.1 divides), ?_⟩
    rw [Int.natCast_div, whole, Int.mul_ediv_cancel _ (by omega)]
  · rintro ⟨divides, rfl⟩
    have whole : m = m / unit * unit := (Nat.div_mul_cancel (Nat.dvd_of_mod_eq_zero divides)).symm
    exact_mod_cast whole

/-- **The integer that a float equals is that of its value.** -/
theorem toInt?_eq_some_iff (x : Binary64) (n : Int) : x.toInt? = some n ↔ x.rational = n := by
  have magnitude : x.dyadic.rational = x.mantissa * 2 ^ x.exponent := rfl
  have sign : ∀ q : ℚ, ((if x.negative then -1 else 1) * q = n
      ↔ q = (((if x.negative then -1 else 1 : Int) * n : Int) : ℚ)) := by
    intro q
    cases x.negative
    · simp
    · simp [neg_eq_iff_eq_neg]
  have sign' : ∀ m : Int, ((if x.negative then -1 else 1) * m = n
      ↔ m = (if x.negative then -1 else 1 : Int) * n) := by
    intro m
    cases x.negative
    · simp
    · simp; omega
  rw [rational, magnitude, sign, toInt?]
  by_cases whole : 0 ≤ x.exponent
  · obtain ⟨k, hk⟩ := Int.eq_ofNat_of_zero_le whole
    have value : (x.mantissa : ℚ) * 2 ^ x.exponent
        = ((x.mantissa * Nat.pow 2 x.exponent.toNat : Nat) : Int) := by
      rw [hk, Int.toNat_natCast, zpow_natCast, Int.cast_natCast, Nat.cast_mul, cast_natPow,
        Nat.cast_ofNat]
    rw [if_pos whole, Option.some.injEq, sign', value, Int.cast_inj]
  · obtain ⟨k, hk⟩ : ∃ k : Nat, -x.exponent = k := Int.eq_ofNat_of_zero_le (by omega)
    have value : (x.mantissa : ℚ) * 2 ^ x.exponent
        = (x.mantissa : ℚ) / (Nat.pow 2 (-x.exponent).toNat : Nat) := by
      have negated : x.exponent = -(k : Int) := by omega
      rw [hk, Int.toNat_natCast, negated, zpow_neg, zpow_natCast, div_eq_mul_inv, cast_natPow,
        Nat.cast_ofNat]
    have positive : 0 < Nat.pow 2 (-x.exponent).toNat := Nat.pow_pos (by decide)
    rw [if_neg whole, value, div_eq_iff_mod positive]
    dsimp only
    split
    · rename_i divides
      rw [Option.some.injEq, sign', and_iff_right divides]
    · rename_i other
      exact iff_of_false (fun none => nomatch none) fun h => other h.1

end Binary64

/-! ### Numbers -/

/-- The exact value of a number. -/
def Number.rational : Number → ℚ
  | .int n => n.val
  | .float x => x.val.rational

theorem Integer.eq_of_val {m n : Integer} (h : m.val = n.val) : m = n := by
  obtain ⟨val, _, _⟩ := m
  obtain ⟨val', _, _⟩ := n
  obtain rfl : val = val' := h
  rfl

/-- **A number is filed as an integer exactly if it equals that integer.** -/
theorem Number.integer?_eq_some_iff (n : Number) (i : Integer) :
    n.integer? = some i ↔ n.rational = i.val := by
  cases n with
  | int m =>
      rw [integer?, Option.some.injEq, rational, Int.cast_inj]
      exact ⟨fun same => congrArg Integer.val same, Integer.eq_of_val⟩
  | float x =>
      rw [integer?, Binary64.integer?, if_pos x.isFinite, rational, Option.bind_eq_some_iff]
      constructor
      · rintro ⟨m, whole, fits⟩
        rw [Integer.val_of_ofInt? fits]
        exact (x.val.toInt?_eq_some_iff m).1 whole
      · intro h
        exact ⟨i.val, (x.val.toInt?_eq_some_iff i.val).2 h, Integer.ofInt?_val i⟩

/-- Numbers of the same value equal the same integer, or none. -/
theorem Number.integer?_congr {m n : Number} (h : m.rational = n.rational) :
    m.integer? = n.integer? := by
  refine Option.ext fun i => ?_
  rw [integer?_eq_some_iff, integer?_eq_some_iff, h]

/-- Floats of the same value that equal no integer are the same: they are not zero. -/
theorem Finite64.eq_of_rational {x y : Finite64} (h : x.val.rational = y.val.rational)
    (none : (Number.float x).integer? = none) : x = y := by
  have nonzero : x.val.rational ≠ 0 := by
    intro zero
    have whole := ((Number.float x).integer?_eq_some_iff (.ofUInt64 0)).2 zero
    rw [none] at whole
    cases whole
  obtain ⟨x, _⟩ := x
  obtain ⟨y, _⟩ := y
  obtain rfl : x = y := Binary64.eq_of_rational h nonzero
  rfl

end DocStore
