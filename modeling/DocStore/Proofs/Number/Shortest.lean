/-
The shortest decimal of a number tells the number.

The decimals that round to a float make up an interval around it, which reaches half the gap to its
neighbours on either side.  The intervals of two floats meet in an end point at most, and then one
of the two mantissas is odd, so that the end point does not round to it.  The decimal that is chosen
for a float is in its interval, because the grid of 17 digits is finer than the interval is wide; so
different floats have different decimals.

* `Decimal.rational` — the value of a decimal;
* `Dyadic.Covers` — a value rounds to a float;
* `Dyadic.rounds_iff` — the test of the printer, in terms of values;
* `Dyadic.covers_of_onGrid?`, `Dyadic.exists_onGrid?` — a grid gives a decimal that rounds to the
  float, if there is one on it;
* `Dyadic.IsBinary64.exists_covers` — **17 digits are enough;**
* `Dyadic.IsBinary64.covers_shortest` — the shortest decimal rounds to the float;
* `Dyadic.IsBinary64.eq_of_covers` — **no value rounds to two floats;**
* `Dyadic.IsBinary64.eq_of_shortest` — **different floats have different shortest decimals.**
-/

import DocStore.Proofs.Number.Values
import Mathlib.Algebra.Order.Floor.Semifield
import Mathlib.Data.Rat.Floor

set_option autoImplicit false

namespace DocStore

/-! ### Decimals -/

/-- A power with an integer exponent, as a quotient of powers of natural numbers. -/
theorem zpow_mul_toNat {base : ℚ} (nonzero : base ≠ 0) (k : Int) :
    base ^ k * base ^ (-k).toNat = base ^ k.toNat := by
  rw [← zpow_natCast, ← zpow_natCast, ← zpow_add₀ nonzero]
  congr 1
  omega

namespace Decimal

/-- The value of a decimal. -/
def rational (d : Decimal) : ℚ :=
  d.digits * 10 ^ d.place

/-- Trailing zeros do not count. -/
theorem rational_trim (fuel : Nat) (d : Decimal) : (trim fuel d).rational = d.rational := by
  induction fuel generalizing d with
  | zero => rfl
  | succ fuel ih =>
      rw [trim]
      split
      · rename_i zero
        have whole : d.digits = d.digits / 10 * 10 :=
          (Nat.div_mul_cancel (Nat.dvd_of_mod_eq_zero zero)).symm
        rw [ih, rational, rational, zpow_add₀ (by norm_num), zpow_one]
        conv_rhs => rw [whole]
        push_cast
        ring
      · rfl

/-- A number is at least the power of ten that its length tells. -/
theorem pow_length_le {n : Nat} (positive : 0 < n) : 10 ^ (length n - 1) ≤ n := by
  by_contra less
  have some : 0 < length n := Nat.length_toDigits_pos
  by_cases one : length n = 1
  · rw [one] at less
    exact less (by omega)
  · have shorter := (Nat.length_toDigits_le_iff (b := 10) (n := n) (k := length n - 1) (by decide)
      (by omega)).2 (not_le.1 less)
    have : length n ≤ length n - 1 := shorter
    omega

end Decimal

namespace Dyadic

/-! ### Intervals -/

/-- A quarter of the last place of a number. -/
def quarter (x : Dyadic) : ℚ :=
  2 ^ (x.exponent - 2)

/-- The lower end of the values that round to a number: half the gap below it. -/
def lowerEnd (x : Dyadic) : ℚ :=
  (4 * x.mantissa - if x.leastOfBinade then 1 else 2) * x.quarter

/-- The upper end of the values that round to a number. -/
def upperEnd (x : Dyadic) : ℚ :=
  (4 * x.mantissa + 2) * x.quarter

/-- A value rounds to a number: it is between the two ends, and inside them if the mantissa is
odd. -/
structure Covers (x : Dyadic) (q : ℚ) : Prop where
  lower : x.lowerEnd ≤ q
  upper : q ≤ x.upperEnd
  odd : x.mantissa % 2 ≠ 0 → x.lowerEnd < q ∧ q < x.upperEnd

variable {x y : Dyadic}

theorem quarter_pos (x : Dyadic) : 0 < x.quarter := by
  unfold quarter
  positivity

/-- The last place of a number with a greater exponent. -/
theorem quarter_of_exponent {k : Nat} (h : y.exponent = x.exponent + k) :
    y.quarter = 2 ^ k * x.quarter := by
  have sum : y.exponent - 2 = k + (x.exponent - 2) := by omega
  rw [quarter, quarter, sum, zpow_add₀ (by norm_num), zpow_natCast]

theorem rational_eq_quarter (x : Dyadic) : x.rational = 4 * x.mantissa * x.quarter := by
  rw [rational, quarter, zpow_sub₀ (by norm_num)]
  norm_num
  ring

theorem lowerEnd_lt (x : Dyadic) : x.lowerEnd < x.rational := by
  rw [rational_eq_quarter, lowerEnd]
  refine mul_lt_mul_of_pos_right ?_ x.quarter_pos
  split <;> linarith

theorem lt_upperEnd (x : Dyadic) : x.rational < x.upperEnd := by
  rw [rational_eq_quarter, upperEnd]
  exact mul_lt_mul_of_pos_right (by linarith) x.quarter_pos

theorem lowerEnd_pos (positive : 0 < x.mantissa) : 0 < x.lowerEnd := by
  have one : (1 : ℚ) ≤ x.mantissa := by exact_mod_cast positive
  unfold lowerEnd
  refine mul_pos ?_ x.quarter_pos
  split <;> linarith

/-- What is inside the two ends rounds to the number. -/
theorem covers_of_lt {q : ℚ} (lower : x.lowerEnd < q) (upper : q < x.upperEnd) : x.Covers q :=
  ⟨lower.le, upper.le, fun _ => ⟨lower, upper⟩⟩

/-- What is between a value that rounds to the number and the number itself does so too. -/
theorem Covers.of_between {q r : ℚ} (h : x.Covers q)
    (between : q ≤ r ∧ r ≤ x.rational ∨ x.rational ≤ r ∧ r ≤ q) : x.Covers r := by
  have low := x.lowerEnd_lt
  have high := x.lt_upperEnd
  rcases between with ⟨above, below⟩ | ⟨above, below⟩
  · refine ⟨h.lower.trans above, (below.trans_lt high).le, fun odd => ⟨?_, below.trans_lt high⟩⟩
    exact (h.odd odd).1.trans_le above
  · refine ⟨(low.trans_le above).le, below.trans h.upper, fun odd => ⟨low.trans_le above, ?_⟩⟩
    exact below.trans_lt (h.odd odd).2

/-! ### The test of the printer -/

/-- The number over which the printer compares values with the points of a grid. -/
def denominator (x : Dyadic) (place : Int) : ℚ :=
  x.scale * 10 ^ (-place).toNat

theorem denominator_pos (x : Dyadic) (place : Int) : 0 < x.denominator place := by
  rw [denominator, scale, cast_natPow]
  positivity

theorem quarter_mul_scale (x : Dyadic) : x.quarter * x.scale = x.factor := by
  have split := zpow_mul_toNat (by norm_num : (2 : ℚ) ≠ 0) (x.exponent - 2)
  rw [quarter, scale, factor, cast_natPow, cast_natPow, Nat.cast_ofNat, ← split]
  congr 3
  omega

/-- What the printer computes for a multiple of a quarter of the last place. -/
theorem quarters_mul_denominator (x : Dyadic) (place : Int) (q : ℚ) :
    q * x.quarter * x.denominator place = q * x.factor * 10 ^ (-place).toNat := by
  rw [denominator, ← quarter_mul_scale]
  ring

theorem rational_mul_denominator (x : Dyadic) (place : Int) :
    x.rational * x.denominator place = (x.value * Nat.pow 10 (-place).toNat : Nat) := by
  rw [rational_eq_quarter, quarters_mul_denominator, Nat.cast_mul, cast_natPow, value]
  push_cast
  rfl

theorem lowerEnd_mul_denominator (positive : 0 < x.mantissa) (place : Int) :
    x.lowerEnd * x.denominator place = (x.lower * Nat.pow 10 (-place).toNat : Nat) := by
  have subtrahend : (if x.leastOfBinade then 1 else 2) ≤ 4 * x.mantissa := by split <;> omega
  rw [lowerEnd, quarters_mul_denominator, Nat.cast_mul, cast_natPow, lower, Nat.cast_mul,
    Nat.cast_sub subtrahend]
  push_cast
  rfl

theorem upperEnd_mul_denominator (x : Dyadic) (place : Int) :
    x.upperEnd * x.denominator place = (x.upper * Nat.pow 10 (-place).toNat : Nat) := by
  rw [upperEnd, quarters_mul_denominator, Nat.cast_mul, cast_natPow, upper]
  push_cast
  rfl

/-- What the printer computes for a point of the grid. -/
theorem point_mul_denominator (x : Dyadic) (place : Int) (n : Nat) :
    n * 10 ^ place * x.denominator place = (n * (x.scale * Nat.pow 10 place.toNat) : Nat) := by
  have ten := zpow_mul_toNat (by norm_num : (10 : ℚ) ≠ 0) place
  rw [Nat.cast_mul, Nat.cast_mul, cast_natPow, Nat.cast_ofNat, ← ten, denominator]
  ring

/-- The test compares whole numbers over the common denominator. -/
theorem rounds_iff (positive : 0 < x.mantissa) (place : Int) (n : Nat) :
    x.rounds (x.lower * Nat.pow 10 (-place).toNat) (x.upper * Nat.pow 10 (-place).toNat)
        (n * (x.scale * Nat.pow 10 place.toNat)) = true
      ↔ x.Covers (n * 10 ^ place) := by
  have unit := x.denominator_pos place
  have lower := lowerEnd_mul_denominator positive place
  have upper := x.upperEnd_mul_denominator place
  have point := x.point_mul_denominator place n
  have le_lower : x.lower * Nat.pow 10 (-place).toNat ≤ n * (x.scale * Nat.pow 10 place.toNat)
      ↔ x.lowerEnd ≤ n * 10 ^ place := by
    rw [← Nat.cast_le (α := ℚ), ← lower, ← point, mul_le_mul_iff_left₀ unit]
  have le_upper : n * (x.scale * Nat.pow 10 place.toNat) ≤ x.upper * Nat.pow 10 (-place).toNat
      ↔ n * 10 ^ place ≤ x.upperEnd := by
    rw [← Nat.cast_le (α := ℚ), ← upper, ← point, mul_le_mul_iff_left₀ unit]
  have lt_lower : x.lower * Nat.pow 10 (-place).toNat < n * (x.scale * Nat.pow 10 place.toNat)
      ↔ x.lowerEnd < n * 10 ^ place := by
    rw [← Nat.cast_lt (α := ℚ), ← lower, ← point, mul_lt_mul_iff_left₀ unit]
  have lt_upper : n * (x.scale * Nat.pow 10 place.toNat) < x.upper * Nat.pow 10 (-place).toNat
      ↔ n * 10 ^ place < x.upperEnd := by
    rw [← Nat.cast_lt (α := ℚ), ← upper, ← point, mul_lt_mul_iff_left₀ unit]
  unfold rounds
  split
  · rename_i even
    rw [decide_eq_true_iff, le_lower, le_upper]
    exact ⟨fun h => ⟨h.1, h.2, fun odd => absurd even odd⟩, fun h => ⟨h.lower, h.upper⟩⟩
  · rename_i odd
    rw [decide_eq_true_iff, lt_lower, lt_upper]
    exact ⟨fun h => covers_of_lt h.1 h.2, fun h => h.odd odd⟩

/-! ### Grids -/

/-- A decimal that a grid gives is on the grid, and rounds to the number. -/
theorem covers_of_onGrid? (positive : 0 < x.mantissa) {place : Int} {d : Decimal}
    (h : x.onGrid? place = some d) : x.Covers d.rational := by
  unfold onGrid? at h
  dsimp only at h
  split at h
  · cases h
  · rename_i below _
    obtain rfl := Option.some.inj h
    exact (rounds_iff positive place _).1 below
  · rename_i _ above
    obtain rfl := Option.some.inj h
    exact (rounds_iff positive place _).1 above
  · rename_i below above
    split at h
    · obtain rfl := Option.some.inj h
      exact (rounds_iff positive place _).1 below
    · obtain rfl := Option.some.inj h
      exact (rounds_iff positive place _).1 above

/-- The grid points next to a number. -/
theorem between_neighbours (x : Dyadic) (place : Int) :
    let below := x.value * Nat.pow 10 (-place).toNat / (x.scale * Nat.pow 10 place.toNat)
    (below : ℚ) * 10 ^ place ≤ x.rational ∧ x.rational < (below + 1 : Nat) * 10 ^ place := by
  intro below
  have unit := x.denominator_pos place
  have positive : 0 < x.scale * Nat.pow 10 place.toNat :=
    Nat.mul_pos (Nat.pow_pos (by decide)) (Nat.pow_pos (by decide))
  constructor
  · rw [← mul_le_mul_iff_left₀ unit, point_mul_denominator, rational_mul_denominator, Nat.cast_le]
    exact Nat.div_mul_le_self _ _
  · rw [← mul_lt_mul_iff_left₀ unit, point_mul_denominator, rational_mul_denominator, Nat.cast_lt]
    exact Nat.lt_mul_of_div_lt (Nat.lt_succ_self below) positive

/-- The whole part of a number whose point is moved to the right. -/
theorem shifted_le (x : Dyadic) (places : Nat) :
    ((x.value * Nat.pow 10 places / x.scale : Nat) : ℚ) * 10 ^ (-places : Int) ≤ x.rational := by
  have down := (x.between_neighbours (-places)).1
  have up : (-(-places : Int)).toNat = places := by omega
  have none : (-places : Int).toNat = 0 := by omega
  have one : x.scale * Nat.pow 10 0 = x.scale := Nat.mul_one x.scale
  rwa [up, none, one] at down

/-- A grid gives a decimal, if any of its points rounds to the number: then one of the two next to
the number does so. -/
theorem exists_onGrid? (positive : 0 < x.mantissa) {place : Int} {n : Nat}
    (h : x.Covers (n * 10 ^ place)) : ∃ d, x.onGrid? place = some d := by
  obtain ⟨down, up⟩ := x.between_neighbours place
  have ten : (0 : ℚ) < 10 ^ place := by positivity
  generalize hb : x.value * Nat.pow 10 (-place).toNat / (x.scale * Nat.pow 10 place.toNat)
    = below at down up
  have near : x.Covers (below * 10 ^ place) ∨ x.Covers ((below + 1 : Nat) * 10 ^ place) := by
    rcases Nat.lt_or_ge below n with above | under
    · refine Or.inr (h.of_between (Or.inr ⟨up.le, ?_⟩))
      exact mul_le_mul_of_nonneg_right (by exact_mod_cast above) ten.le
    · refine Or.inl (h.of_between (Or.inl ⟨?_, down⟩))
      exact mul_le_mul_of_nonneg_right (by exact_mod_cast under) ten.le
  rw [← rounds_iff positive, ← rounds_iff positive] at near
  unfold onGrid?
  dsimp only
  rw [hb]
  split
  · rename_i no no'
    rw [no, no'] at near
    rcases near with near | near <;> cases near
  · exact ⟨_, rfl⟩
  · exact ⟨_, rfl⟩
  · split
    · exact ⟨_, rfl⟩
    · exact ⟨_, rfl⟩

/-! ### The shortest decimal -/

namespace IsBinary64

/-- The exponent of the leading digit is not too great. -/
theorem zpow_leadingPlace_le (hx : x.IsBinary64) (positive : 0 < x.mantissa) :
    (10 : ℚ) ^ x.leadingPlace ≤ x.rational := by
  have down := x.shifted_le 400
  -- the number has a digit before the point once it is shifted by 400 places
  have large : (10 : ℚ) ^ (-(400 : Nat) : Int) ≤ x.rational := by
    have least : (2 : ℚ) ^ (-1074 : Int) ≤ 2 ^ x.exponent :=
      zpow_le_zpow_right₀ (by norm_num) hx.lowest
    have one : (1 : ℚ) ≤ x.mantissa := by exact_mod_cast positive
    have power : (2 : ℚ) ^ 1074 ≤ 10 ^ 400 := by
      calc (2 : ℚ) ^ 1074 ≤ 2 ^ (3 * 400) := pow_le_pow_right₀ (by norm_num) (by decide)
        _ = (2 ^ 3) ^ 400 := pow_mul 2 3 400
        _ ≤ 10 ^ 400 := pow_le_pow_left₀ (by norm_num) (by norm_num) 400
    calc (10 : ℚ) ^ (-(400 : Nat) : Int) = (10 ^ 400)⁻¹ := zpow_neg_coe_of_pos 10 (by decide)
      _ ≤ (2 ^ 1074)⁻¹ := inv_anti₀ (by positivity) power
      _ = 2 ^ (-1074 : Int) := (zpow_neg_coe_of_pos 2 (by decide)).symm
      _ ≤ 2 ^ x.exponent := least
      _ = 1 * 2 ^ x.exponent := (one_mul _).symm
      _ ≤ x.mantissa * 2 ^ x.exponent := mul_le_mul_of_nonneg_right one (by positivity)
  unfold leadingPlace
  generalize hp : (400 : Nat) = places at down large ⊢
  generalize x.value * Nat.pow 10 places / x.scale = n at down ⊢
  rcases Nat.eq_zero_or_pos n with rfl | some
  · have place : (Decimal.length 0 : Int) - 401 = -places := by
      have zero : Decimal.length 0 = 1 := rfl
      omega
    rw [place]
    exact large
  · have power := Decimal.pow_length_le some
    have digits : 0 < Decimal.length n := Nat.length_toDigits_pos
    have place : (Decimal.length n : Int) - 401 = (Decimal.length n - 1 : Nat) + -places := by
      omega
    rw [place, zpow_add₀ (by norm_num), zpow_natCast]
    refine le_trans (mul_le_mul_of_nonneg_right ?_ (by positivity)) down
    exact_mod_cast power

/-- **17 digits are enough:** the grid of so many digits is finer than the interval is wide. -/
theorem exists_covers (hx : x.IsBinary64) (positive : 0 < x.mantissa) :
    ∃ n : Nat, x.Covers (n * 10 ^ (x.leadingPlace - 16)) := by
  have leading := hx.zpow_leadingPlace_le positive
  have quarter := x.quarter_pos
  have bounded : (x.mantissa : ℚ) < 0x20000000000000 := by exact_mod_cast hx.bounded
  have least : x.leastOfBinade = true → (x.mantissa : ℚ) = 0x10000000000000 := fun h => by
    exact_mod_cast (hx.least.1 h).1
  have step : (10 : ℚ) ^ (x.leadingPlace - 16) = 10 ^ x.leadingPlace / 10000000000000000 := by
    rw [zpow_sub₀ (by norm_num)]
    norm_num
  have fine : (10 : ℚ) ^ (x.leadingPlace - 16) < x.upperEnd - x.lowerEnd := by
    rw [step, div_lt_iff₀ (by norm_num)]
    refine leading.trans_lt ?_
    rw [rational_eq_quarter, upperEnd, lowerEnd, ← sub_mul, mul_right_comm _ x.quarter]
    refine mul_lt_mul_of_pos_right ?_ quarter
    split
    · rename_i lowest
      rw [least lowest]
      norm_num
    · linarith
  have unit : (0 : ℚ) < 10 ^ (x.leadingPlace - 16) := by positivity
  have lower := lowerEnd_pos positive
  generalize (10 : ℚ) ^ (x.leadingPlace - 16) = gap at *
  -- the first point of the grid above the lower end is below the upper one
  refine ⟨⌊x.lowerEnd / gap⌋₊ + 1, covers_of_lt ?_ ?_⟩
  · rw [← div_lt_iff₀ unit]
    push_cast
    exact Nat.lt_floor_add_one _
  · have floor := Nat.floor_le (div_nonneg lower.le unit.le)
    rw [le_div_iff₀ unit] at floor
    push_cast
    rw [add_mul, one_mul]
    linarith

/-- **The shortest decimal rounds to the float.** -/
theorem covers_shortest (hx : x.IsBinary64) (positive : 0 < x.mantissa) :
    x.Covers x.shortest.rational := by
  obtain ⟨n, h⟩ := hx.exists_covers positive
  obtain ⟨d, last⟩ := exists_onGrid? positive h
  unfold shortest
  dsimp only
  rw [Decimal.rational_trim]
  -- the last grid has a decimal, so that there is a first one that has one
  have found : ((List.range 17).findSome? fun (n : Nat) => x.onGrid? (x.leadingPlace - n)).isSome
      = true := by
    rw [List.findSome?_isSome_iff]
    exact ⟨16, by simp, by rw [Nat.cast_ofNat, last]; rfl⟩
  obtain ⟨first, hf⟩ := Option.isSome_iff_exists.1 found
  obtain ⟨k, -, hk⟩ := List.exists_of_findSome?_eq_some hf
  rw [hf, Option.getD_some]
  exact covers_of_onGrid? positive hk

/-! ### Different floats -/

/-- The interval of a float whose exponent is not the least one begins no lower than just below the
least mantissa of that exponent. -/
theorem le_lowerEnd (hx : x.IsBinary64) (h : -1074 < x.exponent) :
    0x3FFFFFFFFFFFFF * x.quarter ≤ x.lowerEnd := by
  refine mul_le_mul_of_nonneg_right ?_ x.quarter_pos.le
  have normal := hx.normal h
  split
  · have least : (0x10000000000000 : ℚ) ≤ x.mantissa := by exact_mod_cast normal
    linarith
  · rename_i more
    have next : 0x10000000000001 ≤ x.mantissa := by
      by_contra less
      exact more (hx.least.2 ⟨by omega, h⟩)
    have next : (0x10000000000001 : ℚ) ≤ x.mantissa := by exact_mod_cast next
    linarith

/-- The interval of a float ends where that of a greater one begins, or before; if the two meet, one
of the mantissas is odd. -/
theorem upperEnd_le (hx : x.IsBinary64) (hy : y.IsBinary64) (h : x.rational < y.rational) :
    x.upperEnd ≤ y.lowerEnd ∧
      (x.mantissa % 2 = 0 → y.mantissa % 2 = 0 → x.upperEnd < y.lowerEnd) := by
  have quarter := x.quarter_pos
  rcases lt_trichotomy x.exponent y.exponent with lt | eq | gt
  · -- all mantissas of the smaller exponent are used up before the greater one begins
    obtain ⟨k, hk⟩ : ∃ k : Nat, y.exponent = x.exponent + (k + 1 : Nat) :=
      ⟨(y.exponent - x.exponent - 1).toNat, by omega⟩
    have power : (1 : ℚ) ≤ 2 ^ k := one_le_pow₀ (by norm_num)
    have above : (0x7FFFFFFFFFFFFE : ℚ) * x.quarter ≤ y.lowerEnd := by
      calc (0x7FFFFFFFFFFFFE : ℚ) * x.quarter
          = 0x3FFFFFFFFFFFFF * (1 * 2 * x.quarter) := by ring
        _ ≤ 0x3FFFFFFFFFFFFF * (2 ^ k * 2 * x.quarter) := by gcongr
        _ = 0x3FFFFFFFFFFFFF * y.quarter := by rw [quarter_of_exponent hk, pow_succ]
        _ ≤ y.lowerEnd := hy.le_lowerEnd (by have := hx.lowest; omega)
    have bounded := hx.bounded
    refine ⟨le_trans ?_ above, fun even _ => lt_of_lt_of_le ?_ above⟩
    · have most : (x.mantissa : ℚ) ≤ 0x1FFFFFFFFFFFFF := by exact_mod_cast Nat.le_of_lt_succ bounded
      rw [upperEnd]
      exact mul_le_mul_of_nonneg_right (by linarith) quarter.le
    · have most : (x.mantissa : ℚ) ≤ 0x1FFFFFFFFFFFFE := by
        exact_mod_cast (by omega : x.mantissa ≤ 0x1FFFFFFFFFFFFE)
      rw [upperEnd]
      exact mul_lt_mul_of_pos_right (by linarith) quarter
  · have unit : y.quarter = x.quarter := by rw [Dyadic.quarter, Dyadic.quarter, eq]
    have less : x.mantissa < y.mantissa := by
      rw [rational_eq_quarter, rational_eq_quarter, unit, mul_lt_mul_iff_left₀ quarter] at h
      have : (x.mantissa : ℚ) < y.mantissa := by linarith
      exact_mod_cast this
    rw [upperEnd, lowerEnd, unit]
    refine ⟨mul_le_mul_of_nonneg_right ?_ quarter.le,
      fun even even' => mul_lt_mul_of_pos_right ?_ quarter⟩
    · have next : (x.mantissa : ℚ) + 1 ≤ y.mantissa := by exact_mod_cast less
      split <;> linarith
    · have next : (x.mantissa : ℚ) + 2 ≤ y.mantissa := by
        exact_mod_cast (by omega : x.mantissa + 2 ≤ y.mantissa)
      split <;> linarith
  · exact absurd (hy.rational_lt hx gt) h.not_gt

/-- Of two values that round to a smaller and to a greater float, the first one is smaller. -/
theorem covers_lt (hx : x.IsBinary64) (hy : y.IsBinary64) (h : x.rational < y.rational) {q r : ℚ}
    (hq : x.Covers q) (hr : y.Covers r) : q < r := by
  obtain ⟨ends, even⟩ := hx.upperEnd_le hy h
  by_cases hm : x.mantissa % 2 = 0
  · by_cases hn : y.mantissa % 2 = 0
    · exact hq.upper.trans_lt ((even hm hn).trans_le hr.lower)
    · exact (hq.upper.trans ends).trans_lt (hr.odd hn).1
  · exact ((hq.odd hm).2.trans_le ends).trans_le hr.lower

/-- **No value rounds to two floats.** -/
theorem eq_of_covers (hx : x.IsBinary64) (hy : y.IsBinary64) (positive : 0 < x.mantissa) {q : ℚ}
    (hq : x.Covers q) (hr : y.Covers q) : x = y := by
  rcases lt_trichotomy x.rational y.rational with lt | eq | gt
  · exact absurd (hx.covers_lt hy lt hq hr) (lt_irrefl q)
  · exact hx.eq_of_rational hy eq positive.ne'
  · exact absurd (hy.covers_lt hx gt hr hq) (lt_irrefl q)

/-- **Different floats have different shortest decimals.** -/
theorem eq_of_shortest (hx : x.IsBinary64) (hy : y.IsBinary64) (positive : 0 < x.mantissa)
    (positive' : 0 < y.mantissa) (h : x.shortest.rational = y.shortest.rational) : x = y :=
  hx.eq_of_covers hy positive (hx.covers_shortest positive) (h ▸ hy.covers_shortest positive')

end IsBinary64

end Dyadic

end DocStore
