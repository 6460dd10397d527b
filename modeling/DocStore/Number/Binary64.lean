/-
Binary floating-point numbers, as their bits.

* `Binary64`, `Binary32` — the two interchange formats, as words;
* `Binary64.mantissa`, `Binary64.exponent` — a finite number is `± mantissa * 2 ^ exponent`;
* `Binary64.round` — the number nearest to `± m * 2 ^ e`, a tie to the even mantissa;
* `Binary64.ofInteger`, `Binary32.widen` — an integer rounded, and a short number widened;
* `Binary64.integer?` — the integer that a number equals, when it fits 64 bits;
* `Finite64` — the numbers that are neither infinite nor a NaN.

Nothing here uses the floating-point unit: all arithmetic is exact, on natural numbers.
-/

import DocStore.Number.Integer

set_option autoImplicit false

namespace DocStore

/-- A number of the 64-bit format: sign, 11 bits of exponent, 52 bits of fraction. -/
structure Binary64 where
  /-- The word. -/
  bits : UInt64
  deriving DecidableEq

/-- A number of the 32-bit format: sign, 8 bits of exponent, 23 bits of fraction. -/
structure Binary32 where
  /-- The word. -/
  bits : UInt32
  deriving DecidableEq

namespace Binary64

/-! ### The fields of the word -/

/-- Whether the sign bit is set. -/
def negative (x : Binary64) : Bool :=
  decide (0x8000000000000000 ≤ x.bits.toNat)

/-- The exponent field. -/
def exponentField (x : Binary64) : Nat :=
  x.bits.toNat / 0x10000000000000 % 0x800

/-- The fraction field. -/
def fraction (x : Binary64) : Nat :=
  x.bits.toNat % 0x10000000000000

/-- Whether the number is neither infinite nor a NaN. -/
def isFinite (x : Binary64) : Bool :=
  decide (x.exponentField ≠ 2047)

/-- Whether the word is no number. -/
def isNaN (x : Binary64) : Bool :=
  decide (x.exponentField = 2047 ∧ x.fraction ≠ 0)

/-- The whole number that a finite number scales. -/
def mantissa (x : Binary64) : Nat :=
  if x.exponentField = 0 then x.fraction else 0x10000000000000 + x.fraction

/-- The power of two by which a finite number scales its mantissa. -/
def exponent (x : Binary64) : Int :=
  (max x.exponentField 1 : Nat) - 1075

/-! ### Rounding -/

/-- The word with the given sign, whose other bits denote `magnitude`. -/
def ofFields (negative : Bool) (magnitude : Nat) : Binary64 :=
  ⟨UInt64.ofNat (magnitude + if negative then 0x8000000000000000 else 0)⟩

/-- The quotient `m / 2 ^ shift`, rounded to the nearest integer, a half to the even one. -/
def halveToEven (m shift : Nat) : Nat :=
  let quotient := m / Nat.pow 2 shift
  let twice := m % Nat.pow 2 shift * 2
  if twice < Nat.pow 2 shift ∨ (twice = Nat.pow 2 shift ∧ quotient % 2 = 0) then quotient
  else quotient + 1

/-- The number nearest to `± m * 2 ^ e`; of two as near, the one with the even mantissa.

The last place is 52 below the leading bit, but never below `2 ^ (-1074)`.  The mantissa is added
with its leading bit, which makes up for an exponent field that is one too low; a mantissa that is
rounded up to the next power of two carries into that field, which is what it should do. -/
def round (negative : Bool) (m : Nat) (e : Int) : Binary64 :=
  if m = 0 then ofFields negative 0
  else
    let place : Int := max (e + m.log2 - 52) (-1074)
    let rounded :=
      if place ≤ e then m * Nat.pow 2 (e - place).toNat else halveToEven m (place - e).toNat
    ofFields negative
      (min (rounded + (place + 1074).toNat * 0x10000000000000) (2047 * 0x10000000000000))

/-- The number nearest to an integer. -/
def ofInteger (n : Integer) : Binary64 :=
  round (decide (n.val < 0)) n.val.natAbs 0

/-! ### Integral numbers -/

/-- The integer that a finite number equals, when its fraction is zero. -/
def toInt? (x : Binary64) : Option Int :=
  let sign : Int := if x.negative then -1 else 1
  if 0 ≤ x.exponent then some (sign * (x.mantissa * Nat.pow 2 x.exponent.toNat : Nat))
  else
    let unit := Nat.pow 2 (-x.exponent).toNat
    if x.mantissa % unit = 0 then some (sign * (x.mantissa / unit : Nat)) else none

/-- The integer that a number equals, when it is one and fits 64 bits. -/
def integer? (x : Binary64) : Option Integer :=
  if x.isFinite then x.toInt?.bind Integer.ofInt? else none

end Binary64

namespace Binary32

/-- The exponent field. -/
def exponentField (x : Binary32) : Nat :=
  x.bits.toNat / 0x800000 % 0x100

/-- The fraction field. -/
def fraction (x : Binary32) : Nat :=
  x.bits.toNat % 0x800000

/-- Whether the sign bit is set. -/
def negative (x : Binary32) : Bool :=
  decide (0x80000000 ≤ x.bits.toNat)

/-- Whether the number is neither infinite nor a NaN. -/
def isFinite (x : Binary32) : Bool :=
  decide (x.exponentField ≠ 255)

/-- The whole number that a finite number scales. -/
def mantissa (x : Binary32) : Nat :=
  if x.exponentField = 0 then x.fraction else 0x800000 + x.fraction

/-- The power of two by which a finite number scales its mantissa. -/
def exponent (x : Binary32) : Int :=
  (max x.exponentField 1 : Nat) - 150

/-- The same number in the wider format, which has room for all of them. -/
def widen (x : Binary32) : Binary64 :=
  if x.isFinite then Binary64.round x.negative x.mantissa x.exponent
  else Binary64.ofFields x.negative (2047 * 0x10000000000000 + x.fraction * 0x20000000)

end Binary32

/-- A number that is neither infinite nor a NaN. -/
structure Finite64 where
  /-- The number. -/
  val : Binary64
  /-- It is finite. -/
  isFinite : val.isFinite = true
  deriving DecidableEq

/-- A number as a finite one, when it is. -/
def Binary64.finite? (x : Binary64) : Option Finite64 :=
  if h : x.isFinite = true then some ⟨x, h⟩ else none

@[simp] theorem Binary64.finite?_val (x : Finite64) : x.val.finite? = some x := by
  simp [Binary64.finite?, x.isFinite]

end DocStore
