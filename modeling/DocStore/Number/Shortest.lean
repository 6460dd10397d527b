/-
The shortest decimal text of a binary floating-point number.

* `Dyadic` — a positive number `mantissa * 2 ^ exponent`, with the width of the gap below it;
* `Dyadic.shortest` — of the decimals that round to the number, those with the fewest digits, and
  of these the nearest; of two as near, the one whose last digit is even;
* `DecimalText` — the decisions of a written form: which exponents are written positionally;
* `DecimalText.render` — a number in that form, and `Binary64.text`, `Binary32.text` for the two
  binary formats.

A decimal with `n` significant digits is a point of the grid `10 ^ place`, where `place` is `n - 1`
below the exponent of the leading digit.  Of a grid only the two neighbours of the number matter:
if any of its points rounds to the number, so does one of them.  The grids are tried from the
coarsest on, in exact arithmetic; the one with 17 digits always has such a point.
-/

import DocStore.Number.Binary64

set_option autoImplicit false

namespace DocStore

/-- A positive binary number, `mantissa * 2 ^ exponent`. -/
structure Dyadic where
  /-- The whole number that is scaled. -/
  mantissa : Nat
  /-- The power of two by which it is scaled. -/
  exponent : Int
  /-- The number is the least with its exponent, so that its neighbour below is half as far. -/
  leastOfBinade : Bool

/-- A decimal, `digits * 10 ^ place`. -/
structure Decimal where
  /-- The digits, read as a number. -/
  digits : Nat
  /-- The power of ten of the last digit. -/
  place : Int
  deriving DecidableEq

namespace Decimal

/-- How many digits a number has in base ten. -/
def length (n : Nat) : Nat :=
  (Nat.toDigits 10 n).length

/-- The same decimal without trailing zeros, of which at most `fuel` are removed. -/
def trim : (fuel : Nat) → Decimal → Decimal
  | 0, d => d
  | fuel + 1, d => if d.digits % 10 = 0 then trim fuel ⟨d.digits / 10, d.place + 1⟩ else d

end Decimal

namespace Dyadic

/-! ### The decimals that round to a number

All quantities are written over the common denominator `scale`, four to the unit of the last place,
so that the ends of the interval are whole numbers. -/

/-- Four times the number is `factor * mantissa / scale`. -/
def factor (x : Dyadic) : Nat :=
  Nat.pow 2 (x.exponent - 2).toNat

/-- The common denominator. -/
def scale (x : Dyadic) : Nat :=
  Nat.pow 2 (2 - x.exponent).toNat

/-- The number. -/
def value (x : Dyadic) : Nat :=
  4 * x.mantissa * x.factor

/-- The lower end of the interval of reals that round to the number. -/
def lower (x : Dyadic) : Nat :=
  (4 * x.mantissa - if x.leastOfBinade then 1 else 2) * x.factor

/-- The upper end of the interval. -/
def upper (x : Dyadic) : Nat :=
  (4 * x.mantissa + 2) * x.factor

/-- Whether `n / unit` lies between two ends given over the same unit; the ends themselves round
to the number if its mantissa is even. -/
def rounds (x : Dyadic) (lower upper n : Nat) : Bool :=
  if x.mantissa % 2 = 0 then decide (lower ≤ n ∧ n ≤ upper) else decide (lower < n ∧ n < upper)

/-- The point of the grid `10 ^ place` that rounds to the number and is nearest to it, if there
is one. -/
def onGrid? (x : Dyadic) (place : Int) : Option Decimal :=
  let up := Nat.pow 10 (-place).toNat
  let step := x.scale * Nat.pow 10 place.toNat
  let value := x.value * up
  let below := value / step
  let fits (n : Nat) : Bool := x.rounds (x.lower * up) (x.upper * up) (n * step)
  match fits below, fits (below + 1) with
  | false, false => none
  | true, false => some ⟨below, place⟩
  | false, true => some ⟨below + 1, place⟩
  | true, true =>
      let down := value - below * step
      let rise := (below + 1) * step - value
      if down < rise ∨ (down = rise ∧ below % 2 = 0) then some ⟨below, place⟩
      else some ⟨below + 1, place⟩

/-- The exponent of ten of the leading digit. -/
def leadingPlace (x : Dyadic) : Int :=
  Decimal.length (x.value * Nat.pow 10 400 / x.scale) - 401

/-- The decimal with the fewest digits that rounds to the number. -/
def shortest (x : Dyadic) : Decimal :=
  let candidate := (List.range 17).findSome? fun (n : Nat) => x.onGrid? (x.leadingPlace - n)
  Decimal.trim 2 (candidate.getD ⟨x.mantissa, x.exponent⟩)

end Dyadic

/-! ### The written form -/

/-- Which decimal exponents of the leading digit are written without an exponent. -/
structure DecimalText where
  /-- The least of them. -/
  least : Int
  /-- The greatest of them. -/
  greatest : Int

namespace DecimalText

/-- The digits of a number in base ten. -/
def digits (n : Nat) : List Char :=
  Nat.toDigits 10 n

/-- A decimal without an exponent: at least one digit on either side of the point. -/
def positional (text : List Char) (leading : Int) : List Char :=
  if leading < 0 then
    ['0', '.'] ++ List.replicate (-leading - 1).toNat '0' ++ text
  else
    let whole := leading.toNat + 1
    if text.length ≤ whole then
      text ++ List.replicate (whole - text.length) '0' ++ ['.', '0']
    else text.take whole ++ ['.'] ++ text.drop whole

/-- A decimal with an exponent that always has a sign; a point only before further digits. -/
def scientific (text : List Char) (leading : Int) : List Char :=
  let fraction := match text.drop 1 with
    | [] => []
    | more => '.' :: more
  text.take 1 ++ fraction ++ ['e', if leading < 0 then '-' else '+'] ++ digits leading.natAbs

/-- A positive decimal in the written form. -/
def render (form : DecimalText) (d : Decimal) : List Char :=
  let text := digits d.digits
  let leading := d.place + text.length - 1
  if form.least ≤ leading ∧ leading ≤ form.greatest then positional text leading
  else scientific text leading

/-- Zero, too, has a digit on either side of the point; below zero there is a sign. -/
def renderSigned (form : DecimalText) (negative : Bool) (x : Dyadic) : List Char :=
  (if negative then ['-'] else []) ++
    if x.mantissa = 0 then ['0', '.', '0'] else form.render x.shortest

end DecimalText

/-- The written form of long numbers: positional from `0.00001` to below `10 ^ 16`. -/
def Binary64.form : DecimalText :=
  ⟨-5, 15⟩

/-- The written form of short numbers: positional from `0.000001` to below `10 ^ 13`. -/
def Binary32.form : DecimalText :=
  ⟨-6, 12⟩

/-- The text of a finite number, which reads back as that number. -/
def Binary64.text (x : Binary64) : List Char :=
  Binary64.form.renderSigned x.negative
    ⟨x.mantissa, x.exponent, decide (x.fraction = 0 ∧ 1 < x.exponentField)⟩

/-- The text of a finite short number, which reads back as that number. -/
def Binary32.text (x : Binary32) : List Char :=
  Binary32.form.renderSigned x.negative
    ⟨x.mantissa, x.exponent, decide (x.fraction = 0 ∧ 1 < x.exponentField)⟩

end DocStore
