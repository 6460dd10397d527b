/-
Numbers in TOML documents.

* `Toml.natural?` — digits of a radix, between any two of which an underscore may stand;
* `Toml.integer?` — an integer of 64 bits with its sign, in decimal, or without one, in hexadecimal,
  octal or binary;
* `Toml.real?` — a number with a fraction, an exponent or both, an infinity or a NaN.

All of them read a whole text or fail.
-/

import DocStore.Toml

set_option autoImplicit false

namespace DocStore

namespace Toml

/-! ### Digits -/

/-- The value of a digit of a radix up to 16. -/
def digit? (radix : Nat) (c : Char) : Option Nat :=
  let value :=
    if '0' ≤ c ∧ c ≤ '9' then c.toNat - '0'.toNat
    else if 'a' ≤ c ∧ c ≤ 'f' then c.toNat - 'a'.toNat + 10
    else if 'A' ≤ c ∧ c ≤ 'F' then c.toNat - 'A'.toNat + 10
    else radix
  if value < radix then some value else none

/-- Whether a character is a decimal digit. -/
def isDigit (c : Char) : Bool :=
  (digit? 10 c).isSome

/-- The number whose first digits are those of `n` and whose others are these. -/
def continue? (radix n : Nat) : List Char → Option Nat
  | [] => some n
  | '_' :: c :: rest =>
      match digit? radix c with
      | some d => continue? radix (n * radix + d) rest
      | none => none
  | c :: rest =>
      match digit? radix c with
      | some d => continue? radix (n * radix + d) rest
      | none => none

/-- The number that digits denote, of which there has to be one; an underscore may stand between two
of them. -/
def natural? (radix : Nat) : List Char → Option Nat
  | [] => none
  | c :: rest =>
      match digit? radix c with
      | some d => continue? radix d rest
      | none => none

/-- The number that decimal digits denote, of which the first is no zero unless it is the only
one. -/
def decimal? : List Char → Option Nat
  | '0' :: _ :: _ => none
  | digits => natural? 10 digits

/-! ### Integers -/

/-- An integer as a signed word of 64 bits, when it fits. -/
def word? (n : Int) : Option Int64 :=
  if -0x8000000000000000 ≤ n ∧ n < 0x8000000000000000 then some (Int64.ofInt n) else none

/-- The integer that a text denotes. -/
def integer? : List Char → Option Int64
  | '0' :: 'x' :: digits => (natural? 16 digits).bind fun n => word? n
  | '0' :: 'o' :: digits => (natural? 8 digits).bind fun n => word? n
  | '0' :: 'b' :: digits => (natural? 2 digits).bind fun n => word? n
  | '+' :: digits => (decimal? digits).bind fun n => word? n
  | '-' :: digits => (decimal? digits).bind fun n => word? (-n)
  | digits => (decimal? digits).bind fun n => word? n

/-! ### Fractions and exponents -/

/-- The least number that rounds to infinity in 64 bits: the greatest finite one, and half of its
last place. -/
def leastInfinite : Nat :=
  Nat.pow 2 1024 - Nat.pow 2 970

/-- Whether `digits * 10 ^ exponent` rounds to infinity.  The tests that come first keep the powers
small: one with an exponent of 400 is too great whatever its digits, and one with fewer than three
bits of digits to each place after the point is less than 1. -/
def isInfinite (digits : Nat) : (exponent : Int) → Bool
  | .ofNat e =>
      digits != 0 && (decide (400 ≤ e) || decide (leastInfinite ≤ digits * Nat.pow 10 e))
  | .negSucc e =>
      decide (3 * (e + 1) ≤ digits.log2) && decide (leastInfinite * Nat.pow 10 (e + 1) ≤ digits)

/-- The number with these digits, unless it is positive and rounds to infinity. -/
def ofDecimal? (negative : Bool) (digits : Nat) (exponent : Int) : Option Real :=
  if !negative && isInfinite digits exponent then none
  else some (.decimal negative digits exponent)

/-- The exponent that a text denotes after the letter `e`: digits, after a sign or not. -/
def exponent? : List Char → Option Int
  | '+' :: digits => (natural? 10 digits).map fun n => n
  | '-' :: digits => (natural? 10 digits).map fun n => -n
  | digits => (natural? 10 digits).map fun n => n

/-- The exponent that a text says, if it begins with the letter `e`. -/
def afterDigits? : List Char → Option Int
  | 'e' :: rest => exponent? rest
  | 'E' :: rest => exponent? rest
  | _ => none

/-- Whether a character may stand in a run of digits. -/
def inDigits (c : Char) : Bool :=
  isDigit c || c == '_'

/-- The number that a text without sign denotes. -/
def unsigned? (negative : Bool) (text : List Char) : Option Real :=
  match text with
  | ['i', 'n', 'f'] => some (.infinite negative)
  | ['n', 'a', 'n'] => some (.nan negative)
  | _ =>
      match decimal? (text.takeWhile inDigits), text.dropWhile inDigits with
      | some whole, '.' :: rest =>
          let places := rest.takeWhile inDigits
          match natural? 10 places, rest.dropWhile inDigits with
          | some fraction, rest =>
              let shift := (places.filter isDigit).length
              let digits := whole * Nat.pow 10 shift + fraction
              if rest.isEmpty then ofDecimal? negative digits (-shift)
              else (afterDigits? rest).bind fun e => ofDecimal? negative digits (e - shift)
          | none, _ => none
      | some whole, rest => (afterDigits? rest).bind fun e => ofDecimal? negative whole e
      | none, _ => none

/-- The number that a text denotes. -/
def real? : List Char → Option Real
  | '+' :: text => unsigned? false text
  | '-' :: text => unsigned? true text
  | text => unsigned? false text

end Toml

end DocStore
