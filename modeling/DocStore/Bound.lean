/-
Bounds of ranges.

* `Bound` — a key, or one of the two ends that lie below and above all keys;
* `Bound.admitsFromBelow`, `Bound.admitsFromAbove` — which keys a lower and an upper bound let in;
  a bound that is a key lets in that key.
-/

import DocStore.IndexKey

set_option autoImplicit false

namespace DocStore

/-- The end of a range. -/
inductive Bound
  /-- Below every key. -/
  | min
  /-- Above every key. -/
  | max
  /-- At a key. -/
  | key (k : Bytes)
  deriving DecidableEq

namespace Bound

/-- The bound at the index key of a value, if it has one. -/
def ofValue? (value : Value) : Option Bound :=
  value.indexKey?.map .key

/-- The key of a bound that is at one. -/
def key? : Bound → Option Bytes
  | .key k => some k
  | _ => none

/-- Whether a lower bound lets a key in. -/
def admitsFromBelow : Bound → Bytes → Bool
  | .min, _ => true
  | .max, _ => false
  | .key lower, k => decide (lower ≤ k)

/-- Whether an upper bound lets a key in. -/
def admitsFromAbove : Bound → Bytes → Bool
  | .max, _ => true
  | .min, _ => false
  | .key upper, k => decide (k ≤ upper)

end Bound

end DocStore
