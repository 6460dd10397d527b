/-
The integers that documents can hold: those that fit 64 bits, signed or unsigned.

* `Integer` — an integer from `-2^63` up to but not including `2^64`;
* `Integer.ofUInt64`, `Integer.ofInt64` — every 64-bit word is one, read either way;
* `Integer.ofInt?` — any integer, when it is in range (`Integer.ofInt?_val`).
-/

set_option autoImplicit false

namespace DocStore

/-- An integer that fits 64 bits, signed or unsigned. -/
structure Integer where
  /-- The integer. -/
  val : Int
  /-- Negative ones fit a signed word. -/
  lower : -0x8000000000000000 ≤ val
  /-- The others fit an unsigned word. -/
  upper : val < 0x10000000000000000
  deriving DecidableEq

namespace Integer

/-- The integer that an unsigned word denotes. -/
def ofUInt64 (n : UInt64) : Integer :=
  ⟨n.toNat, by omega, by have := n.toNat_lt; omega⟩

/-- The integer that a signed word denotes. -/
def ofInt64 (n : Int64) : Integer :=
  ⟨n.toInt, by have := n.le_toInt; omega, by have := n.toInt_lt; omega⟩

/-- An integer, when it is in range. -/
def ofInt? (n : Int) : Option Integer :=
  if h : -0x8000000000000000 ≤ n ∧ n < 0x10000000000000000 then some ⟨n, h.1, h.2⟩ else none

@[simp] theorem ofInt?_val (n : Integer) : ofInt? n.val = some n := by
  rw [ofInt?, dif_pos ⟨n.lower, n.upper⟩]

theorem val_of_ofInt? {n : Int} {m : Integer} (h : ofInt? n = some m) : m.val = n := by
  unfold ofInt? at h
  split at h
  · simp_all [← Option.some.inj h]
  · simp at h

end Integer

end DocStore
