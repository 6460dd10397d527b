/-
The versions of one key.

* `Counter`, `Versioned` — how often a key has been written, and a value with that number;
* `Slot` — what a store remembers of a key, also after it was deleted;
* `Slot.after`, `Slot.tombstone` — the slot after a write and after a deletion; either one counts
  the slot up by one, so that no counter of a key is ever used for two of its states.
-/

import DocStore.Bytes

set_option autoImplicit false

namespace DocStore

/-- How often a key has been written or deleted. -/
abbrev Counter := UInt64

/-- A value and the counter at which it was stored. -/
structure Versioned (α : Type) where
  /-- The value. -/
  value : α
  /-- The counter of the key at that moment. -/
  counter : Counter
  deriving DecidableEq

/-- What a store remembers of a key: its value, if it has one, and its counter. -/
structure Slot where
  /-- The value; none once the key was deleted. -/
  value : Option Bytes
  /-- How often the key was written or deleted. -/
  counter : Counter
  deriving DecidableEq

namespace Slot

/-- The slot of a key after a value was written to it. -/
def after (previous : Option Slot) (value : Bytes) : Slot :=
  ⟨some value, (previous.elim 0 Slot.counter) + 1⟩

/-- The slot of a key after it was deleted. -/
def tombstone (slot : Slot) : Slot :=
  ⟨none, slot.counter + 1⟩

/-- The value of a slot with its counter, if it has one. -/
def versioned? (slot : Slot) : Option (Versioned Bytes) :=
  slot.value.map (⟨·, slot.counter⟩)

@[simp] theorem versioned?_after (previous : Option Slot) (value : Bytes) :
    (after previous value).versioned? = some ⟨value, (previous.elim 0 Slot.counter) + 1⟩ := rfl

@[simp] theorem versioned?_tombstone (slot : Slot) : slot.tombstone.versioned? = none := rfl

end Slot

/-- An entry of a store: a key with its value and counter. -/
structure Entry where
  /-- The key. -/
  key : Bytes
  /-- The value. -/
  value : Bytes
  /-- The counter of the key. -/
  counter : Counter
  deriving DecidableEq

end DocStore
