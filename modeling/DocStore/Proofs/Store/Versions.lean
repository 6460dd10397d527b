/-
What a store remembers of a key.

Every write to a key counts its slot up, also a deletion, so that the counter of a key tells its
states apart as long as it does not come round to zero.  This module derives from that what the
operations on top need: a value that was read at a counter is still there when the key is found at
that counter.

* `SortedMap.find?_eq_some_iff` — looking up an entry is having it;
* `Store.get?_set`, `Store.get?_delete` — a store after a write;
* `Store.mem_snapshot`, `Store.snapshot_ascending` — its entries, and their order;
* `SlotWrite.Accepts`, `SlotWrite.applied` — when a conditional write goes through, and the store
  after it;
* `Store.Recalls`, `Store.Passed` — a key has had a value, and a key has been written since it was
  at a counter; writes keep both (`Store.Recalls.applied`, `Store.Passed.applied`) as long as the
  key has room to be counted up (`Store.HasRoom`);
* `Store.Recalls.get?_eq` — **a value that the key has had is its value at that counter.**
-/

import DocStore.Call
import Mathlib.Data.List.Basic
import Mathlib.Order.Basic

set_option autoImplicit false

namespace DocStore

/-! ### Entries of a sorted map -/

namespace SortedMap

/-- A key has the value of the first entry with it, and ascending entries have no second one. -/
theorem lookUp?_eq_some_iff {κ β : Type} [LT κ] [DecidableEq κ] [Std.Irrefl (α := κ) (· < ·)]
    {key : κ} {value : β} {entries : List (κ × β)} (h : entries.Pairwise fun a b => a.1 < b.1) :
    lookUp? key entries = some value ↔ (key, value) ∈ entries := by
  induction entries with
  | nil => simp [lookUp?]
  | cons e rest ih =>
      rw [List.pairwise_cons] at h
      unfold lookUp?
      by_cases hk : key = e.1
      · subst hk
        rw [if_pos rfl, Option.some.injEq, List.mem_cons]
        constructor
        · intro hv
          exact Or.inl (by rw [← hv])
        · rintro (hv | hv)
          · rw [← hv]
          · -- a second entry with this key would come after the first one, hence after itself
            exact absurd (h.1 _ hv) (Std.Irrefl.irrefl _)
      · rw [if_neg hk, ih h.2, List.mem_cons]
        constructor
        · exact Or.inr
        · rintro (rfl | hv)
          · exact absurd rfl hk
          · exact hv

theorem find?_eq_some_iff {κ β : Type} [LT κ] [DecidableEq κ] [Std.Irrefl (α := κ) (· < ·)]
    {m : SortedMap κ β} {key : κ} {value : β} :
    m.find? key = some value ↔ (key, value) ∈ m.entries :=
  lookUp?_eq_some_iff m.ascending

end SortedMap

/-! ### Conditional writes -/

namespace SlotWrite

/-- Whether a write goes through, given what is stored. -/
def Accepts : SlotWrite → Option (Versioned Bytes) → Prop
  | .create _, stored => stored = none
  | .replace _ expected, stored => stored.map Versioned.counter = some expected
  | .erase expected, stored => stored.map Versioned.counter = some expected

/-- The value after a write; none after a deletion. -/
def value? : SlotWrite → Option Bytes
  | .create value => some value
  | .replace value _ => some value
  | .erase _ => none

/-- The store after a write that went through. -/
def applied (write : SlotWrite) (store : Store) (key : Bytes) : Store :=
  match write.value? with
  | some value => (store.set key value).2
  | none => store.delete key

end SlotWrite

namespace Store

/-! ### Reading after writing -/

/-- The counter that the next write of a key gets. -/
def next (store : Store) (key : Bytes) : Counter :=
  ((store.slots.find? key).elim 0 Slot.counter) + 1

theorem find?_set (store : Store) (key other value : Bytes) :
    (store.set key value).2.slots.find? other
      = if other = key then some ⟨some value, store.next key⟩ else store.slots.find? other := by
  simp only [set, put, SortedMap.find?_insert]
  rfl

theorem get?_set (store : Store) (key other value : Bytes) :
    (store.set key value).2.get? other
      = if other = key then some ⟨value, store.next key⟩ else store.get? other := by
  rw [get?, find?_set]
  split <;> rfl

theorem get?_delete (store : Store) (key other : Bytes) :
    (store.delete key).get? other = if other = key then none else store.get? other := by
  unfold delete
  cases hs : store.slots.find? key with
  | none =>
      by_cases hk : other = key
      · rw [if_pos hk, hk, get?, hs, Option.bind_none]
      · rw [if_neg hk]
  | some slot =>
      -- a slot without a value is left as it is: the key has been deleted before
      by_cases hv : slot.value.isSome
      · simp only [hv, if_true, put, get?, SortedMap.find?_insert]
        split <;> rfl
      · simp only [hv, Bool.false_eq_true, if_false]
        by_cases hk : other = key
        · have dead : slot.value = none := by simpa using hv
          rw [if_pos hk, hk, get?, hs, Option.bind_some, Slot.versioned?, dead, Option.map_none]
        · rw [if_neg hk]

@[simp] theorem keyspace_set (store : Store) (key value : Bytes) :
    (store.set key value).2.keyspace = store.keyspace := rfl

@[simp] theorem keyspace_delete (store : Store) (key : Bytes) :
    (store.delete key).keyspace = store.keyspace := by
  unfold delete
  split
  · split <;> rfl
  · rfl

@[simp] theorem keyspace_applied (write : SlotWrite) (store : Store) (key : Bytes) :
    (write.applied store key).keyspace = store.keyspace := by
  unfold SlotWrite.applied
  split <;> simp

/-- What is read after a conditional write went through. -/
theorem get?_applied (write : SlotWrite) (store : Store) (key other : Bytes) :
    (write.applied store key).get? other
      = if other = key then write.value?.map (⟨·, store.next key⟩) else store.get? other := by
  unfold SlotWrite.applied
  split
  · rename_i value hv
    rw [get?_set, hv, Option.map_some]
  · rename_i hv
    rw [get?_delete, hv, Option.map_none]

/-- The entries of a store are the keys that have a value. -/
theorem mem_snapshot {store : Store} {e : Entry} :
    e ∈ store.snapshot ↔ store.get? e.key = some ⟨e.value, e.counter⟩ := by
  simp only [snapshot, List.mem_filterMap, entry?, Option.map_eq_some_iff, get?,
    Option.bind_eq_some_iff, SortedMap.find?_eq_some_iff]
  constructor
  · rintro ⟨⟨key, slot⟩, hmem, v, hv, rfl⟩
    exact ⟨slot, hmem, hv⟩
  · rintro ⟨slot, hmem, hv⟩
    exact ⟨(e.key, slot), hmem, _, hv, rfl⟩

/-- They come by ascending key. -/
theorem snapshot_ascending (store : Store) :
    store.snapshot.Pairwise fun e f => e.key < f.key := by
  refine List.pairwise_filterMap.2 (store.slots.ascending.imp ?_)
  intro a b less e he f hf
  obtain ⟨v, -, rfl⟩ := Option.map_eq_some_iff.1 he
  obtain ⟨w, -, rfl⟩ := Option.map_eq_some_iff.1 hf
  exact less

/-! ### Counters -/

/-- A key whose counter can be counted up once more. -/
def HasRoom (store : Store) (key : Bytes) : Prop :=
  ∀ slot, store.slots.find? key = some slot → slot.counter < slot.counter + 1

instance (store : Store) (key : Bytes) : Decidable (store.HasRoom key) :=
  decidable_of_iff ((store.slots.find? key).all fun slot => slot.counter < slot.counter + 1) <| by
    unfold HasRoom
    cases store.slots.find? key <;> simp

/-- A key that has had a value: it has it still, or it has been written since. -/
def Recalls (store : Store) (key : Bytes) (stored : Versioned Bytes) : Prop :=
  ∃ slot, store.slots.find? key = some slot ∧
    (slot = ⟨some stored.value, stored.counter⟩ ∨ stored.counter < slot.counter)

/-- A key that has been written since it was at a counter. -/
def Passed (store : Store) (key : Bytes) (counter : Counter) : Prop :=
  ∃ slot, store.slots.find? key = some slot ∧ counter < slot.counter

theorem liveCounter?_of_get? {store : Store} {key : Bytes} {stored : Versioned Bytes}
    (h : store.get? key = some stored) : store.liveCounter? key = some stored.counter := by
  rw [liveCounter?, h, Option.map_some]

/-- What a key has, it has had. -/
theorem recalls_of_get? {store : Store} {key : Bytes} {stored : Versioned Bytes}
    (h : store.get? key = some stored) : store.Recalls key stored := by
  obtain ⟨slot, hs, hv⟩ := Option.bind_eq_some_iff.1 h
  obtain ⟨value, hvalue, rfl⟩ := Option.map_eq_some_iff.1 hv
  exact ⟨slot, hs, Or.inl (by rw [← hvalue])⟩

/-- A value that the key has had is its value unless the key has been written since. -/
theorem Recalls.get?_or_passed {store : Store} {key : Bytes} {stored : Versioned Bytes}
    (h : store.Recalls key stored) :
    store.get? key = some stored ∨ store.Passed key stored.counter := by
  obtain ⟨slot, hs, rfl | later⟩ := h
  · exact Or.inl (by rw [get?, hs]; rfl)
  · exact Or.inr ⟨slot, hs, later⟩

/-- A key that has been written since it was at a counter is not found at it. -/
theorem Passed.liveCounter?_ne {store : Store} {key : Bytes} {counter : Counter}
    (h : store.Passed key counter) : store.liveCounter? key ≠ some counter := by
  obtain ⟨slot, hs, later⟩ := h
  intro hc
  obtain ⟨stored, hget, rfl⟩ := Option.map_eq_some_iff.1 hc
  rw [get?, hs, Option.bind_some] at hget
  obtain ⟨value, -, rfl⟩ := Option.map_eq_some_iff.1 hget
  exact absurd later (UInt64.lt_irrefl _)

/-- **A value that the key has had is its value when the key is found at that counter.** -/
theorem Recalls.get?_eq {store : Store} {key : Bytes} {stored : Versioned Bytes}
    (h : store.Recalls key stored) (hc : store.liveCounter? key = some stored.counter) :
    store.get? key = some stored :=
  h.get?_or_passed.resolve_right fun passed => passed.liveCounter?_ne hc

/-- A write that goes through changes no other key and counts its own up. -/
theorem find?_applied {write : SlotWrite} {store : Store} {key : Bytes}
    (accepts : write.Accepts (store.get? key)) (other : Bytes) :
    (write.applied store key).slots.find? other
      = if other = key then some ⟨write.value?, store.next key⟩
        else store.slots.find? other := by
  unfold SlotWrite.applied
  cases hw : write.value? with
  | some value => exact find?_set store key other value
  | none =>
      cases write with
      -- only a deletion leaves no value, and it goes through only where there is one
      | create value => exact absurd hw (Option.some_ne_none value)
      | replace value expected => exact absurd hw (Option.some_ne_none value)
      | erase expected =>
          obtain ⟨stored, hget, -⟩ := Option.map_eq_some_iff.1 accepts
          obtain ⟨slot, hs, hv⟩ := Option.bind_eq_some_iff.1 hget
          obtain ⟨value, hvalue, -⟩ := Option.map_eq_some_iff.1 hv
          simp only [delete, hs, hvalue, Option.isSome_some, if_true, put,
            SortedMap.find?_insert, next, Option.elim_some, Slot.tombstone]

theorem Passed.applied {write : SlotWrite} {store : Store} {key : Bytes}
    (accepts : write.Accepts (store.get? key)) (room : store.HasRoom key) {other : Bytes}
    {counter : Counter} (h : store.Passed other counter) :
    (write.applied store key).Passed other counter := by
  obtain ⟨slot, hs, later⟩ := h
  by_cases hk : other = key
  · subst hk
    refine ⟨_, (find?_applied accepts other).trans (if_pos rfl), ?_⟩
    rw [next, hs, Option.elim_some]
    exact UInt64.lt_trans later (room slot hs)
  · exact ⟨slot, by rw [find?_applied accepts, if_neg hk, hs], later⟩

/-- A write that goes through leaves the counters behind at which its key was before. -/
theorem passed_applied {write : SlotWrite} {store : Store} {key : Bytes}
    (accepts : write.Accepts (store.get? key)) (room : store.HasRoom key) {counter : Counter}
    (h : store.liveCounter? key = some counter) :
    (write.applied store key).Passed key counter := by
  obtain ⟨stored, hget, rfl⟩ := Option.map_eq_some_iff.1 h
  obtain ⟨slot, hs, hv⟩ := Option.bind_eq_some_iff.1 hget
  obtain ⟨value, -, rfl⟩ := Option.map_eq_some_iff.1 hv
  refine ⟨_, (find?_applied accepts key).trans (if_pos rfl), ?_⟩
  rw [next, hs, Option.elim_some]
  exact room slot hs

theorem Recalls.applied {write : SlotWrite} {store : Store} {key : Bytes}
    (accepts : write.Accepts (store.get? key)) (room : store.HasRoom key) {other : Bytes}
    {stored : Versioned Bytes} (h : store.Recalls other stored) :
    (write.applied store key).Recalls other stored := by
  rcases h.get?_or_passed with hget | passed
  · by_cases hk : other = key
    · subst hk
      -- the value is still there, and this write takes it away: its counter is left behind
      have passed := passed_applied accepts room (liveCounter?_of_get? hget)
      obtain ⟨slot, hs, later⟩ := passed
      exact ⟨slot, hs, Or.inr later⟩
    · obtain ⟨slot, hs, hv⟩ := h
      exact ⟨slot, by rw [find?_applied accepts, if_neg hk, hs], hv⟩
  · obtain ⟨slot, hs, later⟩ := passed.applied accepts room
    exact ⟨slot, hs, Or.inr later⟩

end Store

end DocStore
