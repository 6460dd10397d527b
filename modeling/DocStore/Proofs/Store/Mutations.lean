/-
What the counters of a store tell.

A key counts the writes that went through, deletions among them, and keeps its count when it has no
value any more.  A counter therefore stands for one state of its key: whoever reads it a second time
knows that nothing has happened to the key in the meantime, although the key may be deleted and
written anew any number of times.

* `Mutation` — a write of any of the five kinds; `Store.mutate` — its result and the store after it;
* `Mutation.Fits` — what a write requires of the value it finds; `Store.counts` — whether a write
  goes through and there is something for it to do;
* `Store.find?_mutate` — **what one write does to every slot**;
* `Store.run`, `Store.mutations` — the store after a list of writes, and how many of them a key
  counts;
* `Store.counted`, `Store.counted_run` — the number at which a key is, and that a run counts it up
  by the number of its writes;
* `Store.counters_never_reused` — **counters count, and no counter of a key comes back.**
-/

import DocStore.Error
import DocStore.Proofs.Run.Disturbed

set_option autoImplicit false

namespace DocStore

/-! ### Writes -/

/-- A write to one key. -/
inductive Mutation
  /-- Of a value, whatever the key has. -/
  | set (value : Bytes)
  /-- Of a value, to a key that has none. -/
  | create (value : Bytes)
  /-- A deletion, whatever the key has. -/
  | delete
  /-- Of a value, to a key that has one, at a counter. -/
  | compareAndSet (value : Bytes) (expected : Counter)
  /-- A deletion of a key that has a value, at a counter. -/
  | compareAndDelete (expected : Counter)

namespace Mutation

/-- What a write requires of the counter at which it finds a value. -/
def Fits : Mutation → Option Counter → Prop
  | .set _, _ => True
  | .create _, live => live = none
  | .delete, _ => True
  | .compareAndSet _ expected, live => live = some expected
  | .compareAndDelete expected, live => live = some expected

/-- The value after a write; none after a deletion. -/
def value? : Mutation → Option Bytes
  | .set value => some value
  | .create value => some value
  | .delete => none
  | .compareAndSet value _ => some value
  | .compareAndDelete _ => none

end Mutation

namespace Store

/-- The result of a conditional write, which loses its swap where it gives no other store. -/
def swapped (store : Store) :
    Option (Option Counter × Store) → Except Error (Option Counter) × Store
  | some (counter, after) => (.ok counter, after)
  | none => (.error .swapMismatch, store)

/-- The result of a write, which is the new counter if it leaves a value, and the store after it. -/
def mutate (store : Store) (key : Bytes) : Mutation → Except Error (Option Counter) × Store
  | .set value => (.ok (some (store.set key value).1), (store.set key value).2)
  | .create value => store.swapped ((store.create? key value).map fun w => (some w.1, w.2))
  | .delete => (.ok none, store.delete key)
  | .compareAndSet value expected =>
      store.swapped ((store.compareAndSet? key value expected).map fun w => (some w.1, w.2))
  | .compareAndDelete expected =>
      store.swapped ((store.compareAndDelete? key expected).map fun w => (none, w))

/-- Whether a write goes through, and is no deletion of a key that has no value. -/
def counts (store : Store) (key : Bytes) (mutation : Mutation) : Bool :=
  (store.mutate key mutation).1.isOk && (mutation.value?.isSome || (store.get? key).isSome)

/-! ### One write -/

/-- A write that does not fit has lost its swap and leaves the store as it is. -/
theorem mutate_of_not_fits {store : Store} {key : Bytes} {mutation : Mutation}
    (h : ¬ mutation.Fits (store.liveCounter? key)) :
    store.mutate key mutation = (.error .swapMismatch, store) := by
  cases mutation with
  | set value => exact absurd trivial h
  | create value =>
      cases live : store.liveCounter? key with
      | none => exact absurd live h
      | some counter => simp only [mutate, create?, live, Option.map_none, swapped]
  | delete => exact absurd trivial h
  | compareAndSet value expected =>
      have other : ¬ store.liveCounter? key = some expected := h
      simp only [mutate, compareAndSet?, if_neg other, Option.map_none, swapped]
  | compareAndDelete expected =>
      have other : ¬ store.liveCounter? key = some expected := h
      simp only [mutate, compareAndDelete?, if_neg other, Option.map_none, swapped]

/-- A write that fits leaves its value, or deletes the key when it has none. -/
theorem mutate_of_fits {store : Store} {key : Bytes} {mutation : Mutation}
    (h : mutation.Fits (store.liveCounter? key)) :
    store.mutate key mutation = match mutation.value? with
      | some value => (.ok (some (store.next key)), (store.set key value).2)
      | none => (.ok none, store.delete key) := by
  cases mutation with
  | set value => rfl
  | create value =>
      have live : store.liveCounter? key = none := h
      simp only [mutate, create?, live, Option.map_some, swapped]
      rfl
  | delete => rfl
  | compareAndSet value expected =>
      have live : store.liveCounter? key = some expected := h
      simp only [mutate, compareAndSet?, live, if_true, Option.map_some, swapped]
      rfl
  | compareAndDelete expected =>
      have live : store.liveCounter? key = some expected := h
      simp only [mutate, compareAndDelete?, live, if_true, Option.map_some, swapped]
      rfl

/-- A write succeeds if and only if it fits. -/
theorem mutate_isOk_iff {store : Store} {key : Bytes} {mutation : Mutation} :
    (store.mutate key mutation).1.isOk ↔ mutation.Fits (store.liveCounter? key) := by
  constructor
  · intro ok
    by_contra unfit
    rw [mutate_of_not_fits unfit] at ok
    exact Bool.false_ne_true ok
  · intro fits
    rw [mutate_of_fits fits]
    split <;> rfl

/-- A deletion that finds no value leaves every slot as it is. -/
theorem find?_delete (store : Store) (key other : Bytes) :
    (store.delete key).slots.find? other
      = if other = key ∧ (store.get? key).isSome then some ⟨none, store.next key⟩
        else store.slots.find? other := by
  unfold delete get?
  cases hs : store.slots.find? key with
  | none =>
      simp only [Option.bind_none, Option.isSome_none, Bool.false_eq_true, and_false, if_false]
  | some slot =>
      have live : (slot.versioned?).isSome = slot.value.isSome := by
        rw [Slot.versioned?, Option.isSome_map]
      rw [Option.bind_some, live]
      by_cases hv : slot.value.isSome
      · simp only [hv, if_true, and_true, put, SortedMap.find?_insert, next, hs, Option.elim_some,
          Slot.tombstone]
      · simp only [hv, Bool.false_eq_true, and_false, if_false]

/-- **A write that counts puts its value under the next counter, and no write does anything else to
the slots.** -/
theorem find?_mutate (store : Store) (key : Bytes) (mutation : Mutation) (other : Bytes) :
    (store.mutate key mutation).2.slots.find? other
      = if other = key ∧ store.counts key mutation then some ⟨mutation.value?, store.next key⟩
        else store.slots.find? other := by
  unfold counts
  by_cases fits : mutation.Fits (store.liveCounter? key)
  · rw [mutate_isOk_iff.2 fits, mutate_of_fits fits, Bool.true_and]
    cases hv : mutation.value? with
    | some value =>
        rw [Option.isSome_some, Bool.true_or]
        simpa only [and_true] using find?_set store key other value
    | none =>
        rw [Option.isSome_none, Bool.false_or]
        exact find?_delete store key other
  · rw [mutate_of_not_fits fits]
    simp only [Except.isOk, Except.toBool, Bool.false_and, Bool.false_eq_true, and_false, if_false]

/-! ### Runs -/

/-- The store after some writes, each of them to its key. -/
def run (store : Store) : List (Bytes × Mutation) → Store
  | [] => store
  | (key, mutation) :: rest => (store.mutate key mutation).2.run rest

/-- How many of some writes a key counts. -/
def mutations (store : Store) (key : Bytes) : List (Bytes × Mutation) → Nat
  | [] => 0
  | (other, mutation) :: rest =>
      (if other = key ∧ store.counts other mutation then 1 else 0)
        + (store.mutate other mutation).2.mutations key rest

theorem run_append (store : Store) (first second : List (Bytes × Mutation)) :
    store.run (first ++ second) = (store.run first).run second := by
  induction first generalizing store with
  | nil => rfl
  | cons w rest ih => exact ih _

theorem mutations_append (store : Store) (key : Bytes) (first second : List (Bytes × Mutation)) :
    store.mutations key (first ++ second)
      = store.mutations key first + (store.run first).mutations key second := by
  induction first generalizing store with
  | nil => rw [List.nil_append, mutations, Nat.zero_add]; rfl
  | cons w rest ih => 
      rw [List.cons_append, mutations, mutations, ih, Nat.add_assoc]
      rfl

/-! ### Counters -/

/-- The number at which the slot of a key is; a key that was never written is at zero. -/
def counted (store : Store) (key : Bytes) : Nat :=
  (store.slots.find? key).elim 0 fun slot => slot.counter.toNat

/-- A key whose next number is below the last one has room. -/
theorem hasRoom_of_counted {store : Store} {key : Bytes}
    (h : store.counted key + 1 < 18446744073709551616) : store.HasRoom key := by
  intro slot hs
  rw [counted, hs, Option.elim_some] at h
  simp only [UInt64.lt_iff_toNat_lt, UInt64.toNat_add, UInt64.reduceToNat]
  omega

/-- A write that counts counts its key up by one, and no write does anything else to a number. -/
theorem counted_mutate {store : Store} {key : Bytes} {mutation : Mutation} {other : Bytes}
    (few : store.counted other + (if key = other ∧ store.counts key mutation then 1 else 0)
      < 18446744073709551616) :
    (store.mutate key mutation).2.counted other
      = store.counted other + (if key = other ∧ store.counts key mutation then 1 else 0) := by
  by_cases counts : key = other ∧ store.counts key mutation
  · rw [if_pos counts] at few ⊢
    obtain ⟨rfl, counts⟩ := counts
    rw [counted, find?_mutate, if_pos ⟨rfl, counts⟩, Option.elim_some]
    exact toNat_next (hasRoom_of_counted few)
  · rw [if_neg counts, counted, find?_mutate, if_neg fun h => counts ⟨h.1.symm, h.2⟩]
    rfl

/-- **A run counts each key up by the number of its writes.** -/
theorem counted_run {store : Store} {key : Bytes} {writes : List (Bytes × Mutation)}
    (few : store.counted key + store.mutations key writes < 18446744073709551616) :
    (store.run writes).counted key = store.counted key + store.mutations key writes := by
  induction writes generalizing store with
  | nil => rfl
  | cons w rest ih =>
      rw [mutations, ← Nat.add_assoc] at few ⊢
      have first := counted_mutate (Nat.lt_of_le_of_lt (Nat.le_add_right _ _) few)
      rw [← first] at few ⊢
      exact ih few

/-- A key of which a run counts no write keeps its slot. -/
theorem find?_run {store : Store} {key : Bytes} {writes : List (Bytes × Mutation)}
    (h : store.mutations key writes = 0) :
    (store.run writes).slots.find? key = store.slots.find? key := by
  induction writes generalizing store with
  | nil => rfl
  | cons w rest ih =>
      rw [mutations, Nat.add_eq_zero_iff] at h
      have idle : ¬ (key = w.1 ∧ store.counts w.1 w.2) := by
        rintro ⟨rfl, counts⟩
        rw [if_pos ⟨rfl, counts⟩] at h
        exact absurd h.1 Nat.one_ne_zero
      exact (ih h.2).trans ((find?_mutate store w.1 w.2 key).trans (if_neg idle))

/-- A key that a run from an empty store counts so many writes of is at that number. -/
theorem counted_run_empty {name : String} {key : Bytes} {writes : List (Bytes × Mutation)}
    (few : (empty name).mutations key writes < 18446744073709551616) :
    ((empty name).run writes).counted key = (empty name).mutations key writes := by
  have start : (empty name).counted key = 0 := rfl
  rw [counted_run (by rwa [start, Nat.zero_add]), start, Nat.zero_add]

/-- A value is at the number of its key. -/
theorem counted_of_get? {store : Store} {key : Bytes} {stored : Versioned Bytes}
    (h : store.get? key = some stored) : store.counted key = stored.counter.toNat := by
  obtain ⟨slot, hs, hv⟩ := Option.bind_eq_some_iff.1 h
  obtain ⟨value, -, rfl⟩ := Option.map_eq_some_iff.1 hv
  rw [counted, hs, Option.elim_some]

theorem mutations_le_length (store : Store) (key : Bytes) (writes : List (Bytes × Mutation)) :
    store.mutations key writes ≤ writes.length := by
  induction writes generalizing store with
  | nil => exact Nat.le_refl 0
  | cons w rest ih =>
      have one : (if w.1 = key ∧ store.counts w.1 w.2 then 1 else 0) ≤ 1 := by split <;> omega
      have rest := ih (store.mutate w.1 w.2).2
      rw [mutations, List.length_cons]
      omega

/-- **Counters count, and no counter of a key comes back.**  Whatever is written to a new store, as
long as no key counts its writes past the last counter: at every moment the slot of each key is at
the number of its writes, a write succeeds if and only if it fits, one that does not fit leaves the
whole store as it is, and none moves another key.  Who reads one counter at two moments has read one
value, and the key has not been written in between. -/
theorem counters_never_reused (name : String) (history : List (Bytes × Mutation))
    (few : ∀ key, (empty name).mutations key history < 18446744073709551616)
    (past : List (Bytes × Mutation)) (moment : past <+: history) :
    (∀ key, ((empty name).run past).counted key = (empty name).mutations key past) ∧
      (∀ key mutation, (((empty name).run past).mutate key mutation).1.isOk
        ↔ mutation.Fits (((empty name).run past).liveCounter? key)) ∧
      (∀ key mutation e, (((empty name).run past).mutate key mutation).1 = .error e →
        e = .swapMismatch ∧
          (((empty name).run past).mutate key mutation).2 = (empty name).run past) ∧
      (∀ key mutation other, other ≠ key →
        (((empty name).run past).mutate key mutation).2.slots.find? other
          = ((empty name).run past).slots.find? other) ∧
      ∀ between, past ++ between <+: history → ∀ key stored again,
        ((empty name).run past).get? key = some stored →
        ((empty name).run (past ++ between)).get? key = some again →
        again.counter = stored.counter →
        ((empty name).run past).mutations key between = 0 ∧ again = stored := by
  have fewer : ∀ part key, part <+: history →
      (empty name).mutations key part < 18446744073709551616 := by
    rintro part key ⟨rest, rfl⟩
    exact Nat.lt_of_le_of_lt (mutations_append .. ▸ Nat.le_add_right _ _) (few key)
  refine ⟨fun key => counted_run_empty (fewer past key moment), fun _ _ => mutate_isOk_iff,
    ?_, ?_, ?_⟩
  · intro key mutation e failed
    by_cases fits : mutation.Fits (((empty name).run past).liveCounter? key)
    · have ok := mutate_isOk_iff.2 fits
      rw [failed] at ok
      exact absurd ok Bool.false_ne_true
    · rw [mutate_of_not_fits fits] at failed ⊢
      exact ⟨(Except.error.inj failed).symm, rfl⟩
  · intro key mutation other ne
    rw [find?_mutate, if_neg fun h => ne h.1]
  · intro between later key stored again read reread same
    have before := counted_run_empty (fewer past key moment)
    have after := counted_run_empty (fewer (past ++ between) key later)
    rw [counted_of_get? read] at before
    rw [counted_of_get? reread, same, before, mutations_append] at after
    -- both moments have counted the same number of writes, so there is none between them
    have idle : ((empty name).run past).mutations key between = 0 := by omega
    have kept := find?_run idle
    rw [← run_append] at kept
    rw [get?, kept] at reread
    exact ⟨idle, Option.some.inj (reread.symm.trans read)⟩

/-- A key that is written, deleted, written anew and deleted at its counter is at four, the attempt
to write it at the counter of its first value aside. -/
theorem counters_never_reused_rewritten :
    (∀ key, (empty "t").mutations key [([1], .create [7]), ([1], .delete), ([1], .create [7]),
        ([1], .compareAndSet [8] 1), ([1], .compareAndDelete 3)] < 18446744073709551616) ∧
      ((empty "t").run [([1], .create [7]), ([1], .delete), ([1], .create [7]),
        ([1], .compareAndSet [8] 1), ([1], .compareAndDelete 3)]).counted [1] = 4 := by
  have few : ∀ key, (empty "t").mutations key [([1], .create [7]), ([1], .delete),
      ([1], .create [7]), ([1], .compareAndSet [8] 1), ([1], .compareAndDelete 3)]
        < 18446744073709551616 :=
    fun key => Nat.lt_of_le_of_lt (mutations_le_length _ _ _) (by decide)
  refine ⟨few, ?_⟩
  rw [(counters_never_reused "t" _ few _ (List.prefix_refl _)).1 [1]]
  decide

end Store

end DocStore
