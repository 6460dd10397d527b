/-
Operations that others disturb.

An operation that is not alone finds, before each of its calls, the database that others have left
behind, and any call may fail or be told that it lost a race.  What the operation has done itself is
told by the databases around its calls.

* `Disturbance` — what others may do between two calls, which faults a call may meet, and how the
  operation itself may vary;
* `Footprint` — the databases around one call; `Footprint.Idle`, `Footprint.Spares`,
  `Footprint.Writes` — a call that has changed nothing, that has left a store alone, and that has
  written one slot of a store and counted it up by one;
* `WritesOnce` — calls of which exactly one writes a slot of a store;
* `Ends` — an operation that ends among others, with the footprints of its calls;
* `Ends.satisfies` — **what others keep, and every call, holds of the result;**
* `Database.perform_write_cases` — **a conditional write, whatever becomes of it, writes its slot or
  changes nothing;**
* `Database.suffer?` — such an end, computed.
-/

import DocStore.Proofs.Database.Stores
import DocStore.Proofs.Run.System

set_option autoImplicit false

namespace DocStore

/-! ### Footprints -/

/-- What one call of an operation did: the database before it and the one after it. -/
structure Footprint where
  /-- The database that the call found. -/
  before : Database
  /-- The database that it left behind. -/
  after : Database

namespace Footprint

/-- The call has changed nothing at all. -/
def Idle (step : Footprint) : Prop :=
  step.after = step.before

/-- The call has left a store alone. -/
def Spares (step : Footprint) (id : StoreId) : Prop :=
  step.after.backend.store id = step.before.backend.store id

/-- The call has written one slot, and nothing else: the slot is at this counter now, which is one
more than before. -/
structure Writes (step : Footprint) (id : StoreId) (key : Bytes) (counter : Counter) : Prop where
  /-- The slot is at the counter. -/
  counted : ((step.after.backend.store id).slots.find? key).map Slot.counter = some counter
  /-- The counter is the next one; a slot that was never written counts from zero. -/
  next : counter = ((step.before.backend.store id).slots.find? key).elim 0 Slot.counter + 1
  /-- It is the next number, too, unless the counter has come round. -/
  room : (step.before.backend.store id).HasRoom key → counter.toNat
    = ((step.before.backend.store id).slots.find? key).elim 0 (fun slot => slot.counter.toNat) + 1
  /-- No other slot of the store has changed. -/
  others : ∀ other, other ≠ key →
    (step.after.backend.store id).slots.find? other
      = (step.before.backend.store id).slots.find? other
  /-- No other store has changed. -/
  elsewhere : ∀ other, other ≠ id → step.Spares other

end Footprint

/-- Of some calls exactly one has written a slot of a store, the one with this key, at this
counter; those before it have changed nothing. -/
def WritesOnce (steps : List Footprint) (id : StoreId) (key : Bytes) (counter : Counter) : Prop :=
  ∃ earlier step later, steps = earlier ++ step :: later ∧ (∀ f ∈ earlier, f.Idle) ∧
    step.Writes id key counter ∧ ∀ f ∈ later, f.Spares id

theorem WritesOnce.cons {steps : List Footprint} {id : StoreId} {key : Bytes} {counter : Counter}
    (h : WritesOnce steps id key counter) {first : Footprint} (idle : first.Idle) :
    WritesOnce (first :: steps) id key counter := by
  obtain ⟨earlier, step, later, rfl, quiet, writes, spares⟩ := h
  refine ⟨first :: earlier, step, later, rfl, ?_, writes, spares⟩
  intro f hf
  rcases List.mem_cons.1 hf with rfl | hf
  · exact idle
  · exact quiet f hf

/-- The first of the calls writes. -/
theorem Footprint.Writes.once {step : Footprint} {id : StoreId} {key : Bytes} {counter : Counter}
    (writes : step.Writes id key counter) {later : List Footprint}
    (spares : ∀ f ∈ later, f.Spares id) : WritesOnce (step :: later) id key counter :=
  ⟨[], step, later, rfl, by simp, writes, spares⟩

/-! ### Conditional writes -/

/-- The next counter of a key is the next number, if the key has room. -/
theorem Store.toNat_next {store : Store} {key : Bytes} (room : store.HasRoom key) :
    (store.next key).toNat
      = (store.slots.find? key).elim 0 (fun slot => slot.counter.toNat) + 1 := by
  unfold next
  cases hs : store.slots.find? key with
  | none => rfl
  | some slot =>
      have lt := room slot hs
      rw [UInt64.lt_iff_toNat_lt] at lt
      simp only [Option.elim_some, UInt64.toNat_add, UInt64.reduceToNat] at lt ⊢
      have := slot.counter.toNat_lt
      omega

namespace Database

/-- The footprint of a conditional write that goes through. -/
theorem writes_of_accepts (db : Database) {write : SlotWrite} {id : StoreId} {key : Bytes}
    (stored : id < db.backend.stores.length)
    (accepts : write.Accepts ((db.backend.store id).get? key)) :
    Footprint.Writes ⟨db, db.putStore id (write.applied (db.backend.store id) key)⟩ id key
      ((db.backend.store id).next key) := by
  have store : ∀ other, (db.putStore id (write.applied (db.backend.store id) key)).backend.store
      other = if other = id ∧ id < db.backend.stores.length
        then write.applied (db.backend.store id) key else db.backend.store other :=
    fun other => Backend.store_putStore _ _ _ _
  have own := (store id).trans (if_pos ⟨rfl, stored⟩)
  refine ⟨?_, rfl, Store.toNat_next, ?_, ?_⟩
  · rw [own, Store.find?_applied accepts, if_pos rfl, Option.map_some]
  · intro other ne
    rw [own, Store.find?_applied accepts, if_neg ne]
  · intro other ne
    exact (store other).trans (if_neg fun same => ne same.1)

/-- **A conditional write, whatever becomes of it, writes its slot or changes nothing.**  It tells
which of the two, with the counter of the slot. -/
theorem perform_write_cases (db : Database) (write : SlotWrite) {id : StoreId} {key : Bytes}
    (stored : id < db.backend.stores.length) (fault : Option Error) :
    (∃ e, db.perform (write.call id key) fault = (write.reply (.error e), db)) ∨
      ∃ counter after, db.perform (write.call id key) fault = (write.reply (.ok counter), after) ∧
        Footprint.Writes ⟨db, after⟩ id key counter := by
  rcases db.perform_cases (write.call id key) fault with ⟨e, -, failed⟩ | forward
  · refine Or.inl ⟨e, failed.trans ?_⟩
    cases write <;> rfl
  · rw [forward, ← db.perform_none]
    by_cases accepts : write.Accepts ((db.backend.store id).get? key)
    · exact Or.inr ⟨_, _, db.perform_write accepts, db.writes_of_accepts stored accepts⟩
    · exact Or.inl ⟨_, db.perform_write_of_not accepts⟩

/-- Reading a key changes nothing, whatever becomes of it. -/
theorem perform_get_cases (db : Database) (id : StoreId) (key : Bytes) (fault : Option Error) :
    (∃ e, db.perform (.get id key) fault = (.document (.error e), db)) ∨
      db.perform (.get id key) fault
        = (.document (.ok ((db.backend.store id).get? key)), db) := by
  rcases db.perform_cases (.get id key) fault with ⟨e, -, failed⟩ | forward
  · exact Or.inl ⟨e, failed⟩
  · exact Or.inr forward

end Database

/-! ### Operations among others -/

/-- What may happen to an operation while it is under way. -/
structure Disturbance (τ : Type) where
  /-- What others may do to the database between two calls. -/
  others : Database → Database → Prop
  /-- The faults that a call may meet. -/
  faults : Database → Call → Option Error → Prop
  /-- How the operation may have come to go on, if it depends on something that changes. -/
  varies : τ → τ → Prop

variable {τ α : Type} [Task τ α]

/-- An operation ends among others with a result and leaves a database behind; these are the
footprints of its calls. -/
inductive Ends {τ α : Type} [Task τ α] (around : Disturbance τ) :
    Database → Progress τ α → List Footprint → α → Database → Prop
  /-- It has ended. -/
  | finished (db : Database) (result : α) : Ends around db (.finished result) [] result db
  /-- Others have their turn, and then it performs its call and goes on with the reply. -/
  | waiting {db seen after : Database} {task now : τ} {fault : Option Error}
      {steps : List Footprint} {result : α} (meanwhile : around.others db seen)
      (varied : around.varies task now) (possible : around.faults seen (Task.call now) fault)
      (rest : Ends around (seen.perform (Task.call now) fault).2
        (Task.resume now (seen.perform (Task.call now) fault).1) steps result after) :
      Ends around db (.waiting task) (⟨seen, (seen.perform (Task.call now) fault).2⟩ :: steps)
        result after

/-- An end among others is also one among others that may do more. -/
theorem Ends.mono {around more : Disturbance τ} {db after : Database} {progress : Progress τ α}
    {steps : List Footprint} {result : α} (ends : Ends around db progress steps result after)
    (others : ∀ db seen, around.others db seen → more.others db seen)
    (faults : ∀ db call fault, around.faults db call fault → more.faults db call fault)
    (varies : ∀ task now, around.varies task now → more.varies task now) :
    Ends more db progress steps result after := by
  induction ends with
  | finished db result => exact .finished db result
  | waiting meanwhile varied possible _ ih =>
      exact .waiting (others _ _ meanwhile) (varies _ _ varied) (faults _ _ _ possible) ih

/-- What others keep, and every call with every fault that it may meet, holds of the result. -/
theorem Ends.satisfies {around : Disturbance τ} {db after : Database} {progress : Progress τ α}
    {steps : List Footprint} {result : α} {P : Database → τ → Prop} {Q : Database → α → Prop}
    (others : ∀ db seen task now, P db task → around.others db seen → around.varies task now →
      P seen now)
    (step : ∀ db task fault, P db task → around.faults db (Task.call task) fault →
      (Task.resume task (db.perform (Task.call task) fault).1).Satisfies
        (P (db.perform (Task.call task) fault).2) (Q (db.perform (Task.call task) fault).2))
    (h : Ends around db progress steps result after) (start : progress.Satisfies (P db) (Q db)) :
    Q after result := by
  induction h with
  | finished db result => exact start
  | waiting meanwhile varied possible _ ih =>
      exact ih (step _ _ _ (others _ _ _ _ start meanwhile varied) possible)

section Suffer

variable (around : Disturbance τ) [∀ db call fault, Decidable (around.faults db call fault)]

/-- The end of an operation before whose calls others do this, and whose calls meet these faults, if
they may. -/
def Database.suffer? :
    List ((Database → Database) × Option Error) → Database → Progress τ α →
      Option (List Footprint × α × Database)
  | _, db, .finished result => some ([], result, db)
  | [], _, .waiting _ => none
  | (others, fault) :: rest, db, .waiting task =>
      if around.faults (others db) (Task.call task) fault then
        let performed := (others db).perform (Task.call task) fault
        (suffer? rest performed.2 (Task.resume task performed.1)).map fun (steps, ended) =>
          (⟨others db, performed.2⟩ :: steps, ended)
      else none

variable {around}

theorem Ends.of_suffer? {moves : List ((Database → Database) × Option Error)}
    {db after : Database} {progress : Progress τ α} {steps : List Footprint} {result : α}
    (h : Database.suffer? around moves db progress = some (steps, result, after))
    (same : ∀ task, around.varies task task)
    (others : ∀ move ∈ moves, ∀ db, around.others db (move.1 db)) :
    Ends around db progress steps result after := by
  induction moves generalizing db progress steps with
  | nil =>
      cases progress with
      | finished a =>
          cases h
          exact .finished _ _
      | waiting task => cases h
  | cons move rest ih =>
      cases progress with
      | finished a =>
          cases h
          exact .finished _ _
      | waiting task =>
          simp only [Database.suffer?] at h
          split at h
          · rename_i possible
            obtain ⟨⟨later, ended⟩, hr, he⟩ := Option.map_eq_some_iff.1 h
            obtain ⟨rfl, rfl⟩ := Prod.mk.inj he
            exact .waiting (others move List.mem_cons_self db) (same task) possible
              (ih hr fun m hm => others m (List.mem_cons_of_mem move hm))
          · cases h

/-- An end that is computed, with a result of this kind. -/
theorem Ends.exists_of_suffer? {moves : List ((Database → Database) × Option Error)}
    {db : Database} {progress : Progress τ α} {p : α → Bool}
    (h : (Database.suffer? around moves db progress).any (fun ended => p ended.2.1) = true)
    (same : ∀ task, around.varies task task)
    (others : ∀ move ∈ moves, ∀ db, around.others db (move.1 db)) :
    ∃ steps result after, Ends around db progress steps result after ∧ p result = true := by
  obtain ⟨⟨steps, result, after⟩, hs, hp⟩ := (Option.any_eq_true _ _).1 h
  exact ⟨steps, result, after, .of_suffer? hs same others, hp⟩

end Suffer

end DocStore
