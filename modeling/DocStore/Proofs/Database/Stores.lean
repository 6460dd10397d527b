/-
What a call does to the stores.

A call changes at most one store that is there already, and the slots of that store only by a
conditional write that goes through; every other change is to cursors, names or new stores.  All
that is proved of several operations at once starts from here, because between two calls nothing
of an operation happens.

* `Backend.store_putStore`, `Backend.store_append` — the stores after one is replaced or added;
* `Database.perform_get`, `Database.perform_write`, `Database.perform_write_of_not` — the replies
  to the calls that access a key;
* `Database.store_perform` — **what becomes of a store in one call**;
* `Database.store_perform_of_spares`, `Database.perform_of_isAccess`, `Database.length_perform` —
  what a call that spares a store, that only accesses stores, or that is any leaves as it is;
* `Database.backend_perform` — **what a call that is no such access does to the keyspaces;**
* `Database.recalls_perform`, `Database.passed_perform` — values and counters that a key has had
  are not forgotten, as long as no counter comes round to zero (`Database.HasRoom`);
* `Database.perform_registerTable_of_none` and the others — calls on a name, by what has the name;
* `Backend.Consistent`, `Database.consistent_perform` — a keyspace has a store that bears its name.
-/

import DocStore.Database
import DocStore.Proofs.Store.Versions

set_option autoImplicit false

namespace DocStore

namespace Backend

/-! ### Stores by number -/

theorem store_of_getElem? {backend : Backend} {id : StoreId} {store : Store}
    (h : backend.stores[id]? = some store) : backend.store id = store := by
  rw [Backend.store, h, Option.getD_some]

theorem getElem?_store {backend : Backend} {id : StoreId} (h : id < backend.stores.length) :
    backend.stores[id]? = some (backend.store id) := by
  rw [Backend.store, List.getElem?_eq_getElem h, Option.getD_some]

/-- Only a store that is there has keys. -/
theorem lt_length_of_find? {backend : Backend} {id : StoreId} {key : Bytes} {slot : Slot}
    (h : (backend.store id).slots.find? key = some slot) : id < backend.stores.length := by
  by_contra hl
  rw [Backend.store, List.getElem?_eq_none (Nat.le_of_not_lt hl)] at h
  exact absurd h (Option.some_ne_none slot).symm

theorem lt_length_of_get? {backend : Backend} {id : StoreId} {key : Bytes}
    {stored : Versioned Bytes} (h : (backend.store id).get? key = some stored) :
    id < backend.stores.length := by
  obtain ⟨slot, hs, -⟩ := Option.bind_eq_some_iff.1 h
  exact lt_length_of_find? hs

/-- Replacing a store changes that one, if it is there. -/
theorem store_putStore (backend : Backend) (id other : StoreId) (store : Store) :
    (backend.putStore id store).store other
      = if other = id ∧ id < backend.stores.length then store else backend.store other := by
  simp only [Backend.store, putStore, List.getElem?_set]
  by_cases hk : id = other
  · subst hk
    by_cases hl : id < backend.stores.length
    · simp [hl]
    · simp [hl]
  · simp [hk, Ne.symm hk]

@[simp] theorem length_putStore (backend : Backend) (id : StoreId) (store : Store) :
    (backend.putStore id store).stores.length = backend.stores.length := by
  simp [putStore]

/-- A new store comes after those that are there. -/
theorem store_append {stores new : List Store} {keyspaces other : SortedMap String StoreId}
    {id : StoreId} (h : id < stores.length) :
    Backend.store ⟨stores ++ new, keyspaces⟩ id = Backend.store ⟨stores, other⟩ id := by
  rw [Backend.store, Backend.store, List.getElem?_append_left h]

/-- Opening a keyspace changes no store that is there. -/
theorem store_openKeyspace {backend : Backend} (name : String) {id : StoreId}
    (h : id < backend.stores.length) :
    (backend.openKeyspace name).2.store id = backend.store id := by
  unfold openKeyspace
  split
  · rfl
  · exact store_append h

/-- A keyspace that is opened has no keys yet, unless its store was there already. -/
theorem lt_length_of_find?_openKeyspace {backend : Backend} {name : String} {id : StoreId}
    {key : Bytes} {slot : Slot}
    (h : ((backend.openKeyspace name).2.store id).slots.find? key = some slot) :
    id < backend.stores.length := by
  unfold openKeyspace at h
  split at h
  · exact lt_length_of_find? h
  · have lt := lt_length_of_find? h
    by_contra hl
    -- the only store beyond those that were there is the new one, which is empty
    rw [List.length_append] at lt
    obtain rfl : id = backend.stores.length :=
      Nat.le_antisymm (Nat.le_of_lt_succ lt) (Nat.le_of_not_lt hl)
    rw [Backend.store, List.getElem?_concat_length, Option.getD_some] at h
    cases h

theorem lt_length_of_get?_openKeyspace {backend : Backend} {name : String} {id : StoreId}
    {key : Bytes} {stored : Versioned Bytes}
    (h : ((backend.openKeyspace name).2.store id).get? key = some stored) :
    id < backend.stores.length := by
  obtain ⟨slot, hs, -⟩ := Option.bind_eq_some_iff.1 h
  exact lt_length_of_find?_openKeyspace hs

theorem length_openKeyspace (backend : Backend) (name : String) :
    backend.stores.length ≤ (backend.openKeyspace name).2.stores.length := by
  unfold openKeyspace
  split
  · exact Nat.le_refl _
  · simp

/-! ### Names -/

/-- Every keyspace has a store that bears its name. -/
def Consistent (backend : Backend) : Prop :=
  ∀ name id, backend.find? name = some id →
    ∃ store, backend.stores[id]? = some store ∧ store.keyspace = name

theorem consistent_empty : Backend.empty.Consistent := by
  intro name id h
  simp [Backend.find?, Backend.empty] at h

theorem Consistent.putStore {backend : Backend} (h : backend.Consistent) {id : StoreId}
    {store : Store} (same : store.keyspace = (backend.store id).keyspace) :
    (backend.putStore id store).Consistent := by
  intro name other hname
  obtain ⟨found, hfound, hkey⟩ := h name other hname
  by_cases hk : id = other
  · subst hk
    have hl : id < backend.stores.length := (List.getElem?_eq_some_iff.1 hfound).1
    refine ⟨store, by simp [Backend.putStore, hl], ?_⟩
    rw [same, store_of_getElem? hfound, hkey]
  · exact ⟨found, by simpa [Backend.putStore, List.getElem?_set, hk] using hfound, hkey⟩

/-- The store of a keyspace that is opened bears its name. -/
theorem Consistent.openKeyspace {backend : Backend} (h : backend.Consistent) (name : String) :
    (backend.openKeyspace name).2.Consistent ∧
      ∃ store, (backend.openKeyspace name).2.stores[(backend.openKeyspace name).1]? = some store ∧
        store.keyspace = name := by
  unfold Backend.openKeyspace
  cases hf : backend.find? name with
  | some id => exact ⟨h, h name id hf⟩
  | none =>
      refine ⟨?_, .empty name, by simp, rfl⟩
      intro other id hid
      simp only [Backend.find?, SortedMap.find?_insert] at hid
      split at hid
      · rename_i ho
        exact ⟨.empty name, by simp [← Option.some.inj hid], ho.symm⟩
      · obtain ⟨store, hs, hkey⟩ := h other id hid
        refine ⟨store, ?_, hkey⟩
        rw [List.getElem?_append_left (List.getElem?_eq_some_iff.1 hs).1, hs]

/-- Opening a keyspace gives its name a store, if it has none, and no other name. -/
theorem find?_openKeyspace (backend : Backend) (name other : String) :
    (backend.openKeyspace name).2.find? other
      = if other = name then some (backend.openKeyspace name).1 else backend.find? other := by
  unfold openKeyspace
  cases found : backend.find? name with
  | some id =>
      by_cases same : other = name
      · rw [if_pos same, same]
        exact found
      · rw [if_neg same]
  | none => exact SortedMap.find?_insert _ _ _ _

/-- The store of a name that had none is a new one. -/
theorem openKeyspace_of_none {backend : Backend} {name : String}
    (free : backend.find? name = none) :
    backend.openKeyspace name
      = (backend.stores.length,
          ⟨backend.stores ++ [.empty name],
            backend.keyspaces.insert name backend.stores.length⟩) := by
  unfold openKeyspace
  rw [free]

theorem Consistent.dropKeyspace {backend : Backend} (h : backend.Consistent) (name : String) :
    (backend.dropKeyspace name).Consistent := by
  intro other id hid
  simp only [Backend.find?, Backend.dropKeyspace, SortedMap.find?_erase] at hid
  split at hid
  · exact absurd hid (Option.some_ne_none id).symm
  · exact h other id hid

end Backend

/-! ### Accesses to one key -/

/-- What comes back from a conditional write, given its counter. -/
def SlotWrite.reply : SlotWrite → Except Error Counter → Reply
  | .create _, result => .counter result
  | .replace _ _, result => .counter result
  | .erase _, result => .done (result.map fun _ => ())

/-- What a call may turn a store into: a conditional write goes through to it, or its slots and its
name stay. -/
def Call.Turns (call : Call) (id : StoreId) (before after : Store) : Prop :=
  (∃ write key, call = SlotWrite.call write id key ∧ write.Accepts (before.get? key) ∧
      after = write.applied before key) ∨
    after.slots = before.slots ∧ after.keyspace = before.keyspace

/-- A call that neither writes a store nor opens or releases a cursor on it. -/
def Call.Spares (id : StoreId) : Call → Prop
  | .create target _ _ => target ≠ id
  | .compareAndSet target _ _ _ => target ≠ id
  | .compareAndDelete target _ _ => target ≠ id
  | .iter target _ => target ≠ id
  | .release target => target ≠ id
  | _ => True

/-- A call that accesses the stores that are there, and neither names nor registers anything. -/
def Call.IsAccess : Call → Prop
  | .registerIndex _ _ _ => False
  | .unregisterIndex _ _ => False
  | .takeIndexes _ => False
  | .registerTable _ => False
  | .unregisterTable _ => False
  | .dropKeyspace _ => False
  | _ => True

theorem SlotWrite.call_spares {write : SlotWrite} {target id : StoreId} {key : Bytes}
    (h : target ≠ id) : (write.call target key).Spares id := by
  cases write <;> exact h

theorem SlotWrite.call_isAccess (write : SlotWrite) (target : StoreId) (key : Bytes) :
    (write.call target key).IsAccess := by
  cases write <;> trivial

namespace Database

theorem perform_get (db : Database) (id : StoreId) (key : Bytes) :
    db.perform (.get id key) none = (.document (.ok ((db.backend.store id).get? key)), db) := rfl

/-- A conditional write that is made to fail. -/
theorem perform_write_some (db : Database) (write : SlotWrite) (id : StoreId) (key : Bytes)
    (e : Error) :
    db.perform (write.call id key) (some e) = (write.reply (.error e), db) := by
  cases write <;> rfl

/-- A conditional write that goes through. -/
theorem perform_write (db : Database) {write : SlotWrite} {id : StoreId} {key : Bytes}
    (accepts : write.Accepts ((db.backend.store id).get? key)) :
    db.perform (write.call id key) none
      = (write.reply (.ok ((db.backend.store id).next key)),
          db.putStore id (write.applied (db.backend.store id) key)) := by
  cases write with
  | create value =>
      have free : (db.backend.store id).liveCounter? key = none := by
        rw [Store.liveCounter?, show (db.backend.store id).get? key = none from accepts,
          Option.map_none]
      simp only [perform, SlotWrite.call, forward, Store.create?, free, conditional]
      rfl
  | replace value expected =>
      have found : (db.backend.store id).liveCounter? key = some expected := accepts
      simp only [perform, SlotWrite.call, forward, Store.compareAndSet?, found, if_true,
        conditional]
      rfl
  | erase expected =>
      have found : (db.backend.store id).liveCounter? key = some expected := accepts
      simp only [perform, SlotWrite.call, forward, Store.compareAndDelete?, found, if_true]
      rfl

/-- The store after a conditional write that goes through. -/
theorem store_perform_write (db : Database) {write : SlotWrite} {id : StoreId} {key : Bytes}
    (accepts : write.Accepts ((db.backend.store id).get? key))
    (h : id < db.backend.stores.length) :
    (db.perform (write.call id key) none).2.backend.store id
      = write.applied (db.backend.store id) key := by
  rw [db.perform_write accepts, putStore, Backend.store_putStore, if_pos ⟨rfl, h⟩]

/-- A conditional write that finds another state changes nothing. -/
theorem perform_write_of_not (db : Database) {write : SlotWrite} {id : StoreId} {key : Bytes}
    (refuses : ¬ write.Accepts ((db.backend.store id).get? key)) :
    db.perform (write.call id key) none = (write.reply (.error .swapMismatch), db) := by
  cases write with
  | create value =>
      obtain ⟨stored, hs⟩ := Option.ne_none_iff_exists'.1 refuses
      have found : (db.backend.store id).liveCounter? key = some stored.counter :=
        Store.liveCounter?_of_get? hs
      simp only [perform, SlotWrite.call, forward, Store.create?, found, conditional]
      rfl
  | replace value expected =>
      have found : (db.backend.store id).liveCounter? key ≠ some expected := refuses
      simp only [perform, SlotWrite.call, forward, Store.compareAndSet?, found, if_false,
        conditional]
      rfl
  | erase expected =>
      have found : (db.backend.store id).liveCounter? key ≠ some expected := refuses
      simp only [perform, SlotWrite.call, forward, Store.compareAndDelete?, found, if_false]
      rfl

/-! ### Stores after a call -/

/-- A call is made to fail, or it does what it does without faults. -/
theorem perform_cases (db : Database) (call : Call) (fault : Option Error) :
    (∃ e, fault = some e ∧ db.perform call fault = (failed call e, db)) ∨
      db.perform call fault = db.forward call := by
  unfold perform
  split
  · rename_i e site hsite
    exact Or.inl ⟨e, rfl, rfl⟩
  · exact Or.inr rfl

/-- Without a fault a call does what it does. -/
theorem perform_none (db : Database) (call : Call) : db.perform call none = db.forward call :=
  (db.perform_cases call none).resolve_left fun ⟨_, no, _⟩ => nomatch no

/-- What a conditional write does to a store: it is written if it is the store of the call, and
the write goes through. -/
theorem turns_write (db : Database) (write : SlotWrite) (target : StoreId) (key : Bytes)
    {id : StoreId} (h : id < db.backend.stores.length) :
    (write.call target key).Turns id (db.backend.store id)
      ((db.forward (write.call target key)).2.backend.store id) := by
  change (write.call target key).Turns id (db.backend.store id)
    ((db.perform (write.call target key) none).2.backend.store id)
  by_cases accepts : write.Accepts ((db.backend.store target).get? key)
  · rw [db.perform_write accepts]
    simp only [putStore, Backend.store_putStore]
    by_cases hk : id = target
    · subst hk
      exact Or.inl ⟨write, key, rfl, accepts, by rw [if_pos ⟨rfl, h⟩]⟩
    · rw [if_neg fun hc => hk hc.1]
      exact Or.inr ⟨rfl, rfl⟩
  · rw [db.perform_write_of_not accepts]
    exact Or.inr ⟨rfl, rfl⟩

/-- Cursors that are counted are all that changes in a store when one is opened or released. -/
theorem slots_putStore_cursors (backend : Backend) (target id : StoreId) (cursors : Int) :
    ((backend.putStore target { backend.store target with openCursors := cursors }).store id).slots
        = (backend.store id).slots ∧
      ((backend.putStore target
          { backend.store target with openCursors := cursors }).store id).keyspace
        = (backend.store id).keyspace := by
  rw [Backend.store_putStore]
  split
  · rename_i hk
    exact ⟨by rw [hk.1], by rw [hk.1]⟩
  · exact ⟨rfl, rfl⟩

/-- **What a call does to the names that is no access to the stores**: it opens the keyspace of an
index or of a table, it drops a keyspace, or it does nothing to them. -/
theorem backend_perform (db : Database) {call : Call} (fault : Option Error)
    (access : ¬ call.IsAccess) :
    (db.perform call fault).2.backend = db.backend ∨
      (∃ table name path, call = .registerIndex table name path ∧ (db.perform call fault).2.backend
        = (db.backend.openKeyspace (Name.buckets table.name name)).2) ∨
      (∃ name, call = .registerTable name ∧ (db.perform call fault).2.backend
        = (db.backend.openKeyspace (Name.documents name)).2) ∨
      ∃ name, call = .dropKeyspace name ∧
        (db.perform call fault).2.backend = db.backend.dropKeyspace name := by
  rcases db.perform_cases call fault with ⟨e, -, he⟩ | hf
  · rw [he]
    exact Or.inl rfl
  rw [hf]
  cases call with
  | registerIndex table name path =>
      simp only [forward]
      split
      · exact Or.inl rfl
      · exact Or.inr (Or.inl ⟨table, name, path, rfl, rfl⟩)
  | registerTable name =>
      simp only [forward]
      split
      · exact Or.inl rfl
      · exact Or.inr (Or.inr (Or.inl ⟨name, rfl, rfl⟩))
  | dropKeyspace name => exact Or.inr (Or.inr (Or.inr ⟨name, rfl, rfl⟩))
  | unregisterIndex table name =>
      simp only [forward]
      split <;> exact Or.inl rfl
  | unregisterTable name =>
      simp only [forward]
      split <;> exact Or.inl rfl
  | takeIndexes table => exact Or.inl rfl
  | get | create | compareAndSet | compareAndDelete | iter | release | readIndexes | modify =>
      exact absurd trivial access

/-- A call that is no access to the stores leaves them as they are. -/
theorem store_perform_of_not_isAccess (db : Database) {call : Call} (fault : Option Error)
    (access : ¬ call.IsAccess) {id : StoreId} (h : id < db.backend.stores.length) :
    (db.perform call fault).2.backend.store id = db.backend.store id := by
  rcases db.backend_perform fault access with
    same | ⟨table, name, path, -, opened⟩ | ⟨name, -, opened⟩ | ⟨name, -, dropped⟩
  · rw [same]
  · rw [opened, Backend.store_openKeyspace _ h]
  · rw [opened, Backend.store_openKeyspace _ h]
  · rw [dropped]
    rfl

/-- **What becomes of a store in one call.** -/
theorem store_perform (db : Database) (call : Call) (fault : Option Error) {id : StoreId}
    (h : id < db.backend.stores.length) :
    call.Turns id (db.backend.store id) ((db.perform call fault).2.backend.store id) := by
  by_cases access : call.IsAccess
  · rcases db.perform_cases call fault with ⟨e, -, he⟩ | hf
    · rw [he]
      exact Or.inr ⟨rfl, rfl⟩
    rw [hf]
    -- the three conditional writes are one case, and all other accesses leave the slots alone
    cases call with
    | create target key value => exact db.turns_write (.create value) target key h
    | compareAndSet target key value expected =>
        exact db.turns_write (.replace value expected) target key h
    | compareAndDelete target key expected => exact db.turns_write (.erase expected) target key h
    | iter target reverse => exact Or.inr (slots_putStore_cursors db.backend target id _)
    | release target => exact Or.inr (slots_putStore_cursors db.backend target id _)
    | get | readIndexes | modify => exact Or.inr ⟨rfl, rfl⟩
    | registerIndex | unregisterIndex | takeIndexes | registerTable | unregisterTable
    | dropKeyspace => exact access.elim
  · rw [db.store_perform_of_not_isAccess fault access h]
    exact Or.inr ⟨rfl, rfl⟩

/-! ### What stays as it is -/

/-- A store that is neither written nor read through a cursor stays as it is. -/
theorem store_perform_of_spares (db : Database) {call : Call} (fault : Option Error)
    {id : StoreId} (h : id < db.backend.stores.length) (spares : call.Spares id) :
    (db.perform call fault).2.backend.store id = db.backend.store id := by
  by_cases access : call.IsAccess
  · rcases db.perform_cases call fault with ⟨e, -, he⟩ | hf
    · rw [he]
    rw [hf]
    have other : ∀ (target : StoreId) (store : Store), target ≠ id →
        (db.backend.putStore target store).store id = db.backend.store id := by
      intro target store ne
      rw [Backend.store_putStore, if_neg fun hc => ne hc.1.symm]
    have written : ∀ (target : StoreId) (result : Option (Counter × Store)), target ≠ id →
        (db.conditional target result).2.backend.store id = db.backend.store id := by
      intro target result ne
      cases result with
      | none => rfl
      | some r => exact other target r.2 ne
    cases call with
    | create target key value => exact written target _ spares
    | compareAndSet target key value expected => exact written target _ spares
    | compareAndDelete target key expected =>
        simp only [forward]
        split
        · exact other target _ spares
        · rfl
    | iter target reverse => exact other target _ spares
    | release target => exact other target _ spares
    | get | readIndexes | modify => rfl
    | registerIndex | unregisterIndex | takeIndexes | registerTable | unregisterTable
    | dropKeyspace => exact access.elim
  · exact db.store_perform_of_not_isAccess fault access h

/-- An access to the stores leaves names and registrations as they are. -/
theorem perform_of_isAccess (db : Database) {call : Call} (fault : Option Error)
    (access : call.IsAccess) :
    (db.perform call fault).2.config = db.config ∧
      (db.perform call fault).2.indexes = db.indexes ∧
      (db.perform call fault).2.catalog = db.catalog ∧
      (db.perform call fault).2.backend.keyspaces = db.backend.keyspaces ∧
      (db.perform call fault).2.backend.stores.length = db.backend.stores.length := by
  have same : ∀ (id : StoreId) (store : Store),
      (db.putStore id store).config = db.config ∧ (db.putStore id store).indexes = db.indexes ∧
        (db.putStore id store).catalog = db.catalog ∧
        (db.putStore id store).backend.keyspaces = db.backend.keyspaces ∧
        (db.putStore id store).backend.stores.length = db.backend.stores.length :=
    fun id store => ⟨rfl, rfl, rfl, rfl, Backend.length_putStore db.backend id store⟩
  rcases db.perform_cases call fault with ⟨e, -, he⟩ | hf
  · rw [he]
    exact ⟨rfl, rfl, rfl, rfl, rfl⟩
  rw [hf]
  have written : ∀ (id : StoreId) (result : Option (Counter × Store)),
      (db.conditional id result).2.config = db.config ∧
        (db.conditional id result).2.indexes = db.indexes ∧
        (db.conditional id result).2.catalog = db.catalog ∧
        (db.conditional id result).2.backend.keyspaces = db.backend.keyspaces ∧
        (db.conditional id result).2.backend.stores.length = db.backend.stores.length := by
    intro id result
    cases result with
    | none => exact ⟨rfl, rfl, rfl, rfl, rfl⟩
    | some r => exact same id r.2
  cases call with
  | create id key value => exact written id _
  | compareAndSet id key value expected => exact written id _
  | compareAndDelete id key expected =>
      simp only [forward]
      split
      · exact same id _
      · exact ⟨rfl, rfl, rfl, rfl, rfl⟩
  | iter id reverse => exact same id _
  | release id => exact same id _
  | get | readIndexes | modify => exact ⟨rfl, rfl, rfl, rfl, rfl⟩
  | registerIndex | unregisterIndex | takeIndexes | registerTable | unregisterTable
  | dropKeyspace => exact access.elim

/-- No store is taken away. -/
theorem length_perform (db : Database) (call : Call) (fault : Option Error) :
    db.backend.stores.length ≤ (db.perform call fault).2.backend.stores.length := by
  by_cases access : call.IsAccess
  · obtain ⟨-, -, -, -, length⟩ := db.perform_of_isAccess fault access
    exact Nat.le_of_eq length.symm
  rcases db.backend_perform fault access with
    same | ⟨table, name, path, -, opened⟩ | ⟨name, -, opened⟩ | ⟨name, -, dropped⟩
  · exact Nat.le_of_eq (by rw [same])
  · rw [opened]
    exact Backend.length_openKeyspace _ _
  · rw [opened]
    exact Backend.length_openKeyspace _ _
  · rw [dropped]
    exact Nat.le_refl _

/-- A store that was not there has no keys after a call either. -/
theorem lt_length_of_find?_perform (db : Database) {call : Call} {fault : Option Error}
    {id : StoreId} {key : Bytes} {slot : Slot}
    (h : ((db.perform call fault).2.backend.store id).slots.find? key = some slot) :
    id < db.backend.stores.length := by
  by_cases access : call.IsAccess
  · have lt := Backend.lt_length_of_find? h
    rwa [(db.perform_of_isAccess fault access).2.2.2.2] at lt
  rcases db.backend_perform fault access with
    same | ⟨table, name, path, -, opened⟩ | ⟨name, -, opened⟩ | ⟨name, -, dropped⟩
  · rw [same] at h
    exact Backend.lt_length_of_find? h
  · rw [opened] at h
    exact Backend.lt_length_of_find?_openKeyspace h
  · rw [opened] at h
    exact Backend.lt_length_of_find?_openKeyspace h
  · -- a keyspace that is dropped leaves its store where it is
    rw [dropped] at h
    have found : (db.backend.store id).slots.find? key = some slot := h
    exact Backend.lt_length_of_find? found

/-! ### What is not forgotten -/

/-- A call that counts no slot beyond the last counter. -/
def HasRoom (db : Database) : Call → Prop
  | .create id key _ => (db.backend.store id).HasRoom key
  | .compareAndSet id key _ _ => (db.backend.store id).HasRoom key
  | .compareAndDelete id key _ => (db.backend.store id).HasRoom key
  | _ => True

instance (db : Database) : (call : Call) → Decidable (db.HasRoom call)
  | .create id key _ => inferInstanceAs (Decidable ((db.backend.store id).HasRoom key))
  | .compareAndSet id key _ _ => inferInstanceAs (Decidable ((db.backend.store id).HasRoom key))
  | .compareAndDelete id key _ => inferInstanceAs (Decidable ((db.backend.store id).HasRoom key))
  | .get _ _ | .iter _ _ | .release _ | .readIndexes _ | .registerIndex _ _ _
  | .unregisterIndex _ _ | .takeIndexes _ | .registerTable _ | .unregisterTable _
  | .dropKeyspace _ | .modify => inferInstanceAs (Decidable True)

theorem HasRoom.of_write {db : Database} {write : SlotWrite} {id : StoreId} {key : Bytes}
    (h : db.HasRoom (write.call id key)) : (db.backend.store id).HasRoom key := by
  cases write <;> exact h

/-- A value that a key has had is not forgotten. -/
theorem recalls_perform {db : Database} {call : Call} (fault : Option Error)
    (room : db.HasRoom call) {id : StoreId} {key : Bytes} {stored : Versioned Bytes}
    (h : (db.backend.store id).Recalls key stored) :
    ((db.perform call fault).2.backend.store id).Recalls key stored := by
  -- a key that has been written is in a store that is there
  have hl : id < db.backend.stores.length := by
    obtain ⟨slot, hs, -⟩ := h
    exact Backend.lt_length_of_find? hs
  rcases db.store_perform call fault hl with ⟨write, other, rfl, accepts, hw⟩ | ⟨same, -⟩
  · rw [hw]
    exact h.applied accepts room.of_write
  · simpa only [Store.Recalls, same] using h

/-- A key that has been written since it was at a counter never returns to it. -/
theorem passed_perform {db : Database} {call : Call} (fault : Option Error)
    (room : db.HasRoom call) {id : StoreId} {key : Bytes} {counter : Counter}
    (h : (db.backend.store id).Passed key counter) :
    ((db.perform call fault).2.backend.store id).Passed key counter := by
  have hl : id < db.backend.stores.length := by
    obtain ⟨slot, hs, -⟩ := h
    exact Backend.lt_length_of_find? hs
  rcases db.store_perform call fault hl with ⟨write, other, rfl, accepts, hw⟩ | ⟨same, -⟩
  · rw [hw]
    exact h.applied accepts room.of_write
  · simpa only [Store.Passed, same] using h

/-! ### Names that are free, and names that are taken -/

section Names

variable {db : Database} {name : String}

theorem perform_registerTable_of_some {table : Table} (taken : db.table? name = some table) :
    db.perform (.registerTable name) none = (.table (.error (.alreadyExists name)), db) := by
  rw [perform_none]
  simp only [forward, taken]

theorem perform_registerTable_of_none (free : db.table? name = none) :
    db.perform (.registerTable name) none
      = (.table (.ok (db.addTable name).1), (db.addTable name).2) := by
  rw [perform_none]
  simp only [forward, free]

theorem perform_unregisterTable_of_some {table : Table} (found : db.table? name = some table) :
    db.perform (.unregisterTable name) none
      = (.table (.ok table), { db with catalog := db.catalog.erase name }) := by
  rw [perform_none]
  simp only [forward, found]

theorem perform_unregisterTable_of_none (missing : db.table? name = none) :
    db.perform (.unregisterTable name) none = (.table (.error .notFound), db) := by
  rw [perform_none]
  simp only [forward, missing]

theorem perform_registerIndex_of_some {table : Table} {index : Index}
    (taken : (db.indexesOf table.id).find? name = some index) (path : FieldPath) :
    db.perform (.registerIndex table name path) none
      = (.index (.error (.alreadyExists (Name.qualified table.name name))), db) := by
  rw [perform_none]
  simp only [forward, taken]

theorem perform_registerIndex_of_none {table : Table}
    (free : (db.indexesOf table.id).find? name = none) (path : FieldPath) :
    db.perform (.registerIndex table name path) none
      = (.index (.ok (db.addIndex table name path).1), (db.addIndex table name path).2) := by
  rw [perform_none]
  simp only [forward, free]

theorem perform_unregisterIndex_of_some {table : TableId} {index : Index}
    (found : (db.indexesOf table).find? name = some index) :
    db.perform (.unregisterIndex table name) none
      = (.index (.ok index), db.putIndexes table ((db.indexesOf table).erase name)) := by
  rw [perform_none]
  simp only [forward, found]

theorem perform_unregisterIndex_of_none {table : TableId}
    (missing : (db.indexesOf table).find? name = none) :
    db.perform (.unregisterIndex table name) none = (.index (.error .notFound), db) := by
  rw [perform_none]
  simp only [forward, missing]

end Names

/-! ### Names after a call -/

/-- Every keyspace has a store that bears its name, also after a call. -/
theorem consistent_perform {db : Database} (call : Call) (fault : Option Error)
    (h : db.backend.Consistent) : (db.perform call fault).2.backend.Consistent := by
  by_cases access : call.IsAccess
  · rcases db.perform_cases call fault with ⟨e, -, he⟩ | hf
    · rw [he]
      exact h
    rw [hf]
    -- the three conditional writes are one case again
    have written : ∀ (write : SlotWrite) (id : StoreId) (key : Bytes),
        (db.forward (write.call id key)).2.backend.Consistent := by
      intro write id key
      change (db.perform (write.call id key) none).2.backend.Consistent
      by_cases accepts : write.Accepts ((db.backend.store id).get? key)
      · rw [db.perform_write accepts]
        exact h.putStore (Store.keyspace_applied write _ key)
      · rw [db.perform_write_of_not accepts]
        exact h
    cases call with
    | create id key value => exact written (.create value) id key
    | compareAndSet id key value expected => exact written (.replace value expected) id key
    | compareAndDelete id key expected => exact written (.erase expected) id key
    | iter id reverse => exact h.putStore rfl
    | release id => exact h.putStore rfl
    | get | readIndexes | modify => exact h
    | registerIndex | unregisterIndex | takeIndexes | registerTable | unregisterTable
    | dropKeyspace => exact access.elim
  · rcases db.backend_perform fault access with
      same | ⟨table, name, path, -, opened⟩ | ⟨name, -, opened⟩ | ⟨name, -, dropped⟩
    · rw [same]
      exact h
    · rw [opened]
      exact (h.openKeyspace _).1
    · rw [opened]
      exact (h.openKeyspace _).1
    · rw [dropped]
      exact h.dropKeyspace name

end Database

end DocStore
