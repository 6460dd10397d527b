/-
The cursors that a store counts, and what a range does with its own.

A store counts up when a cursor is opened on it and down when one is given back, and knows nothing
of who holds them.  Only two calls touch the count, and only three operations make them: opening a
range, pulling a walk of an index at its end, and creating an index.  A range that is consumed is
pulled until it ends or until an entry is refused, and then dropped; either way its cursor is given
back once.

* `Database.cursors`, `Call.countsCursors` — the count of a store, and the calls that change it;
* `Database.cursors_open`, `Database.cursors_release`, `Database.cursors_perform` — **what they do
  to it, and that no other call does anything**;
* `DocumentTask.countsCursors_call` and the others — the operations that make none of these calls;
* `Database.consume`, `Database.consume_eq` — **consuming a range, item by item up to the first one
  that fails, gives what is left of it and closes it.**
-/

import DocStore.Proofs.Database.Requests
import DocStore.Proofs.Range.Scans

set_option autoImplicit false

namespace DocStore

/-! ### The count of a store -/

/-- How many cursors a store counts. -/
def Database.cursors (db : Database) (id : StoreId) : Int :=
  (db.backend.store id).openCursors

/-- A call that opens a cursor or gives one back. -/
def Call.countsCursors : Call → Bool
  | .iter _ _ => true
  | .release _ => true
  | _ => false

namespace Store

theorem openCursors_delete (store : Store) (key : Bytes) :
    (store.delete key).openCursors = store.openCursors := by
  unfold delete
  split
  · split <;> rfl
  · rfl

theorem openCursors_applied (write : SlotWrite) (store : Store) (key : Bytes) :
    (write.applied store key).openCursors = store.openCursors := by
  cases write with
  | create value => rfl
  | replace value expected => rfl
  | erase expected => exact store.openCursors_delete key

end Store

namespace Database

variable (db : Database)

/-- Replacing a store by one that counts as many cursors changes no count. -/
theorem cursors_putStore {id : StoreId} {store : Store}
    (same : store.openCursors = (db.backend.store id).openCursors) (other : StoreId) :
    (db.putStore id store).cursors other = db.cursors other := by
  simp only [cursors, putStore, Backend.store_putStore]
  split
  · rename_i h
    rw [same, h.1]
  · rfl

/-- A new store counts no cursors. -/
theorem cursors_openKeyspace (name : String) (id : StoreId) :
    ((db.backend.openKeyspace name).2.store id).openCursors = db.cursors id := by
  unfold Backend.openKeyspace cursors
  split
  · rfl
  · by_cases inside : id < db.backend.stores.length
    · rw [@Backend.store_append _ _ _ db.backend.keyspaces _ inside]
    · have outside : (db.backend.store id).openCursors = 0 := by
        rw [Backend.store, List.getElem?_eq_none (Nat.le_of_not_lt inside)]
        rfl
      rw [outside, Backend.store]
      by_cases new : id = db.backend.stores.length
      · rw [new, List.getElem?_concat_length]
        rfl
      · have beyond : db.backend.stores.length < id :=
          Nat.lt_of_le_of_ne (Nat.le_of_not_lt inside) (Ne.symm new)
        rw [List.getElem?_eq_none (by rw [List.length_append]; exact beyond)]
        rfl

/-- Giving a cursor back counts down the store. -/
theorem cursors_release {id : StoreId} (inside : id < db.backend.stores.length)
    (other : StoreId) :
    (db.putBackend (db.backend.releaseCursor id)).cursors other
      = db.cursors other - if id = other then 1 else 0 := by
  simp only [cursors, putBackend, Backend.releaseCursor, Backend.store_putStore]
  by_cases h : id = other
  · subst h
    simp only [inside, and_self, if_true]
  · rw [if_neg fun both => h both.1.symm, if_neg h, Int.sub_zero]

/-- Opening a cursor counts up the store. -/
theorem cursors_open {id : StoreId} (inside : id < db.backend.stores.length) (reverse : Bool)
    (other : StoreId) :
    (db.putBackend (db.backend.openCursor id reverse).2).cursors other
      = db.cursors other + if id = other then 1 else 0 := by
  simp only [cursors, putBackend, Backend.openCursor, Backend.store_putStore]
  by_cases h : id = other
  · subst h
    simp only [inside, and_self, if_true]
  · rw [if_neg fun both => h both.1.symm, if_neg h, Int.add_zero]

/-- **No other call changes a count.** -/
theorem cursors_perform {call : Call} (fault : Option Error) (other : call.countsCursors = false)
    (id : StoreId) : (db.perform call fault).2.cursors id = db.cursors id := by
  rcases db.perform_cases call fault with ⟨e, -, he⟩ | hf
  · rw [he]
  rw [hf]
  -- the three conditional writes are one case
  have written : ∀ (write : SlotWrite) (target : StoreId) (key : Bytes),
      (db.forward (write.call target key)).2.cursors id = db.cursors id := by
    intro write target key
    change (db.perform (write.call target key) none).2.cursors id = db.cursors id
    by_cases accepts : write.Accepts ((db.backend.store target).get? key)
    · rw [db.perform_write accepts]
      exact db.cursors_putStore (Store.openCursors_applied write _ key) id
    · rw [db.perform_write_of_not accepts]
  cases call with
  | create target key value => exact written (.create value) target key
  | compareAndSet target key value expected => exact written (.replace value expected) target key
  | compareAndDelete target key expected => exact written (.erase expected) target key
  | registerIndex table name path =>
      simp only [forward]
      split
      · rfl
      · exact db.cursors_openKeyspace _ id
  | registerTable name =>
      simp only [forward]
      split
      · rfl
      · exact db.cursors_openKeyspace _ id
  | unregisterIndex table name =>
      simp only [forward]
      split <;> rfl
  | unregisterTable name =>
      simp only [forward]
      split <;> rfl
  | get | readIndexes | takeIndexes | dropKeyspace | modify => rfl
  | iter | release => cases other

end Database

/-! ### Calls that are about no cursor -/

theorem SlotWrite.countsCursors_call (write : SlotWrite) (store : StoreId) (key : Bytes) :
    (write.call store key).countsCursors = false := by
  cases write <;> rfl

theorem BucketEdit.countsCursors_call (edit : BucketEdit) :
    (Task.call edit).countsCursors = false := by
  obtain ⟨index, indexKey, change, document, attempts, write⟩ := edit
  cases write with
  | none => rfl
  | some write => exact write.countsCursors_call _ _

theorem Settling.countsCursors_call (s : Settling) : (Task.call s).countsCursors = false := by
  obtain ⟨membership, attempts, stage⟩ := s
  cases stage with
  | before => rfl
  | editing seen edit => exact edit.countsCursors_call
  | after seen => rfl

theorem IndexSync.countsCursors_call (sync : IndexSync) :
    (Task.call sync).countsCursors = false := by
  obtain ⟨table, document, written, stage⟩ := sync
  cases stage with
  | reading old new => rfl
  | editing edit rest touched => exact edit.countsCursors_call
  | rechecking touched => rfl
  | settling queue => exact queue.current.countsCursors_call

theorem DocumentWrite.countsCursors_call (w : DocumentWrite) :
    (Task.call w).countsCursors = false := by
  obtain ⟨table, key, data, expected, attempts, stage⟩ := w
  cases stage with
  | reading => rfl
  | writing old write => exact write.countsCursors_call _ _
  | syncing counter sync => exact sync.countsCursors_call

theorem DocumentTask.countsCursors_call (t : DocumentTask) :
    (Task.call t).countsCursors = false := by
  cases t with
  | reading read => rfl
  | writing w => exact w.countsCursors_call
  | deleting d =>
      obtain ⟨table, key, expected, attempts, stage⟩ := d
      cases stage with
      | reading => rfl
      | erasing old counter => rfl
      | syncing sync => exact sync.countsCursors_call
  | updating u =>
      obtain ⟨table, key, modifier, attempts, stage⟩ := u
      cases stage with
      | reading => rfl
      | modifying current => rfl
      | writing w => exact w.countsCursors_call

theorem IndexDrop.countsCursors_call (d : IndexDrop) : (Task.call d).countsCursors = false := by
  obtain ⟨table, name, stage⟩ := d
  cases stage <;> rfl

theorem TableDrop.countsCursors_call (d : TableDrop) : (Task.call d).countsCursors = false := by
  obtain ⟨name, stage⟩ := d
  cases stage <;> rfl

theorem BucketLoad.countsCursors_call (load : BucketLoad) :
    (Task.call load).countsCursors = false := by
  obtain ⟨index, stage⟩ := load
  cases stage <;> rfl

theorem BucketFirst.countsCursors_call (task : BucketFirst) :
    (Task.call task).countsCursors = false := by
  obtain ⟨index, shape, stage⟩ := task
  cases stage <;> rfl

/-! ### Consuming a range -/

namespace Database

variable (db : Database)

/-- Consumes a range: its entries are pulled and made items of, up to the end or to the first one of
which there is none, and the range is dropped. -/
def consume {β : Type} (item : Entry → Except Error β) :
    (fuel : Nat) → Database → Range → Except Error (List β) × Database
  | 0, db, range => (.ok [], (db.close range).2)
  | fuel + 1, db, range =>
      match db.next range with
      | (none, rest, db) => (.ok [], (db.close rest).2)
      | (some (.error e), rest, db) => (.error e, (db.close rest).2)
      | (some (.ok e), rest, db) =>
          match item e with
          | .error e => (.error e, (db.close rest).2)
          | .ok b =>
              let (items, db) := consume item fuel db rest
              (items.map (b :: ·), db)

/-- **What consuming a range gives and leaves**: the items of the entries that were left, or the
first failure among them, and the range closed in either case. -/
theorem consume_eq {β : Type} (item : Entry → Except Error β) {range : Range}
    (placed : range.Placed) {fuel : Nat} (enough : range.left.length < fuel) :
    consume item fuel db range = (range.drain.mapM item, (db.close range).2) := by
  rw [Range.drain_eq_left placed]
  induction fuel generalizing range with
  | zero => exact absurd enough (Nat.not_lt_zero _)
  | succ fuel ih =>
      cases h : range.left with
      | nil =>
          have pulled := Range.pull_of_left_nil placed h
          cases closed : range.isClosed with
          | true =>
              rw [closed, if_pos rfl] at pulled
              simp only [consume, next, pull, pulled]
              rfl
          | false =>
              rw [closed, if_neg Bool.false_ne_true] at pulled
              have once : range.close.isClosed = true := rfl
              simp only [consume, next, pull, pulled, close, closed, once, if_true,
                Bool.false_eq_true, if_false]
              rfl
      | cons e rest =>
          obtain ⟨pulled, after⟩ := Range.pull_of_left_cons placed h
          have same : (db.close range.next).2 = (db.close range).2 := by
            obtain ⟨store, cursor, lower, upper, reverse⟩ := range
            cases cursor <;> rfl
          rw [h] at enough
          have more := ih placed.next (by rw [after]; exact Nat.lt_of_succ_lt_succ enough)
          simp only [consume, next, pull, pulled, List.mapM_cons]
          cases item e with
          | error e => exact Prod.ext rfl same
          | ok b =>
              simp only [more, after, same]
              cases rest.mapM item <;> rfl

end Database

end DocStore
