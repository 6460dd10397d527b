/-
The effect of one operation on a document.

Between the document and the buckets of all indexes, an operation that is alone with a table touches
exactly those slots that it has to.  A bucket that the document neither enters nor leaves stays as
it is, to the byte and to the counter; a bucket that the document enters has it last, and one that
it leaves has the others in their order, or becomes a tombstone; and the counter of each of these
has moved by one.  This is so in any number of indexes at once, also where a value occurs in both
versions of the document, and also where a tombstone comes back.

* `DocumentRequest.find?_apply` — no other document is touched;
* `Database.Refiles` — what an operation on a document does to one bucket;
* `DocumentRequest.completes_refiling` — **an operation on a document that is alone does so to every
  bucket, and to no document but its own.**
-/

import DocStore.Proofs.Documents.Alone
import DocStore.Proofs.Store.Mutations
import DocStore.Proofs.Table.History

set_option autoImplicit false

namespace DocStore

variable {db after : Database} {table : Table} {documents : Set String}

/-! ### The documents -/

/-- A document that is written is the only one that is touched. -/
theorem Store.find?_written (store : Store) (key : String) (value : Value) {other : Bytes}
    (ne : other ≠ Utf8.encode key) :
    (store.written key value).2.slots.find? other = store.slots.find? other := by
  unfold written
  split
  · exact (store.find?_set _ _ _).trans (if_neg ne)
  · rfl

/-- **An operation touches no other document.** -/
theorem DocumentRequest.find?_apply (request : DocumentRequest) (store : Store) {other : Bytes}
    (ne : other ≠ Utf8.encode request.key) :
    (request.apply store).2.slots.find? other = store.slots.find? other := by
  have deleted : ∀ key, other ≠ Utf8.encode key →
      (store.delete (Utf8.encode key)).slots.find? other = store.slots.find? other := by
    intro key ne
    rw [Store.find?_delete, if_neg fun h => ne h.1]
  cases request with
  | get key shape =>
      simp only [apply]
      split <;> rfl
  | set key value => exact store.find?_written key value ne
  | setIf key value expected =>
      simp only [apply]
      split
      · rfl
      · exact store.find?_written key value ne
  | delete key => exact deleted key ne
  | deleteIf key expected =>
      simp only [apply]
      split
      · split
        · exact deleted key ne
        · rfl
      · rfl
  | update key modifier =>
      simp only [apply]
      split
      · rfl
      · split
        · rfl
        · split
          · rfl
          · exact store.find?_written key _ ne

/-! ### The buckets -/

namespace Database

/-- What an operation on a document does to the bucket of a key. -/
structure Refiles (db : Database) (m : Membership) (after : Database) : Prop where
  /-- A bucket that the document neither enters nor leaves stays as it is. -/
  stays : (m.Wanted db ↔ m.Wanted after) →
    after.slot? m.index.buckets m.indexKey = db.slot? m.index.buckets m.indexKey
  /-- The document comes last in a bucket that it enters. -/
  enters : ¬ m.Wanted db → m.Wanted after → ∃ list,
    (db.backend.store m.index.buckets).bucket? m.indexKey = some list ∧
      after.slot? m.index.buckets m.indexKey = some (Bucket.slotOf (list ++ [m.document])
        ((db.slot? m.index.buckets m.indexKey).elim 0 Slot.counter + 1))
  /-- The others stay in their order in a bucket that it leaves. -/
  leaves : m.Wanted db → ¬ m.Wanted after → ∃ front back,
    (db.backend.store m.index.buckets).bucket? m.indexKey
        = some (front ++ m.document :: back) ∧
      m.document ∉ front ++ back ∧
      after.slot? m.index.buckets m.indexKey = some (Bucket.slotOf (front ++ back)
        ((db.slot? m.index.buckets m.indexKey).elim 0 Slot.counter + 1))

variable {m : Membership}

/-- **A bucket whose slot is as the change of its document demands** has been refiled. -/
theorem Tended.refiles (tended : db.Tended table documents) (hi : db.Registered table m.index)
    (exact : m.Exact db) {old new : Bytes}
    (before : m.Wanted db ↔ m.index.path.Yields old m.indexKey)
    (now : m.Wanted after ↔ m.index.path.Yields new m.indexKey)
    (slot : after.slot? m.index.buckets m.indexKey
      = Bucket.slotAfter m.index.buckets m.indexKey
          (IndexSync.changes ((db.indexesOf table.id).entries.map (·.2)) m.document old new)
          (db.slot? m.index.buckets m.indexKey)) : db.Refiles m after := by
  have arranged := tended.arranged
  obtain ⟨list, hl, nodup, -, -⟩ := (tended.buckets m.index hi).bucket? m.indexKey
  have filed : m.index.path.Yields old m.indexKey ↔ m.document ∈ list :=
    before.symm.trans (exact.symm.trans (Membership.filed_iff_mem hl))
  have changed : ∀ change : Bucket.Change, m.index.path.Demands old new m.indexKey change →
      change.apply m.document list ≠ list →
      after.slot? m.index.buckets m.indexKey
        = some (Bucket.slotOf (change.apply m.document list)
            ((db.slot? m.index.buckets m.indexKey).elim 0 Slot.counter + 1)) := by
    intro change demands differs
    rw [slot, IndexSync.slotAfter_changes_of_demands arranged hi demands]
    exact Bucket.Change.slot_of_ne hl differs
  refine ⟨fun same => ?_, fun hb ha => ?_, fun hb ha => ?_⟩
  · rw [before, now] at same
    exact slot.trans (IndexSync.slotAfter_changes_of_iff arranged hi same)
  · rw [before] at hb
    rw [now] at ha
    have absent : m.document ∉ list := fun hm => hb (filed.2 hm)
    have added : Bucket.Change.add.apply m.document list = list ++ [m.document] := if_neg absent
    refine ⟨list, hl, ?_⟩
    rw [← added]
    exact changed .add ⟨ha, hb⟩ (by rw [added]; simp)
  · rw [before] at hb
    rw [now] at ha
    obtain ⟨front, back, early, rfl, erased⟩ := List.exists_erase_eq (filed.1 hb)
    refine ⟨front, back, hl, ?_, ?_⟩
    · rw [← erased, nodup.mem_erase_iff]
      exact fun h => h.1 rfl
    · rw [← erased]
      refine changed .remove ⟨hb, ha⟩ fun same => ?_
      have members := congrArg (m.document ∈ ·) same
      simp [Bucket.Change.apply, nodup.mem_erase_iff] at members

end Database

/-- A tidy table has exact indexes. -/
theorem Database.Tidy.exact_of_registered (tidy : db.Tidy table documents) {m : Membership}
    (hi : db.Registered table m.index) : m.Exact db := by
  obtain ⟨list, hl, -⟩ := (tidy.tended.buckets m.index hi).bucket? m.indexKey
  have members := tidy.exact m.index m.indexKey m.document
  rw [Database.listed_of_bucket? hi hl, Membership.Due, and_iff_right hi] at members
  exact (Membership.filed_iff_mem hl).trans members

/-- **An operation on a document that is alone** with a table whose indexes are exact ends, and if
it succeeds, it has refiled its document in every bucket and has touched no other document. -/
theorem DocumentRequest.completes_refiling (tended : db.Tended table documents)
    (exact : ∀ m : Membership, db.Registered table m.index → m.Exact db)
    (request : DocumentRequest) :
    ∃ outcome after, Completes db (request.start table) outcome after ∧
      (outcome.isFailure = false →
        (∀ index indexKey, db.Registered table index →
          db.Refiles ⟨index, indexKey, request.key⟩ after) ∧
        ∀ other, other ≠ Utf8.encode request.key →
          after.slot? table.documents other = db.slot? table.documents other) := by
  have arranged := tended.arranged
  have done : ∃ outcome after, Completes db (request.start table) outcome after := by
    by_cases tries : table.retry.maxAttempts = some 0
    · obtain ⟨outcome, done⟩ := completes_of_exhausted db tries request
      exact ⟨outcome, db, done⟩
    · obtain ⟨after, done, -⟩ := completes arranged tries request
      exact ⟨_, after, done⟩
  obtain ⟨outcome, after, done⟩ := done
  refine ⟨outcome, after, done, fun success => ?_⟩
  obtain ⟨steps, ends⟩ := done.alone
  obtain ⟨own, slots⟩ := slots_of_ends arranged ends success
  have stored : after.backend.store table.documents
      = (request.apply (db.backend.store table.documents)).2 := congrArg Prod.snd own.symm
  refine ⟨fun index indexKey hi => ?_, fun other ne => ?_⟩
  · refine tended.refiles hi (exact _ hi) (Iff.trans ?_ Membership.wanted_iff_elim)
      (Iff.trans ?_ Membership.wanted_iff_elim) (slots index indexKey hi (.inl ?_))
    · rw [Membership.Wanted, hi.documents arranged]
    · rw [Membership.Wanted, hi.documents arranged, stored]
    · -- nothing fails at all
      exact fun _ _ e _ failed => absurd failed (Option.some_ne_none e)
  · rw [Database.slot?, stored]
    exact request.find?_apply _ ne

/-- A document goes back to a value that it had before.  The bucket that it leaves keeps the other
document, and the one that it enters was a tombstone. -/
theorem DocumentRequest.completes_refiling_of_return :
    ∃ db index outcome after,
      db.Tended (Database.fresh .default "t").1 {"x", "y"} ∧
        (∀ m : Membership, db.Registered (Database.fresh .default "t").1 m.index → m.Exact db) ∧
        db.Registered (Database.fresh .default "t").1 index ∧
        Completes db ((DocumentRequest.set "x" (.map [(.string "n", .bool true)])).start
          (Database.fresh .default "t").1) outcome after ∧
        db.slot? index.buckets (Json.bool true).indexKey = some ⟨none, 2⟩ ∧
        after.slot? index.buckets (Json.bool true).indexKey = some (Bucket.slotOf ["x"] 3) ∧
        db.Refiles ⟨index, (Json.bool true).indexKey, "x"⟩ after ∧
        db.Refiles ⟨index, (Json.bool false).indexKey, "x"⟩ after := by
  have listable : Bucket.Listable {"x", "y"} := Bucket.listable_pair (by decide) (by decide)
  have blank := Database.blank_fresh .default "t"
  have replayed : ((Session.replay? (Database.fresh .default "t").1 {"x", "y"} 40
      [(Database.fresh .default "t").2]
      [.createIndex "i" "n", .document (.set "x" (.map [(.string "n", .bool true)])),
        .document (.set "y" (.map [(.string "n", .bool false)])),
        .document (.set "x" (.map [(.string "n", .bool false)]))]).any fun states =>
          states.head?.any fun db =>
            ((db.indexesOf (Database.fresh .default "t").1.id).find? "i").any fun index =>
              decide (db.Registered (Database.fresh .default "t").1 index) &&
              decide (db.slot? index.buckets (Json.bool true).indexKey = some ⟨none, 2⟩) &&
              (db.finish? 40 ((DocumentRequest.set "x" (.map [(.string "n", .bool true)])).start
                (Database.fresh .default "t").1)).any fun ended =>
                  !ended.1.isFailure &&
                  decide (ended.2.slot? index.buckets (Json.bool true).indexKey
                    = some (Bucket.slotOf ["x"] 3))) = true := by
    decide +kernel
  obtain ⟨states, hs, last⟩ := (Option.any_eq_true _ _).1 replayed
  have session := Session.start.of_replay? hs
  obtain ⟨db, hd, found⟩ := (Option.any_eq_true _ _).1 last
  obtain ⟨earlier, rfl⟩ := List.head?_eq_some_iff.1 hd
  obtain ⟨index, -, holds⟩ := (Option.any_eq_true _ _).1 found
  simp only [Bool.and_eq_true, Option.any_eq_true, decide_eq_true_iff, Bool.not_eq_true'] at holds
  obtain ⟨⟨registered, tombstone⟩, ⟨outcome, after⟩, finished, success, back⟩ := holds
  have tidy := session.tidy listable blank
  have exact : ∀ m : Membership, db.Registered (Database.fresh .default "t").1 m.index →
      m.Exact db := fun m => tidy.exact_of_registered
  have done := Completes.of_finish? finished
  obtain ⟨outcome', after', done', effect⟩ := DocumentRequest.completes_refiling tidy.tended exact
    (.set "x" (.map [(.string "n", .bool true)]))
  obtain ⟨rfl, rfl⟩ := done.unique done'
  obtain ⟨refiles, -⟩ := effect success
  exact ⟨db, index, outcome, after, tidy.tended, exact, registered, done, tombstone, back,
    refiles index _ registered, refiles index _ registered⟩

end DocStore
