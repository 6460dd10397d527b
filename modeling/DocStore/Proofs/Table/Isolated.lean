/-
Buckets that fail leave the others alone.

A write of a document changes buckets of several indexes, one after another, and each of these
changes may fail: the bucket cannot be decoded, or a call on it fails.  The write succeeds all the
same, and the failures stay where they are.  To say this, the run is compared with one in a database
that differs in the buckets that cannot be decoded, which can be decoded there, and in which no call
on a bucket fails.  A bucket that can be decoded, and whose own calls do not fail, ends in both runs
with the same bytes and the same counter, whatever became of the changes before it and after it; and
a bucket that cannot be decoded keeps its own.

The order of the changes does not matter in this, nor does it matter whose calls fail, as long as
the operation succeeds.

* `Database.Healed` — the same table with buckets that can be decoded;
* `Ends.exists_completes` — the other run is there;
* `DocumentRequest.failures_isolated` — **what fails in one bucket reaches no other one.**
-/

import DocStore.Proofs.Documents.Alone
import DocStore.Proofs.Documents.Undisturbed
import DocStore.Proofs.Index.Creation

set_option autoImplicit false

namespace DocStore

variable {db db' after after' : Database} {table : Table} {request : DocumentRequest}
  {faults faults' : Database → Call → Option Error → Prop} {steps steps' : List Footprint}
  {outcome outcome' : DocumentOutcome}

namespace Database

/-- The same table with buckets that can be decoded: it has the same documents and the same indexes,
and those buckets are as they were that could be decoded before. -/
structure Healed (table : Table) (db db' : Database) : Prop where
  arranged : db'.Arranged table
  documents : db'.backend.store table.documents = db.backend.store table.documents
  indexes : db'.indexesOf table.id = db.indexesOf table.id
  decodable : ∀ index indexKey, db.Registered table index →
    (db'.backend.store index.buckets).bucket? indexKey ≠ none
  same : ∀ index indexKey, db.Registered table index →
    (db.backend.store index.buckets).bucket? indexKey ≠ none →
      db'.slot? index.buckets indexKey = db.slot? index.buckets indexKey

theorem Healed.registered_iff (healed : db.Healed table db') (index : Index) :
    db'.Registered table index ↔ db.Registered table index := by
  rw [Registered, Registered, healed.indexes]

end Database

/-- An operation that succeeds in the one database succeeds in the other one, if nothing fails
there, and reports the same. -/
theorem Ends.exists_completes (arranged : db.Arranged table) (healed : db.Healed table db')
    (ends : Ends (.alone DocumentTask faults) db (request.start table) steps outcome after)
    (success : outcome.isFailure = false) :
    ∃ after', Completes db' (request.start table) outcome after' := by
  obtain ⟨own, -⟩ := DocumentRequest.slots_of_ends arranged ends success
  have told : (request.apply (db'.backend.store table.documents)).1 = outcome := by
    rw [healed.documents, own]
  by_cases tries : table.retry.maxAttempts = some 0
  · rcases DocumentRequest.start_of_exhausted tries request with
      ⟨key, shape, rfl⟩ | ⟨failed, failure, ended⟩
    · exact ⟨db', told ▸ DocumentRequest.completes_get db' table key shape⟩
    · rw [ended] at ends
      obtain ⟨rfl, -⟩ := ends.of_alone_finished
      rw [failure] at success
      cases success
  · obtain ⟨after', done, -⟩ := DocumentRequest.completes healed.arranged tries request
    exact ⟨after', told ▸ done⟩

/-- **What fails in one bucket reaches no other one.**  An operation on a document succeeds, with
any faults and any buckets.  Then it succeeds also where all buckets can be decoded and nothing
fails; and whenever it does so where all buckets can be decoded and no call on a bucket fails, it
reports the same and leaves the same documents behind.  A bucket that cannot be decoded stays as it
is, and one that can be decoded, and whose own calls meet no fault, is the same after both runs. -/
theorem DocumentRequest.failures_isolated (arranged : db.Arranged table)
    (healed : db.Healed table db')
    (ends : Ends (.alone DocumentTask faults) db (request.start table) steps outcome after)
    (success : outcome.isFailure = false) :
    (∀ index indexKey, db.Registered table index →
      (db.backend.store index.buckets).bucket? indexKey = none →
        after.slot? index.buckets indexKey = db.slot? index.buckets indexKey) ∧
    (∃ after', Completes db' (request.start table) outcome after') ∧
    ∀ faults' steps' outcome' after',
      (∀ index indexKey, db.Registered table index → FaultsSpare faults' index.buckets indexKey) →
      Ends (.alone DocumentTask faults') db' (request.start table) steps' outcome' after' →
      outcome'.isFailure = false →
        outcome' = outcome ∧
        after'.backend.store table.documents = after.backend.store table.documents ∧
        ∀ index indexKey, db.Registered table index →
          (db.backend.store index.buckets).bucket? indexKey ≠ none →
          FaultsSpare faults index.buckets indexKey →
            after.slot? index.buckets indexKey = after'.slot? index.buckets indexKey := by
  obtain ⟨own, slots⟩ := slots_of_ends arranged ends success
  refine ⟨fun index indexKey hi undecodable => ?_, ends.exists_completes arranged healed success,
    ?_⟩
  · rw [slots index indexKey hi (.inr undecodable)]
    exact Bucket.slotAfter_of_undecodable undecodable _
  · intro faults' steps' outcome' after' spared ends' success'
    obtain ⟨own', slots'⟩ := slots_of_ends healed.arranged ends' success'
    rw [healed.documents, own] at own'
    obtain ⟨rfl, documents⟩ := Prod.mk.inj own'
    refine ⟨rfl, documents.symm, fun index indexKey hi decodable fair => ?_⟩
    rw [slots index indexKey hi (.inl fair),
      slots' index indexKey ((healed.registered_iff index).2 hi) (.inl (spared index indexKey hi)),
      healed.documents, healed.indexes, healed.same index indexKey hi decodable]

/-- A bucket that cannot be decoded is created, and another one that can be in its place. -/
theorem Database.Arranged.healed_create (arranged : db.Arranged table)
    (decodable : ∀ index indexKey, db.Registered table index →
      (db.backend.store index.buckets).bucket? indexKey ≠ none)
    {index : Index} (hi : db.Registered table index) {indexKey bad good : Bytes}
    (missing : (db.backend.store index.buckets).get? indexKey = none)
    (hb : Bucket.decode? bad = none) (hg : Bucket.decode? good ≠ none) :
    (db.perform (.create index.buckets indexKey bad) none).2.Healed table
      (db.perform (.create index.buckets indexKey good) none).2 := by
  have accepts : ∀ bytes, (SlotWrite.create bytes).Accepts
      ((db.backend.store index.buckets).get? indexKey) := fun _ => missing
  have created : ∀ bytes, db.perform (.create index.buckets indexKey bytes) none = _ :=
    fun bytes => db.perform_write (accepts bytes)
  have stores : ∀ bytes id, ((db.perform (.create index.buckets indexKey bytes)
      none).2.backend.store id) = if id = index.buckets
        then (SlotWrite.create bytes).applied (db.backend.store index.buckets) indexKey
        else db.backend.store id := by
    intro bytes id
    rw [created, putStore, Backend.store_putStore]
    by_cases own : id = index.buckets
    · rw [if_pos own, if_pos ⟨own, hi.lt_length arranged⟩]
    · rw [if_neg own, if_neg fun h => own h.1]
  have indexes : ∀ bytes, (db.perform (.create index.buckets indexKey bytes) none).2.indexesOf
      table.id = db.indexesOf table.id := by
    intro bytes
    rw [created]
    rfl
  have apart : table.documents ≠ index.buckets := (hi.apart arranged).symm
  refine ⟨arranged.perform none trivial, ?_, (indexes good).trans (indexes bad).symm, ?_, ?_⟩
  · rw [stores, stores, if_neg apart, if_neg apart]
  · intro other k ho
    rw [Registered, indexes] at ho
    rw [stores]
    split
    · rw [Store.bucket?, Store.get?_applied]
      split
      · exact hg
      · exact decodable index k hi
    · exact decodable other k ho
  · intro other k ho readable
    rw [stores] at readable
    rw [slot?, slot?, stores, stores]
    split
    · rename_i own
      rw [if_pos own, Store.bucket?, Store.get?_applied] at readable
      -- the one bucket in which the two databases differ cannot be decoded
      have ne : k ≠ indexKey := by
        rintro rfl
        rw [if_pos rfl] at readable
        exact readable hb
      rw [Store.find?_applied (accepts good), Store.find?_applied (accepts bad), if_neg ne,
        if_neg ne]
    · rfl

/-- A document is filed under three values: the bucket of the first one cannot be decoded, and the
storage fails at that of the last one. -/
theorem DocumentRequest.failures_isolated_of_corrupt :
    ∃ db db' index steps outcome after after',
      db.Arranged (Database.fresh .default "t").1 ∧
        db.Healed (Database.fresh .default "t").1 db' ∧
        db.Registered (Database.fresh .default "t").1 index ∧
        Ends (.alone DocumentTask fun _ call fault =>
            fault = none ∨ call.On index.buckets Json.null.indexKey) db
          ((DocumentRequest.set "x" (.map [(.string "n",
            .array [.bool true, .bool false, .null])])).start (Database.fresh .default "t").1)
          steps outcome after ∧
        outcome.isFailure = false ∧
        (db.backend.store index.buckets).bucket? (Json.bool true).indexKey = none ∧
        after.slot? index.buckets (Json.bool true).indexKey
          = db.slot? index.buckets (Json.bool true).indexKey ∧
        Completes db' ((DocumentRequest.set "x" (.map [(.string "n",
            .array [.bool true, .bool false, .null])])).start (Database.fresh .default "t").1)
          outcome after' ∧
        after.slot? index.buckets (Json.bool false).indexKey
          = after'.slot? index.buckets (Json.bool false).indexKey ∧
        after.slot? index.buckets (Json.bool false).indexKey = some (Bucket.slotOf ["x"] 1) := by
  let table := (Database.fresh .default "t").1
  let added := (Database.fresh .default "t").2.addIndex table "i" ⟨[.key "n"]⟩
  let request := DocumentRequest.set "x" (.map [(.string "n",
    .array [.bool true, .bool false, .null])])
  let faults := fun (_ : Database) (call : Call) (fault : Option Error) =>
    fault = none ∨ call.On added.1.buckets Json.null.indexKey
  obtain ⟨indexed, registers⟩ : added.2.Arranged table ∧
      (Database.fresh .default "t").2.Registers table "i" ⟨[.key "n"]⟩ added.1 added.2 :=
    (Database.arranged_fresh .default "t").registerIndex rfl ⟨[.key "n"]⟩
  have registered := (registers.registered_iff added.1).2 (.inl rfl)
  have decodable : ∀ index indexKey, added.2.Registered table index →
      (added.2.backend.store index.buckets).bucket? indexKey ≠ none := by
    intro index indexKey hi
    rcases (registers.registered_iff index).1 hi with rfl | other
    · rw [registers.store_buckets]
      exact Option.some_ne_none []
    · exact absurd other ((Database.blank_fresh .default "t").not_registered index)
  let corrupt :=
    (added.2.perform (.create added.1.buckets (Json.bool true).indexKey [193]) none).2
  let mended := (added.2.perform (.create added.1.buckets (Json.bool true).indexKey
    (Bucket.encode ["y"])) none).2
  have arranged : corrupt.Arranged table := indexed.perform none trivial
  have healed : corrupt.Healed table mended :=
    indexed.healed_create decodable registered rfl (by decide) (by decide)
  have suffered : (Database.endure? faults
      [none, none, none, none, none, none, some (.storage "down"), none] corrupt
      (request.start table)).any (fun ended => !ended.2.1.isFailure &&
        decide (ended.2.2.slot? added.1.buckets (Json.bool false).indexKey
          = some (Bucket.slotOf ["x"] 1))) = true := by
    decide +kernel
  obtain ⟨⟨steps, outcome, after⟩, endured, holds⟩ := (Option.any_eq_true _ _).1 suffered
  simp only [Bool.and_eq_true, Bool.not_eq_true', decide_eq_true_iff] at holds
  obtain ⟨success, filed⟩ := holds
  have ends := Ends.of_endure? endured
  have here : corrupt.Registered table added.1 := registered
  have undecodable : (corrupt.backend.store added.1.buckets).bucket? (Json.bool true).indexKey
      = none := by decide
  have whole : (corrupt.backend.store added.1.buckets).bucket? (Json.bool false).indexKey
      ≠ none := by decide
  have fair : FaultsSpare faults added.1.buckets (Json.bool false).indexKey := by
    rintro _ call e on (none | other)
    · cases none
    · exact absurd (on.key_eq other) (by decide)
  obtain ⟨kept, ⟨after', done⟩, agrees⟩ :=
    failures_isolated arranged healed ends success
  obtain ⟨steps', ends'⟩ := done.alone
  obtain ⟨-, -, slots⟩ := agrees _ steps' outcome after'
    (fun _ _ _ _ _ e _ failed => absurd failed (Option.some_ne_none e)) ends' success
  exact ⟨corrupt, mended, added.1, steps, outcome, after, after', arranged, healed, here, ends,
    success, undecodable, kept _ _ here undecodable, done, slots _ _ here whole fair, filed⟩

end DocStore
