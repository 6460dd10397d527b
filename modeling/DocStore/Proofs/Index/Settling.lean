/-
Settling, from anywhere.

A settling looks at the document only and not at what has gone wrong with its bucket: it makes the
change that the document demands, and that change does nothing where it has been made already.  So
it repairs a membership in both directions, whatever the bucket lists, and when it is repeated it
finds nothing to do: it reads three times and writes nothing, so that no counter moves.

A settling that may make no attempt repairs nothing (`Settling.gives_up_without_attempts`).

* `Performs` — an operation, alone, ends with a result after these calls;
* `Membership.demand` — the change of the bucket that the present document demands;
* `Database.bucket?_edited`, `Database.get?_edited_of_nil`, `Database.slot?_edited_of_ne` — the
  bucket after one change, and everything else;
* `Settling.performs_settled` — what has been settled is only read;
* `Membership.wanted_iff_mem_additions` — a document belongs where its creation would file it;
* `Settling.repairs` — **a settling makes its membership right, touches nothing else, and is then
  of no further effect.**
-/

import DocStore.Proofs.Index.Lists
import DocStore.Proofs.Index.Slots

set_option autoImplicit false

namespace DocStore

/-! ### Calls that are made -/

/-- An operation, alone in a storage that does not fail, makes these calls, ends with a result and
leaves a database behind. -/
inductive Performs {τ α : Type} [Task τ α] :
    Database → Progress τ α → List Call → α → Database → Prop
  /-- It has ended. -/
  | finished (db : Database) (result : α) : Performs db (.finished result) [] result db
  /-- It performs its call and goes on with the reply. -/
  | waiting {db after : Database} {task : τ} {calls : List Call} {result : α}
      (rest : Performs (db.perform (Task.call task) none).2
        (Task.resume task (db.perform (Task.call task) none).1) calls result after) :
      Performs db (.waiting task) (Task.call task :: calls) result after

namespace Performs

variable {τ α : Type} [Task τ α] {db after : Database} {progress : Progress τ α}
  {calls : List Call} {result : α}

/-- Whatever its calls are, it is an operation that ends. -/
theorem completes (h : Performs db progress calls result after) :
    Completes db progress result after := by
  induction h with
  | finished db result => exact .finished db result
  | waiting rest ih => exact .waiting ih

/-- An operation that reads a key goes on with what is stored there. -/
theorem reads {task : τ} {id : StoreId} {key : Bytes} (call : Task.call task = .get id key)
    (rest : Performs db (Task.resume task (.document (.ok ((db.backend.store id).get? key))))
      calls result after) :
    Performs db (.waiting task) (.get id key :: calls) result after := by
  rw [← call]
  refine .waiting ?_
  rw [call, db.perform_get]
  exact rest

end Performs

/-! ### The change that is demanded -/

namespace Membership

variable {db : Database} {m : Membership}

/-- The change of the bucket that the present document demands. -/
def demand (m : Membership) (db : Database) : Bucket.Change :=
  if m.wanted ((db.backend.store m.index.documents).get? (Utf8.encode m.document)) then .add
  else .remove

/-- To settle is to make the change that is demanded. -/
theorem settled_eq : db.settled m = db.edited m (m.demand db) := rfl

theorem demand_eq_add_iff : m.demand db = .add ↔ m.Wanted db := by
  unfold demand Wanted
  split <;> simp [*]

/-- Changes of buckets demand no others. -/
theorem demand_edited (apart : m.index.buckets ≠ m.index.documents) (change : Bucket.Change) :
    m.demand (db.edited m change) = m.demand db := by
  rw [demand, Database.store_edited_of_ne apart.symm, demand]

/-- **A document belongs into the bucket of a key if and only if its creation would add it there**,
among the indexes of which one has this name. -/
theorem wanted_iff_mem_additions (stored : Versioned Bytes) {indexes : List (String × FieldPath)}
    (named : ∀ path, (m.index.name, path) ∈ indexes ↔ path = m.index.path) :
    m.wanted (some stored) = true
      ↔ ⟨m.index.name, m.indexKey⟩ ∈ (IndexDiff.between [] stored.value indexes).additions := by
  rw [wanted_iff, IndexDiff.mem_additions]
  constructor
  · rintro ⟨v, same, yields⟩
    obtain rfl := Option.some.inj same
    exact ⟨m.index.path, (named _).2 rfl, yields, FieldPath.not_yields_nil⟩
  · rintro ⟨path, mem, yields, -⟩
    obtain rfl := (named path).1 mem
    exact ⟨stored, rfl, yields⟩

end Membership

/-! ### One change of a bucket -/

/-- The other documents of a bucket keep their order. -/
theorem Bucket.filter_apply (change : Change) (document : String) {list : List String}
    (nodup : list.Nodup) :
    (change.apply document list).filter (· ≠ document) = list.filter (· ≠ document) := by
  cases change with
  | add =>
      simp only [Change.apply]
      split
      · rfl
      · rw [List.filter_append, List.filter_cons_of_neg (by simp), List.filter_nil,
          List.append_nil]
  | remove =>
      rw [Change.apply, nodup.erase_eq_filter, List.filter_filter]
      refine List.filter_congr fun d _ => ?_
      by_cases same : d = document <;> simp [same]

namespace Database

variable {db : Database} {m : Membership} {change : Bucket.Change} {list : List String}

/-- A change leaves the database alone, or writes the changed list. -/
theorem edited_cases (change : Bucket.Change)
    (read : (db.backend.store m.index.buckets).bucket? m.indexKey = some list) :
    change.apply m.document list = list ∧ db.edited m change = db ∨
      ∃ write, write = Bucket.rewrite ((db.backend.store m.index.buckets).get? m.indexKey)
          (change.apply m.document list) ∧
        write.Accepts ((db.backend.store m.index.buckets).get? m.indexKey) ∧
        db.edited m change = db.putStore m.index.buckets
          (write.applied (db.backend.store m.index.buckets) m.indexKey) := by
  unfold edited
  rw [read]
  by_cases same : change.apply m.document list = list
  · exact Or.inl ⟨same, if_pos same⟩
  · have accepts := Bucket.accepts_rewrite ((db.backend.store m.index.buckets).get? m.indexKey)
      (change.apply m.document list)
    refine Or.inr ⟨_, rfl, accepts, (if_neg same).trans ?_⟩
    exact congrArg Prod.snd (db.perform_write accepts)

/-- A bucket that is there has the store to itself after a rewrite. -/
theorem store_putStore_self (opened : m.index.buckets < db.backend.stores.length) (store : Store) :
    (db.putStore m.index.buckets store).backend.store m.index.buckets = store :=
  (Backend.store_putStore _ _ _ _).trans (if_pos ⟨rfl, opened⟩)

/-- **The bucket lists the documents after the change.** -/
theorem bucket?_edited (change : Bucket.Change)
    (opened : m.index.buckets < db.backend.stores.length)
    (read : (db.backend.store m.index.buckets).bucket? m.indexKey = some list)
    (nodup : list.Nodup) (listable : Bucket.Listable (insert m.document {d | d ∈ list})) :
    ((db.edited m change).backend.store m.index.buckets).bucket? m.indexKey
      = some (change.apply m.document list) := by
  rcases db.edited_cases change read with ⟨same, unchanged⟩ | ⟨_, rfl, -, written⟩
  · rw [unchanged, same, read]
  · rw [written, store_putStore_self opened, Store.bucket?_rewrite listable m.indexKey
      (Bucket.nodup_apply change m.document nodup) (fun _ => Bucket.mem_of_mem_apply), if_pos rfl]

/-- A bucket that loses its last document is deleted. -/
theorem get?_edited_of_nil (opened : m.index.buckets < db.backend.stores.length)
    (read : (db.backend.store m.index.buckets).bucket? m.indexKey = some list) (some : list ≠ [])
    (left : change.apply m.document list = []) :
    ((db.edited m change).backend.store m.index.buckets).get? m.indexKey = none := by
  rcases db.edited_cases change read with ⟨same, -⟩ | ⟨_, rfl, -, written⟩
  · exact absurd (same.symm.trans left) some
  · rw [written, store_putStore_self opened, Store.get?_applied, if_pos rfl, left]
    cases stored : (db.backend.store m.index.buckets).get? m.indexKey with
    | some v => rfl
    | none =>
        -- there is no document in a bucket that is not there
        rw [Store.bucket?, stored] at read
        exact absurd (Option.some.inj read).symm some

/-- **Nothing else has changed.** -/
theorem slot?_edited_of_ne
    (read : (db.backend.store m.index.buckets).bucket? m.indexKey = some list) {id : StoreId}
    {key : Bytes} (other : ¬ (id = m.index.buckets ∧ key = m.indexKey)) :
    (db.edited m change).slot? id key = db.slot? id key := by
  rcases db.edited_cases change read with ⟨-, unchanged⟩ | ⟨_, rfl, accepts, written⟩
  · rw [unchanged]
  · rw [written, slot?, putStore, Backend.store_putStore]
    split
    · rename_i here
      rw [Store.find?_applied accepts, if_neg fun same => other ⟨here.1, same⟩, slot?, here.1]
    · rfl

end Database

/-! ### Settling -/

namespace Settling

variable {db : Database} {m : Membership} {list : List String}

/-- **What has been settled is only read**: the document, the bucket, and the document again. -/
theorem performs_settled (tries : m.index.retry.maxAttempts ≠ some 0)
    (read : (db.backend.store m.index.buckets).bucket? m.indexKey = some list)
    (settled : (m.demand db).apply m.document list = list) :
    Performs db (start m)
      [.get m.index.documents (Utf8.encode m.document), .get m.index.buckets m.indexKey,
        .get m.index.documents (Utf8.encode m.document)] (.ok ()) db := by
  have begun : start m
      = .waiting ⟨m, (m.index.retry.attempts m.indexKey).counted, .before⟩ := by
    unfold start again
    rw [RetryPolicy.begin_attempts tries]
  have editing : BucketEdit.start m.index m.indexKey (m.demand db) m.document
      = .waiting ⟨m.index, m.indexKey, m.demand db, m.document,
          (m.index.retry.attempts m.indexKey).counted, none⟩ := by
    unfold BucketEdit.start BucketEdit.again
    rw [RetryPolicy.begin_attempts tries]
  have plan := @Bucket.plan_eq (m.demand db) m.document _ _ read
  rw [if_pos settled] at plan
  rw [begun]
  refine .reads rfl ?_
  change Performs db (edited _ _ (BucketEdit.start m.index m.indexKey (m.demand db) m.document))
    _ _ _
  rw [editing]
  refine .reads rfl ?_
  simp only [Task.resume, plan, edited]
  refine .reads rfl ?_
  -- the document has not been written meanwhile
  rw [show Task.resume _ _ = .finished (.ok ()) from if_pos rfl]
  exact .finished _ _

/-- What a settling leaves behind that has found these documents in its bucket. -/
structure Repaired (db : Database) (m : Membership) (list : List String) (after : Database) :
    Prop where
  /-- The bucket lists the document if and only if that is there and yields the key.  The others
  keep their order, and a bucket that has lost its last document is deleted. -/
  listed : ∃ new, (after.backend.store m.index.buckets).bucket? m.indexKey = some new ∧ new.Nodup ∧
    (m.document ∈ new ↔ ∃ stored,
      (db.backend.store m.index.documents).get? (Utf8.encode m.document) = some stored ∧
        m.index.path.Yields stored.value m.indexKey) ∧
    new.filter (· ≠ m.document) = list.filter (· ≠ m.document) ∧
    (list ≠ [] → new = [] → (after.backend.store m.index.buckets).get? m.indexKey = none)
  /-- No other bucket has changed, and no document. -/
  spared : ∀ id key, ¬ (id = m.index.buckets ∧ key = m.indexKey) →
    after.slot? id key = db.slot? id key
  /-- Settling once more writes nothing. -/
  settled : Performs after (start m)
    [.get m.index.documents (Utf8.encode m.document), .get m.index.buckets m.indexKey,
      .get m.index.documents (Utf8.encode m.document)] (.ok ()) after

/-- **A settling makes its membership right from anywhere**, if its policy allows an attempt:
whatever the stores hold, as long as the bucket lists its documents without repetition or is not
there, and can list this document with them.  And a stored document belongs into the bucket if and
only if its creation would add it there. -/
theorem repairs (tries : m.index.retry.maxAttempts ≠ some 0)
    (apart : m.index.buckets ≠ m.index.documents)
    (opened : m.index.buckets < db.backend.stores.length)
    (read : (db.backend.store m.index.buckets).bucket? m.indexKey = some list)
    (nodup : list.Nodup) (listable : Bucket.Listable (insert m.document {d | d ∈ list})) :
    (∃ after, Completes db (start m) (.ok ()) after ∧ Repaired db m list after) ∧
      ∀ (stored : Versioned Bytes) (indexes : List (String × FieldPath)),
        (∀ path, (m.index.name, path) ∈ indexes ↔ path = m.index.path) →
          (m.wanted (some stored) = true
            ↔ ⟨m.index.name, m.indexKey⟩
              ∈ (IndexDiff.between [] stored.value indexes).additions) := by
  have lists := Database.bucket?_edited (m.demand db) opened read nodup listable
  refine ⟨⟨db.settled m, ?_, ⟨_, lists, Bucket.nodup_apply _ _ nodup, ?_,
    Bucket.filter_apply _ _ nodup, Database.get?_edited_of_nil opened read⟩,
    fun id key other => Database.slot?_edited_of_ne read other, ?_⟩,
    fun stored indexes => Membership.wanted_iff_mem_additions stored⟩
  · have done := completes db tries apart
    rwa [read, Option.isSome_some, if_pos rfl] at done
  · rw [Bucket.mem_apply nodup, if_pos rfl, Membership.demand_eq_add_iff,
      Membership.wanted_iff_yields]
  · refine performs_settled tries lists ?_
    -- the same change is demanded as before, and it has been made
    rw [Membership.settled_eq, Membership.demand_edited apart, Bucket.apply_apply _ _ nodup]

/-- A document that yields the key is missing from the bucket, which lists another one. -/
theorem repairs_of_missing :
    ∃ (db : Database) (m : Membership), m.index.retry.maxAttempts ≠ some 0 ∧
      m.index.buckets ≠ m.index.documents ∧ m.index.buckets < db.backend.stores.length ∧
      (db.backend.store m.index.buckets).bucket? m.indexKey = some ["y"] ∧ ["y"].Nodup ∧
      Bucket.Listable (insert m.document {d | d ∈ ["y"]}) ∧ m.Wanted db ∧
      ∃ after, Completes db (start m) (.ok ()) after ∧ Repaired db m ["y"] after := by
  let index : Index := ⟨"t", "i", ⟨[.key "tag"]⟩, 1, 0, .unbounded⟩
  let m : Membership := ⟨index, (Json.string "a").indexKey, "x"⟩
  let document : Bytes := (Value.map [(.string "tag", .string "a")]).encoding
  let db : Database := ⟨.default,
    ⟨[((Store.empty "t.74").set (Utf8.encode "x") document).2,
      ((Store.empty "i.74.69").set m.indexKey (Bucket.encode ["y"])).2], .empty⟩, [], .empty⟩
  have listable : Bucket.Listable (insert m.document {d | d ∈ ["y"]}) := by
    have both : insert m.document {d | d ∈ ["y"]} = ({"x", "y"} : Set String) := by
      ext d
      simp [m]
    rw [both]
    exact Bucket.listable_pair (by decide) (by decide)
  exact ⟨db, m, by decide, by decide, by decide, by decide +kernel, by decide, listable,
    by unfold Membership.Wanted; decide +kernel,
    (repairs (by decide) (by decide) (by decide) (by decide +kernel) (by decide) listable).1⟩

/-- A settling that may make no attempt repairs nothing: it fails before its first call, and the
document that yields the key stays out of the bucket. -/
theorem gives_up_without_attempts :
    ∃ (db : Database) (m : Membership), m.index.retry.maxAttempts = some 0 ∧
      m.index.buckets ≠ m.index.documents ∧ m.index.buckets < db.backend.stores.length ∧
      (db.backend.store m.index.buckets).bucket? m.indexKey = some [] ∧
      Bucket.Listable (insert m.document {d | d ∈ ([] : List String)}) ∧ m.Wanted db ∧
      Completes db (start m) (.error (.retryLimitExceeded (Utf8.lossy m.indexKey) 0)) db ∧
      ¬ m.Filed db ∧ ∀ after, ¬ Completes db (start m) (.ok ()) after := by
  let index : Index := ⟨"t", "i", ⟨[.key "tag"]⟩, 1, 0, ⟨some 0, 0, 0⟩⟩
  let m : Membership := ⟨index, (Json.string "a").indexKey, "x"⟩
  let document : Bytes := (Value.map [(.string "tag", .string "a")]).encoding
  let db : Database := ⟨⟨⟨some 0, 0, 0⟩⟩,
    ⟨[((Store.empty "t.74").set (Utf8.encode "x") document).2, .empty "i.74.69"], .empty⟩,
    [], .empty⟩
  have listable : Bucket.Listable (insert m.document {d | d ∈ ([] : List String)}) := by
    have one : insert m.document {d | d ∈ ([] : List String)} = ({"x", "x"} : Set String) := by
      ext d
      simp [m]
    rw [one]
    exact Bucket.listable_pair (by decide) (by decide)
  have failed : Completes db (start m) (.error (.retryLimitExceeded (Utf8.lossy m.indexKey) 0)) db :=
    .of_eq rfl
  have read : (db.backend.store m.index.buckets).bucket? m.indexKey = some [] := by
    decide +kernel
  refine ⟨db, m, rfl, by decide, by decide, read, listable,
    by unfold Membership.Wanted; decide +kernel, failed, ?_, ?_⟩
  · rw [Membership.filed_iff_mem read]
    exact List.not_mem_nil
  · intro after done
    cases (done.unique failed).1

end Settling

end DocStore
