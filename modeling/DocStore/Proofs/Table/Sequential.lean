/-
Operations on a table, one after another.

An operation that is alone with a table ends, and leaves the indexes exact.  What it does to the
list of a bucket can be said of all operations at once: documents that still belong there stay in
their order, and those that have come to belong there follow, by ascending key.

* `Membership.Due`, `Database.listed` — a document belongs into a bucket of a registered index, and
  the documents in it;
* `Database.Tidy` — a table whose buckets list exactly the documents that belong there;
* `Database.Follows` — what an operation does to the lists;
* `Database.Tidy.replaced`, `IndexCreation.completes`, `IndexDrop.completes` — a document that is
  written with all that follows, a new index, and an index that is dropped;
* `TableRequest.completes` — **every operation that is alone ends, leaves the table tidy and keeps
  the order of the lists.**
-/

import DocStore.Proofs.Documents.Undisturbed
import DocStore.Proofs.Index.Creation
import DocStore.Proofs.Index.Lists

set_option autoImplicit false

namespace DocStore

deriving instance DecidableEq for Index

variable {db after : Database} {table : Table} {documents : Set String}

/-! ### Lists of documents -/

instance (db : Database) (table : Table) (index : Index) : Decidable (db.Registered table index) :=
  inferInstanceAs (Decidable (_ = _))

instance (db : Database) (m : Membership) : Decidable (m.Wanted db) :=
  inferInstanceAs (Decidable (_ = _))

/-- The index is registered, and the document belongs into the bucket. -/
def Membership.Due (table : Table) (m : Membership) (db : Database) : Prop :=
  db.Registered table m.index ∧ m.Wanted db

instance (table : Table) (m : Membership) (db : Database) : Decidable (m.Due table db) :=
  inferInstanceAs (Decidable (_ ∧ _))

namespace Database

/-- The documents in a bucket of a registered index. -/
def listed (db : Database) (table : Table) (index : Index) (indexKey : Bytes) : List String :=
  if db.Registered table index then
    ((db.backend.store index.buckets).bucket? indexKey).getD []
  else []

/-- A table whose buckets list exactly the documents that belong there.  It has documents only if
its operations have attempts. -/
structure Tidy (table : Table) (documents : Set String) (db : Database) : Prop where
  tended : db.Tended table documents
  tries : ∀ key stored, (db.backend.store table.documents).get? key = some stored →
    table.retry.maxAttempts ≠ some 0
  exact : ∀ index indexKey d,
    d ∈ db.listed table index indexKey ↔ Membership.Due table ⟨index, indexKey, d⟩ db

/-- Documents that still belong into a bucket stay in their order, and those that have come to
belong there follow, by ascending key. -/
def FollowsAt (db : Database) (table : Table) (index : Index) (indexKey : Bytes)
    (after : Database) : Prop :=
  ∃ newcomers : List String,
    after.listed table index indexKey
        = (db.listed table index indexKey).filter
            (fun d => Membership.Due table ⟨index, indexKey, d⟩ after) ++ newcomers ∧
      newcomers.Pairwise (fun d e => Utf8.encode d < Utf8.encode e) ∧
      ∀ d, d ∈ newcomers ↔ Membership.Due table ⟨index, indexKey, d⟩ after ∧
        ¬ Membership.Due table ⟨index, indexKey, d⟩ db

/-- What an operation does to the lists of all buckets. -/
def Follows (db : Database) (table : Table) (after : Database) : Prop :=
  ∀ index indexKey, db.FollowsAt table index indexKey after

variable {index : Index} {indexKey : Bytes}

theorem listed_of_not_registered (h : ¬ db.Registered table index) :
    db.listed table index indexKey = [] :=
  if_neg h

theorem listed_of_bucket? (h : db.Registered table index) {list : List String}
    (hl : (db.backend.store index.buckets).bucket? indexKey = some list) :
    db.listed table index indexKey = list := by
  rw [listed, if_pos h, hl, Option.getD_some]

/-- Where the same documents belong, the list stays. -/
theorem Tidy.followsAt_of_same (tidy : db.Tidy table documents)
    (same : after.listed table index indexKey = db.listed table index indexKey)
    (due : ∀ d, Membership.Due table ⟨index, indexKey, d⟩ after
      ↔ Membership.Due table ⟨index, indexKey, d⟩ db) :
    db.FollowsAt table index indexKey after := by
  refine ⟨[], ?_, List.Pairwise.nil, fun d => ?_⟩
  · rw [same, List.append_nil]
    refine (List.filter_eq_self.2 fun d hd => ?_).symm
    exact decide_eq_true ((due d).2 ((tidy.exact index indexKey d).1 hd))
  · simp [due]

/-- Where one more document belongs, it follows at the end. -/
theorem Tidy.followsAt_of_begins (tidy : db.Tidy table documents) {key : String}
    (new : ¬ Membership.Due table ⟨index, indexKey, key⟩ db)
    (added : after.listed table index indexKey = db.listed table index indexKey ++ [key])
    (due : ∀ d, Membership.Due table ⟨index, indexKey, d⟩ after
      ↔ d = key ∨ Membership.Due table ⟨index, indexKey, d⟩ db) :
    db.FollowsAt table index indexKey after := by
  refine ⟨[key], ?_, List.pairwise_singleton _ _, fun d => ?_⟩
  · rw [added]
    refine congrArg (· ++ [key]) (List.filter_eq_self.2 fun d hd => decide_eq_true ?_).symm
    exact (due d).2 (Or.inr ((tidy.exact index indexKey d).1 hd))
  · rw [List.mem_singleton, due]
    constructor
    · rintro rfl
      exact ⟨Or.inl rfl, new⟩
    · rintro ⟨same | before, not⟩
      · exact same
      · exact absurd before not

/-- Where one document does not belong any more, the others stay in their order. -/
theorem Tidy.followsAt_of_ceases (tidy : db.Tidy table documents) {key : String}
    (removed : after.listed table index indexKey
      = (db.listed table index indexKey).filter (· != key))
    (due : ∀ d, Membership.Due table ⟨index, indexKey, d⟩ after
      ↔ d ≠ key ∧ Membership.Due table ⟨index, indexKey, d⟩ db) :
    db.FollowsAt table index indexKey after := by
  refine ⟨[], ?_, List.Pairwise.nil, fun d => iff_of_false List.not_mem_nil ?_⟩
  · rw [removed, List.append_nil]
    refine List.filter_congr fun d hd => Bool.eq_iff_iff.2 ?_
    rw [bne_iff_ne, decide_eq_true_iff, due,
      and_iff_left ((tidy.exact index indexKey d).1 hd)]
  · rintro ⟨now, not⟩
    exact not ((due d).1 now).2

/-- An index that is not registered lists nothing. -/
theorem followsAt_of_not_registered (h : ¬ after.Registered table index) :
    db.FollowsAt table index indexKey after := by
  refine ⟨[], ?_, List.Pairwise.nil, fun d => ?_⟩
  · rw [listed_of_not_registered h, List.append_nil]
    exact (List.filter_eq_nil_iff.2 fun d _ due => h (of_decide_eq_true due).1).symm
  · exact iff_of_false List.not_mem_nil fun due => h due.1.1

/-- The lists stay exact. -/
theorem Follows.exact (follows : db.Follows table after)
    (before : ∀ index indexKey d,
      d ∈ db.listed table index indexKey ↔ Membership.Due table ⟨index, indexKey, d⟩ db)
    (index : Index) (indexKey : Bytes) (d : String) :
    d ∈ after.listed table index indexKey
      ↔ Membership.Due table ⟨index, indexKey, d⟩ after := by
  obtain ⟨newcomers, same, -, members⟩ := follows index indexKey
  rw [same, List.mem_append, List.mem_filter, before, members, decide_eq_true_iff]
  tauto

theorem Tidy.follows_self (tidy : db.Tidy table documents) : db.Follows table db :=
  fun _ _ => tidy.followsAt_of_same rfl fun _ => Iff.rfl

/-! ### A document is written -/

section Replaced

variable (tidy : db.Tidy table documents) (listable : Bucket.Listable documents) {key : String}
  (listed : key ∈ documents) {write : SlotWrite}
  (accepts : write.Accepts ((db.backend.store table.documents).get? (Utf8.encode key)))
include tidy listable listed accepts

/-- What becomes of the table when a document is written, with all that follows. -/
theorem Tidy.replaced_spec {old new : Bytes}
    (ho : ((db.backend.store table.documents).get? (Utf8.encode key)).elim [] Versioned.value = old)
    (hn : write.value?.getD [] = new) :
    let after := db.replaced table key write
    after.Tended table documents ∧
      (∀ index, after.Registered table index ↔ db.Registered table index) ∧
      (∀ index, db.Registered table index → ∀ indexKey, after.listed table index indexKey
        = Bucket.changed index indexKey
            (IndexSync.changes ((db.indexesOf table.id).entries.map (·.2)) key old new)
            (db.listed table index indexKey)) ∧
      ∀ index, db.Registered table index → ∀ indexKey d,
        Membership.Due table ⟨index, indexKey, d⟩ after ↔
          if d = key then index.path.Yields new indexKey
          else Membership.Due table ⟨index, indexKey, d⟩ db := by
  intro after
  have arranged := tidy.tended.arranged
  obtain ⟨kept, writes⟩ := tidy.tended.perform_document listed accepts
  have touched : ∀ c ∈ IndexSync.changes ((db.indexesOf table.id).entries.map (·.2)) key old new,
      (db.perform (write.call table.documents (Utf8.encode key)) none).2.Registered table
        c.1.index ∧ c.1.document ∈ documents := by
    intro c hc
    obtain ⟨index, document⟩ := IndexSync.of_mem_changes hc
    rw [writes.registered, ← mem_indexes arranged]
    exact ⟨index, document ▸ listed⟩
  obtain ⟨tended, relists⟩ := kept.editedAll listable touched
  have same : after = (db.perform (write.call table.documents (Utf8.encode key)) none).2.editedAll
      (IndexSync.changes ((db.indexesOf table.id).entries.map (·.2)) key old new) := by
    rw [← ho, ← hn]
    rfl
  rw [same]
  refine ⟨tended, fun index => relists.registered.trans writes.registered, ?_, ?_⟩
  · intro index hi indexKey
    obtain ⟨list, hl, -⟩ := (tidy.tended.buckets index hi).bucket? indexKey
    have hi' := writes.registered.2 hi
    have hl' := relists.bucket? index hi' indexKey list (by rw [writes.buckets index hi, hl])
    rw [listed_of_bucket? hi hl, listed_of_bucket? (relists.registered.2 hi') hl']
  · intro index hi indexKey d
    have hi' := writes.registered.2 hi
    have wanted := (@Relists.wanted _ _ _ _ relists kept.arranged ⟨index, indexKey, d⟩ hi').trans
      (writes.wanted_iff arranged hi)
    rw [hn] at wanted
    rw [Membership.Due, Membership.Due, and_iff_right (relists.registered.2 hi'), and_iff_right hi]
    exact wanted

/-- The documents of one bucket, when a document is written with all that follows. -/
theorem Tidy.followsAt_replaced (index : Index) (indexKey : Bytes) :
    db.FollowsAt table index indexKey (db.replaced table key write) := by
  obtain ⟨-, registered, lists, due⟩ := tidy.replaced_spec listable listed accepts rfl rfl
  by_cases hi : db.Registered table index
  · have arranged := tidy.tended.arranged
    have lists := lists index hi indexKey
    have due := due index hi indexKey
    obtain ⟨list, hl, nodup, -⟩ := (tidy.tended.buckets index hi).bucket? indexKey
    have before : Membership.Due table ⟨index, indexKey, key⟩ db ↔ index.path.Yields
        (((db.backend.store table.documents).get? (Utf8.encode key)).elim [] Versioned.value)
        indexKey := by
      rw [Membership.Due, and_iff_right hi, Membership.Wanted, Membership.wanted_iff_elim,
        hi.documents arranged]
    by_cases stays : Membership.Due table ⟨index, indexKey, key⟩ db
      ↔ index.path.Yields (write.value?.getD []) indexKey
    · refine tidy.followsAt_of_same ?_ fun d => ?_
      · rw [lists, Bucket.changed_of_stays arranged hi (before.symm.trans stays)]
      · rw [due]
        split
        · rename_i same
          rw [same, stays]
        · exact Iff.rfl
    -- what changes for the document is the only change to the bucket
    have members := tidy.exact index indexKey key
    rw [listed_of_bucket? hi hl] at lists members
    by_cases begins : index.path.Yields (write.value?.getD []) indexKey
    · have new : ¬ Membership.Due table ⟨index, indexKey, key⟩ db :=
        fun h => stays (iff_of_true h begins)
      refine tidy.followsAt_of_begins new ?_ fun d => ?_
      · rw [lists, Bucket.changed_of_begins arranged hi nodup begins (before.not.1 new),
          Bucket.Change.apply, if_neg (members.not.2 new), listed_of_bucket? hi hl]
      · rw [due]
        split
        · rename_i same
          exact iff_of_true begins (Or.inl same)
        · rename_i other
          rw [or_iff_right other]
    · have ceases : Membership.Due table ⟨index, indexKey, key⟩ db :=
        not_not.1 fun h => stays (iff_of_false h begins)
      have removed : (db.replaced table key write).listed table index indexKey
          = (db.listed table index indexKey).filter (· != key) := by
        rw [lists, Bucket.changed_of_ceases arranged hi nodup begins (before.1 ceases),
          Bucket.Change.apply, nodup.erase_eq_filter, listed_of_bucket? hi hl]
      refine tidy.followsAt_of_ceases removed fun d => ?_
      rw [due]
      split
      · rename_i same
        exact iff_of_false begins fun h => h.1 same
      · rename_i other
        rw [and_iff_right other]
  · exact followsAt_of_not_registered fun hi' => hi ((registered index).1 hi')

/-- **A document is written, with all that follows.** -/
theorem Tidy.replaced (tries : table.retry.maxAttempts ≠ some 0) :
    (db.replaced table key write).Tidy table documents ∧
      db.Follows table (db.replaced table key write) := by
  have follows : db.Follows table (db.replaced table key write) :=
    tidy.followsAt_replaced listable listed accepts
  exact ⟨⟨(tidy.replaced_spec listable listed accepts rfl rfl).1, fun _ _ _ => tries,
    follows.exact tidy.exact⟩, follows⟩

end Replaced

end Database

/-! ### An index is created -/

namespace IndexCreation

/-- The documents of a snapshot are filed in the order of their keys. -/
theorem memberships_ascending (index : Index) {store : Store}
    (keys : ∀ key stored, store.get? key = some stored → ∃ d ∈ documents, key = Utf8.encode d) :
    (memberships index store.snapshot).Pairwise fun m n => Bucket.UpTo m.document n.document := by
  have text : ∀ e ∈ store.snapshot, Utf8.encode e.keyText = e.key := by
    intro e he
    obtain ⟨d, -, same⟩ := keys _ _ (Store.mem_snapshot.1 he)
    rw [Entry.keyText, same, Utf8.lossy_encode]
  refine List.pairwise_flatMap.2 ⟨fun e _ => ?_, ?_⟩
  · refine List.pairwise_map.2 (List.pairwise_of_forall fun _ _ => Or.inl rfl)
  · refine store.snapshot_ascending.imp_of_mem ?_
    intro e f he hf less m hm n hn
    obtain ⟨_, -, rfl⟩ := List.mem_map.1 hm
    obtain ⟨_, -, rfl⟩ := List.mem_map.1 hn
    refine Or.inr ?_
    rw [text e he, text f hf]
    exact less

/-- A creation goes on after what it files. -/
theorem filed_eq_andThen (table : Table) (index : Index) (progress : Progress SettleQueue Unit) :
    filed table index progress
      = progress.andThen (fun queue => ⟨table, .filing index queue⟩) fun _ =>
          .waiting ⟨table, .releasing index⟩ := by
  cases progress <;> rfl

/-- A queue that is alone files what belongs into the buckets of one index. -/
theorem completes_filing (listable : Bucket.Listable documents)
    (tended : db.Tended table documents) {index : Index} (hi : db.Registered table index)
    {all : List Membership}
    (own : ∀ m ∈ all, m.index = index ∧ m.document ∈ documents ∧ m.Wanted db)
    (tries : ∀ m ∈ all, table.retry.maxAttempts ≠ some 0) :
    ∃ after, Completes db (SettleQueue.start all) () after ∧ after.Tended table documents ∧
      db.Relists table (fun other indexKey =>
        Bucket.changed other indexKey (all.map (·, .add))) after := by
  have apart : index.buckets ≠ index.documents := by
    rw [hi.documents tended.arranged]
    exact hi.apart tended.arranged
  have files := SettleQueue.completes db
    (fun m hm => by
      rw [(own m hm).1, hi.retry tended.arranged]
      exact tries m hm)
    fun m hm => by
      rw [(own m hm).1]
      exact apart
  rw [Database.settledAll_eq apart (fun m hm => (own m hm).1) fun m hm => (own m hm).2.2] at files
  have inside : ∀ c ∈ all.map (·, Bucket.Change.add),
      db.Registered table c.1.index ∧ c.1.document ∈ documents := by
    intro c hc
    obtain ⟨m, hm, rfl⟩ := List.mem_map.1 hc
    rw [(own m hm).1]
    exact ⟨hi, (own m hm).2.1⟩
  exact ⟨_, files, tended.editedAll listable inside⟩

/-- The documents of a snapshot are filed, the cursor is given back, and the creation ends. -/
theorem completes_opening (listable : Bucket.Listable documents)
    (tended : db.Tended table documents)
    (tries : ∀ key stored, (db.backend.store table.documents).get? key = some stored →
      table.retry.maxAttempts ≠ some 0) {index : Index} (hi : db.Registered table index) :
    ∃ after, Completes db (.waiting (⟨table, .opening index⟩ : IndexCreation)) (.ok index) after ∧
      after.Tended table documents ∧
      db.Relists table (fun other indexKey => Bucket.changed other indexKey
        ((memberships index (db.backend.store table.documents).snapshot).map (·, .add))) after := by
  have cursors : ∀ (db : Database) (call : Call),
      call = .iter table.documents false ∨ call = .release table.documents →
      ∀ id, ((db.perform call none).2.backend.store id).slots = (db.backend.store id).slots := by
    rintro db _ (rfl | rfl) id
    · exact (Database.slots_putStore_cursors db.backend table.documents id _).1
    · exact (Database.slots_putStore_cursors db.backend table.documents id _).1
  -- neither the opening nor the release of the cursor changes what is stored
  obtain ⟨kept, opened⟩ := @Database.Tended.relists_of_slots _ _ _ tended
    (.iter table.documents false) trivial (cursors db _ (Or.inl rfl))
  have found : ∀ m ∈ memberships index (db.backend.store table.documents).snapshot,
      m.index = index ∧ m.document ∈ documents ∧ m.Wanted db ∧
        table.retry.maxAttempts ≠ some 0 := by
    intro m hm
    obtain ⟨rfl, listed, stored, hs, hk⟩ := (mem_memberships_iff tended.keys).1 hm
    refine ⟨rfl, listed, ?_, tries _ stored hs⟩
    rw [Membership.wanted_iff_yields, hi.documents tended.arranged]
    exact ⟨stored, hs, hk⟩
  obtain ⟨last, files, filed', relists⟩ := completes_filing listable kept (opened.registered.2 hi)
    (fun m hm => by
      obtain ⟨rfl, listed, wanted, -⟩ := found m hm
      exact ⟨rfl, listed, (opened.wanted tended.arranged hi).2 wanted⟩)
    fun m hm => (found m hm).2.2.2
  obtain ⟨released, quiet⟩ := @Database.Tended.relists_of_slots _ _ _ filed'
    (.release table.documents) trivial (cursors last _ (Or.inr rfl))
  refine ⟨_, ?_, released, (opened.trans relists).trans quiet⟩
  have gone : Task.resume (⟨table, .opening index⟩ : IndexCreation)
      (db.perform (.iter table.documents false) none).1
    = filed table index
        (SettleQueue.start (memberships index (db.backend.store table.documents).snapshot)) := by
    rw [← Range.drain_all table.documents (db.backend.store table.documents).snapshot]
    rfl
  refine .waiting ?_
  change Completes (db.perform (.iter table.documents false) none).2
    (Task.resume _ (db.perform (.iter table.documents false) none).1) _ _
  rw [gone, filed_eq_andThen]
  refine files.bind (fun _ => rfl) (fun queue reply => filed_eq_andThen _ _ _) ?_
  exact .waiting (.finished _ _)

end IndexCreation

/-- **A new index lists the documents that are there, by ascending key.** -/
theorem Database.Registers.followsAt {mid : Database} {name : String} {path : FieldPath}
    {index : Index}
    (registers : db.Registers table name path index mid) (kept : mid.Tended table documents)
    (relists : mid.Relists table (fun other indexKey => Bucket.changed other indexKey
      ((IndexCreation.memberships index (mid.backend.store table.documents).snapshot).map
        (·, .add))) after) (indexKey : Bytes) :
    db.FollowsAt table index indexKey after := by
  have hm : mid.Registered table index := (registers.registered_iff index).2 (Or.inl rfl)
  have hi := relists.registered.2 hm
  have fresh := registers.not_registered
  have empty : (mid.backend.store index.buckets).bucket? indexKey = some [] := by
    rw [registers.store_buckets]
    rfl
  have now := listed_of_bucket? hi (relists.bucket? index hm indexKey [] empty)
  obtain ⟨ascending, members⟩ := @Bucket.changed_adds index indexKey [] _
    (fun m hm => ((IndexCreation.mem_memberships_iff kept.keys).1 hm).1)
    (IndexCreation.memberships_ascending index kept.keys) List.Pairwise.nil nofun
  refine ⟨_, ?_, ascending, fun d => ?_⟩
  · rw [now, listed_of_not_registered fresh, List.filter_nil, List.nil_append]
  · rw [members, or_iff_right List.not_mem_nil, IndexCreation.mem_memberships_iff kept.keys,
      Membership.Due, Membership.Due, and_iff_right hi, relists.wanted kept.arranged hm,
      Membership.wanted_iff_yields, hm.documents kept.arranged]
    constructor
    · rintro ⟨-, -, wanted⟩
      exact ⟨wanted, fun h => fresh h.1⟩
    · -- whoever belongs there is a newcomer, since the index was not there before
      rintro ⟨⟨stored, hs, hk⟩, -⟩
      obtain ⟨e, he, same⟩ := kept.keys _ _ hs
      obtain rfl := Utf8.encode_injective same
      exact ⟨rfl, he, stored, hs, hk⟩

/-- A new index follows the documents, and the others stay as they are. -/
theorem Database.Tidy.created (tidy : db.Tidy table documents) {mid : Database} {name : String}
    {path : FieldPath} {index : Index} (registers : db.Registers table name path index mid)
    (kept : mid.Tended table documents) (tended : after.Tended table documents)
    (relists : mid.Relists table (fun other indexKey => Bucket.changed other indexKey
      ((IndexCreation.memberships index (mid.backend.store table.documents).snapshot).map
        (·, .add))) after) :
    after.Tidy table documents ∧ db.Follows table after := by
  have arranged := tidy.tended.arranged
  have registered : ∀ other, after.Registered table other
      ↔ other = index ∨ db.Registered table other :=
    fun other => relists.registered.trans (registers.registered_iff other)
  have fresh := registers.not_registered
  have follows : db.Follows table after := by
    intro other indexKey
    by_cases hi : after.Registered table other
    · have hm := relists.registered.1 hi
      obtain ⟨list, hl, -⟩ := (kept.buckets other hm).bucket? indexKey
      have now := listed_of_bucket? hi (relists.bucket? other hm indexKey list hl)
      rcases (registered other).1 hi with rfl | before
      · exact registers.followsAt kept relists indexKey
      · refine tidy.followsAt_of_same ?_ fun d => ?_
        · rw [registers.store_eq (before.lt_length arranged)] at hl
          rw [now, listed_of_bucket? before hl]
          refine Bucket.changed_of_forall_ne fun c hc here => ?_
          obtain ⟨m, hm', rfl⟩ := List.mem_map.1 hc
          have own := ((IndexCreation.mem_memberships_iff kept.keys).1 hm').1
          -- a change of this bucket would be one of the new index, which was not registered before
          refine fresh ?_
          rw [← own, ← hm.eq_of_buckets kept.arranged ?_ here.1.symm]
          · exact before
          · rw [own]
            exact (registers.registered_iff index).2 (Or.inl rfl)
        · have untouched : Membership.Wanted mid ⟨other, indexKey, d⟩
              ↔ Membership.Wanted db ⟨other, indexKey, d⟩ :=
            (registers.untouched arranged before).wanted
          rw [Membership.Due, Membership.Due, and_iff_right hi, and_iff_right before,
            relists.wanted kept.arranged hm, untouched]
    · exact followsAt_of_not_registered hi
  refine ⟨⟨tended, fun key stored hs => ?_, follows.exact tidy.exact⟩, follows⟩
  rw [relists.documents, registers.store_eq arranged.stored] at hs
  exact tidy.tries key stored hs

namespace IndexCreation

/-- **A creation of an index ends**, and has failed or left the table tidy. -/
theorem completes (listable : Bucket.Listable documents) (tidy : db.Tidy table documents)
    (name path : String) :
    ∃ result after, Completes db (table.createIndex name path) result after ∧
      after.Tidy table documents ∧ db.Follows table after := by
  unfold Table.createIndex start
  split
  · exact ⟨_, db, .finished _ _, tidy, tidy.follows_self⟩
  split
  · exact ⟨_, db, .finished _ _, tidy, tidy.follows_self⟩
  rename_i path _
  rcases tidy.tended.perform_registerIndex name path with
    ⟨e, failed⟩ | ⟨index, mid, done, registers, kept, -⟩
  · exact ⟨_, db, .waits failed (.finished _ _), tidy, tidy.follows_self⟩
  · have same := registers.store_eq tidy.tended.arranged.stored
    obtain ⟨after, rest, tended, relists⟩ := completes_opening listable kept
      (fun key stored hs => tidy.tries key stored (same ▸ hs))
      ((registers.registered_iff index).2 (Or.inl rfl))
    exact ⟨_, after, .waits done rest, tidy.created registers kept tended relists⟩

end IndexCreation

/-! ### An index is dropped -/

/-- **An index is dropped, and the others stay as they are.** -/
theorem Database.Tidy.withoutIndex (tidy : db.Tidy table documents) (name : String) :
    (db.withoutIndex table name).Tidy table documents ∧
      db.Follows table (db.withoutIndex table name) := by
  have arranged := tidy.tended.arranged
  have registered : ∀ index, (db.withoutIndex table name).Registered table index →
      db.Registered table index := by
    intro index hi
    rw [Registered, arranged.find?_withoutIndex] at hi
    split at hi
    · cases hi
    · exact hi
  have tended : (db.withoutIndex table name).Tended table documents :=
    ⟨arranged.dropIndex name, fun index hi => tidy.tended.buckets index (registered index hi),
      tidy.tended.keys⟩
  have follows : db.Follows table (db.withoutIndex table name) := by
    intro index indexKey
    by_cases hi : (db.withoutIndex table name).Registered table index
    · refine tidy.followsAt_of_same ?_ fun d => ?_
      · rw [listed, listed, if_pos hi, if_pos (registered index hi)]
        rfl
      · rw [Membership.Due, Membership.Due, and_iff_right hi, and_iff_right (registered index hi)]
        exact Iff.rfl
    · exact followsAt_of_not_registered hi
  exact ⟨⟨tended, tidy.tries, follows.exact tidy.exact⟩, follows⟩

/-- **A drop of an index ends**, and leaves the table tidy. -/
theorem IndexDrop.completes (tidy : db.Tidy table documents) (name : String) :
    ∃ result after, Completes db (table.dropIndex name) result after ∧
      after.Tidy table documents ∧ db.Follows table after := by
  cases found : (db.indexesOf table.id).find? name with
  | none =>
      have failed := Database.perform_unregisterIndex_of_none found
      exact ⟨_, db, .waits failed (.finished _ _), tidy, tidy.follows_self⟩
  | some index =>
      have done := Database.perform_unregisterIndex_of_some found
      exact ⟨_, _, .waits done (.waiting (.finished _ _)), tidy.withoutIndex name⟩

/-! ### What is asked for -/

/-- **Every operation that is alone ends, leaves the table tidy and keeps the order of the
lists.** -/
theorem TableRequest.completes (listable : Bucket.Listable documents)
    (tidy : db.Tidy table documents) {request : TableRequest} (names : request.Names documents) :
    ∃ outcome after, Completes db (request.start table) outcome after ∧
      after.Tidy table documents ∧ db.Follows table after := by
  cases request with
  | document request =>
      -- without attempts nothing is written, and nothing has to follow
      by_cases tries : table.retry.maxAttempts = some 0
      · obtain ⟨outcome, done⟩ := DocumentRequest.completes_of_exhausted db tries request
        exact ⟨_, db, done.map (fun _ => rfl) fun _ _ => rfl, tidy, tidy.follows_self⟩
      · have listed : request.key ∈ documents := names _ rfl
        obtain ⟨after, done, ⟨-, rfl⟩ | ⟨write, accepts, -, rfl⟩⟩ :=
          DocumentRequest.completes tidy.tended.arranged tries request
        · exact ⟨_, _, done.map (fun _ => rfl) fun _ _ => rfl, tidy, tidy.follows_self⟩
        · exact ⟨_, _, done.map (fun _ => rfl) fun _ _ => rfl,
            tidy.replaced listable listed accepts tries⟩
  | createIndex name path =>
      obtain ⟨result, after, done, rest⟩ := IndexCreation.completes listable tidy name path
      exact ⟨_, after, done.map (fun _ => rfl) fun _ _ => rfl, rest⟩
  | dropIndex name =>
      obtain ⟨result, after, done, rest⟩ := IndexDrop.completes tidy name
      have wrapped : Completes db ((table.dropIndex name).map TableTask.dropping .dropped)
          (.dropped result) after := done.map (fun _ => rfl) fun _ _ => rfl
      exact ⟨_, after, wrapped, rest⟩

end DocStore
