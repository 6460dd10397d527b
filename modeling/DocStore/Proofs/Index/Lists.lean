/-
What becomes of the lists in the buckets.

When several buckets are changed one after another, the list of each of them is changed by those of
the changes that are about it.  For the changes that one document demands this is at most one; for
the documents of a snapshot it is one after another, in their order.

* `Bucket.changed` — the list of a bucket after some changes;
* `Database.Tended.editedAll`, `Database.settledAll_eq` — the buckets after the changes that an
  undisturbed upkeep makes;
* `Bucket.changed_of_begins`, `Bucket.changed_of_ceases`, `Bucket.changed_of_stays` — **the changes
  that a document demands put it into a bucket or take it out**, or leave the bucket alone;
* `Bucket.changed_adds` — documents that come in ascending order are listed in this order.
-/

import DocStore.Proofs.Index.Edits
import DocStore.Proofs.Index.Undisturbed

set_option autoImplicit false

namespace DocStore

namespace Bucket

/-! ### Several changes of one list -/

/-- A change that is made again changes nothing. -/
theorem apply_apply (change : Change) (document : String) {list : List String} (h : list.Nodup) :
    change.apply document (change.apply document list) = change.apply document list := by
  cases change with
  | add =>
      simp only [Change.apply]
      split <;> simp [*]
  | remove => exact List.erase_of_not_mem fun hm => (h.mem_erase_iff.1 hm).1 rfl

/-- The list of a bucket after some changes of buckets. -/
def changed (index : Index) (indexKey : Bytes) (changes : List (Membership × Change))
    (list : List String) : List String :=
  changes.foldl (fun list c =>
    if c.1.index.buckets = index.buckets ∧ c.1.indexKey = indexKey
    then c.2.apply c.1.document list else list) list

variable {index : Index} {indexKey : Bytes} {changes : List (Membership × Change)}
  {list : List String}

/-- Changes of other buckets do not matter. -/
theorem changed_of_forall_ne
    (h : ∀ c ∈ changes, ¬ (c.1.index.buckets = index.buckets ∧ c.1.indexKey = indexKey)) :
    changed index indexKey changes list = list := by
  induction changes with
  | nil => rfl
  | cons c rest ih =>
      rw [changed, List.foldl_cons, if_neg (h c List.mem_cons_self)]
      exact ih fun d hd => h d (List.mem_cons_of_mem c hd)

/-- Changes of a bucket that are all the same are as good as one. -/
theorem changed_of_forall_eq {document : String} {change : Change} (nodup : list.Nodup)
    (all : ∀ c ∈ changes, c.1.index.buckets = index.buckets ∧ c.1.indexKey = indexKey →
      c.1.document = document ∧ c.2 = change)
    (some : ∃ c ∈ changes, c.1.index.buckets = index.buckets ∧ c.1.indexKey = indexKey) :
    changed index indexKey changes list = change.apply document list := by
  induction changes generalizing list with
  | nil =>
      obtain ⟨c, hc, -⟩ := some
      cases hc
  | cons c rest ih =>
      have later := fun d hd => all d (List.mem_cons_of_mem c hd)
      rw [changed, List.foldl_cons]
      by_cases here : c.1.index.buckets = index.buckets ∧ c.1.indexKey = indexKey
      · obtain ⟨rfl, rfl⟩ := all c List.mem_cons_self here
        rw [if_pos here]
        -- a later change of this bucket is the same change again, and does nothing more
        by_cases more : ∃ d ∈ rest, d.1.index.buckets = index.buckets ∧ d.1.indexKey = indexKey
        · exact (ih (nodup_apply _ _ nodup) later more).trans (apply_apply _ _ nodup)
        · exact changed_of_forall_ne fun d hd hk => more ⟨d, hd, hk⟩
      · rw [if_neg here]
        obtain ⟨d, hd, hk⟩ := some
        rcases List.mem_cons.1 hd with rfl | hd
        · exact absurd hk here
        · exact ih nodup later ⟨d, hd, hk⟩

/-! ### The documents of a snapshot -/

/-- One document is the other one, or comes before it in the order of the keys. -/
def UpTo (first second : String) : Prop :=
  first = second ∨ Utf8.encode first < Utf8.encode second

/-- A document is put in once. -/
theorem mem_apply_add {document d : String} :
    d ∈ Change.add.apply document list ↔ d = document ∨ d ∈ list := by
  rw [Change.apply]
  split
  · rename_i hm
    exact ⟨Or.inr, fun h => h.elim (fun same => same ▸ hm) id⟩
  · rw [List.mem_append, List.mem_singleton, or_comm]

/-- A document that comes after all others is put in at its place. -/
theorem ascending_apply_add {document : String}
    (sorted : list.Pairwise fun d e => Utf8.encode d < Utf8.encode e)
    (below : ∀ d ∈ list, UpTo d document) :
    (Change.add.apply document list).Pairwise fun d e => Utf8.encode d < Utf8.encode e := by
  rw [Change.apply]
  split
  · exact sorted
  · rename_i new
    refine List.pairwise_append.2 ⟨sorted, List.pairwise_singleton _ _, ?_⟩
    intro d hd e he
    obtain rfl := List.mem_singleton.1 he
    refine (below d hd).resolve_left ?_
    rintro rfl
    exact new hd

/-- Documents that come in ascending order are listed in this order. -/
theorem changed_adds {memberships : List Membership} (own : ∀ m ∈ memberships, m.index = index)
    (ascending : memberships.Pairwise fun m n => UpTo m.document n.document)
    (sorted : list.Pairwise fun d e => Utf8.encode d < Utf8.encode e)
    (below : ∀ d ∈ list, ∀ m ∈ memberships, UpTo d m.document) :
    (changed index indexKey (memberships.map (·, .add)) list).Pairwise
        (fun d e => Utf8.encode d < Utf8.encode e) ∧
      ∀ d, d ∈ changed index indexKey (memberships.map (·, .add)) list
        ↔ d ∈ list ∨ ⟨index, indexKey, d⟩ ∈ memberships := by
  induction memberships generalizing list with
  | nil => exact ⟨sorted, by simp [changed]⟩
  | cons m rest ih =>
      obtain ⟨first, ascending⟩ := List.pairwise_cons.1 ascending
      have own' := fun n hn => own n (List.mem_cons_of_mem m hn)
      have index_eq := own m List.mem_cons_self
      rw [List.map_cons, changed, List.foldl_cons]
      by_cases here : m.indexKey = indexKey
      · rw [if_pos ⟨by rw [index_eq], here⟩]
        have mine : ∀ d, (⟨index, indexKey, d⟩ : Membership) = m ↔ d = m.document := by
          intro d
          cases m
          simp_all
        have sorted' := ascending_apply_add sorted fun d hd => below d hd m List.mem_cons_self
        -- the list stays below the memberships that are still to come
        obtain ⟨result, members⟩ := ih own' ascending sorted' fun d hd n hn => by
          rcases mem_apply_add.1 hd with rfl | hd
          · exact first n hn
          · exact below d hd n (List.mem_cons_of_mem m hn)
        refine ⟨result, fun d => (members d).trans ?_⟩
        rw [mem_apply_add, List.mem_cons, mine]
        tauto
      · rw [if_neg fun h => here h.2]
        obtain ⟨result, members⟩ := ih own' ascending sorted fun d hd n hn =>
          below d hd n (List.mem_cons_of_mem m hn)
        refine ⟨result, fun d => (members d).trans ?_⟩
        have other : (⟨index, indexKey, d⟩ : Membership) ≠ m := by
          rintro rfl
          exact here rfl
        rw [List.mem_cons, or_iff_right other]

end Bucket

/-! ### The changes that a document demands -/

section Changes

variable {db : Database} {table : Table} {documents : Set String} {index : Index}
  {indexKey : Bytes} {document : String} {old new : Bytes} {list : List String}

/-- The changes of a bucket that a document demands are about this document. -/
theorem IndexSync.mem_changes_at (arranged : db.Arranged table) (hi : db.Registered table index)
    {c : Membership × Bucket.Change}
    (hc : c ∈ changes ((db.indexesOf table.id).entries.map (·.2)) document old new)
    (here : c.1.index.buckets = index.buckets ∧ c.1.indexKey = indexKey) :
    c.1 = ⟨index, indexKey, document⟩ ∧
      match c.2 with
      | .add => index.path.Yields new indexKey ∧ ¬ index.path.Yields old indexKey
      | .remove => index.path.Yields old indexKey ∧ ¬ index.path.Yields new indexKey := by
  obtain ⟨m, change⟩ := c
  obtain ⟨listed, rfl, hk⟩ :=
    (mem_changes_iff fun i hi j hj => Database.eq_of_name arranged hi hj).1 hc
  have registered := (Database.mem_indexes arranged).1 listed
  obtain ⟨i, k, d⟩ := m
  obtain ⟨buckets, rfl⟩ := here
  obtain rfl := registered.eq_of_buckets arranged hi buckets
  exact ⟨rfl, hk⟩

/-- A document enters the buckets of the keys that it begins to yield. -/
theorem Bucket.changed_of_begins (arranged : db.Arranged table) (hi : db.Registered table index)
    (nodup : list.Nodup) (begins : index.path.Yields new indexKey)
    (before : ¬ index.path.Yields old indexKey) :
    changed index indexKey
        (IndexSync.changes ((db.indexesOf table.id).entries.map (·.2)) document old new) list
      = Change.add.apply document list := by
  refine changed_of_forall_eq nodup ?_ ⟨(⟨index, indexKey, document⟩, .add), ?_, rfl, rfl⟩
  · intro c hc here
    obtain ⟨same, hk⟩ := IndexSync.mem_changes_at arranged hi hc here
    refine ⟨by rw [same], ?_⟩
    cases h : c.2 with
    | add => rfl
    | remove =>
        rw [h] at hk
        exact absurd hk.1 before
  · refine (IndexSync.mem_changes_iff fun i hi j hj => Database.eq_of_name arranged hi hj).2 ?_
    exact ⟨(Database.mem_indexes arranged).2 hi, rfl, begins, before⟩

/-- A document leaves the buckets of the keys that it ceases to yield. -/
theorem Bucket.changed_of_ceases (arranged : db.Arranged table) (hi : db.Registered table index)
    (nodup : list.Nodup) (ceases : ¬ index.path.Yields new indexKey)
    (before : index.path.Yields old indexKey) :
    changed index indexKey
        (IndexSync.changes ((db.indexesOf table.id).entries.map (·.2)) document old new) list
      = Change.remove.apply document list := by
  refine changed_of_forall_eq nodup ?_ ⟨(⟨index, indexKey, document⟩, .remove), ?_, rfl, rfl⟩
  · intro c hc here
    obtain ⟨same, hk⟩ := IndexSync.mem_changes_at arranged hi hc here
    refine ⟨by rw [same], ?_⟩
    cases h : c.2 with
    | add =>
        rw [h] at hk
        exact absurd hk.1 ceases
    | remove => rfl
  · refine (IndexSync.mem_changes_iff fun i hi j hj => Database.eq_of_name arranged hi hj).2 ?_
    exact ⟨(Database.mem_indexes arranged).2 hi, rfl, before, ceases⟩

/-- All other buckets stay as they are. -/
theorem Bucket.changed_of_stays (arranged : db.Arranged table) (hi : db.Registered table index)
    (stays : index.path.Yields old indexKey ↔ index.path.Yields new indexKey) :
    changed index indexKey
        (IndexSync.changes ((db.indexesOf table.id).entries.map (·.2)) document old new) list
      = list := by
  refine changed_of_forall_ne fun c hc here => ?_
  obtain ⟨-, hk⟩ := IndexSync.mem_changes_at arranged hi hc here
  cases h : c.2 with
  | add =>
      rw [h] at hk
      exact hk.2 (stays.2 hk.1)
  | remove =>
      rw [h] at hk
      exact hk.2 (stays.1 hk.1)

end Changes

/-! ### The buckets after several changes -/

namespace Database

variable {db mid after : Database} {table : Table} {documents : Set String}

/-- The documents and the registered indexes are the same, and the lists in the buckets have
changed like this. -/
structure Relists (db : Database) (table : Table)
    (change : Index → Bytes → List String → List String) (after : Database) : Prop where
  documents : ∀ key, (after.backend.store table.documents).get? key
    = (db.backend.store table.documents).get? key
  indexes : after.indexesOf table.id = db.indexesOf table.id
  bucket? : ∀ index, db.Registered table index → ∀ indexKey list,
    (db.backend.store index.buckets).bucket? indexKey = some list →
      (after.backend.store index.buckets).bucket? indexKey = some (change index indexKey list)

variable {change change' : Index → Bytes → List String → List String}

theorem Relists.registered (h : db.Relists table change after) {index : Index} :
    after.Registered table index ↔ db.Registered table index := by
  rw [Registered, Registered, h.indexes]

theorem Relists.wanted (h : db.Relists table change after) (arranged : db.Arranged table)
    {m : Membership} (hm : db.Registered table m.index) : m.Wanted after ↔ m.Wanted db := by
  rw [Membership.Wanted, Membership.Wanted, hm.documents arranged, h.documents]

/-- One change after another. -/
theorem Relists.trans (h : db.Relists table change mid) (h' : mid.Relists table change' after) :
    db.Relists table (fun index indexKey list =>
      change' index indexKey (change index indexKey list)) after where
  documents key := (h'.documents key).trans (h.documents key)
  indexes := h'.indexes.trans h.indexes
  bucket? index hi indexKey list hl :=
    h'.bucket? index (h.registered.2 hi) indexKey _ (h.bucket? index hi indexKey list hl)

/-- An access that leaves all slots as they are changes no list. -/
theorem Tended.relists_of_slots (tended : db.Tended table documents) {call : Call}
    (access : call.IsAccess)
    (slots : ∀ id, ((db.perform call none).2.backend.store id).slots
      = (db.backend.store id).slots) :
    (db.perform call none).2.Tended table documents ∧
      db.Relists table (fun _ _ list => list) (db.perform call none).2 := by
  obtain ⟨kept, indexes, get⟩ := tended.perform_of_slots access slots
  refine ⟨kept, get _, indexes, fun index _ indexKey list hl => ?_⟩
  rw [Store.bucket?, get]
  exact hl

/-- One change of a bucket. -/
theorem Tended.edited (tended : db.Tended table documents) (listable : Bucket.Listable documents)
    {m : Membership} (hm : db.Registered table m.index) (listed : m.document ∈ documents)
    (change : Bucket.Change) :
    (db.edited m change).Tended table documents ∧
      db.Relists table (fun index indexKey => Bucket.changed index indexKey [(m, change)])
        (db.edited m change) := by
  obtain ⟨list, hb, nodup, sub, -⟩ := (tended.buckets m.index hm).bucket? m.indexKey
  have rewrites : (db.edited m change).Tended table documents ∧
      db.Rewrites table m.index m.indexKey (change.apply m.document list) (db.edited m change) := by
    unfold Database.edited
    rw [hb]
    by_cases same : change.apply m.document list = list
    · simp only [if_pos same]
      refine ⟨tended, rfl, rfl, fun other _ key => ?_⟩
      split
      · rename_i here
        rw [here.1, here.2, hb, same]
      · rfl
    · simp only [if_neg same]
      refine tended.rewrite listable hm m.indexKey
        (Bucket.nodup_apply change m.document nodup) ?_ ?_
      · intro d hd
        rcases Bucket.mem_of_mem_apply hd with rfl | hd
        · exact listed
        · exact sub d hd
      · intro new
        exact same (Option.some.inj (new.symm.trans hb))
  refine ⟨rewrites.1, fun key => by rw [rewrites.2.documents], rewrites.2.indexes, ?_⟩
  intro index hi indexKey other ho
  rw [rewrites.2.bucket? index hi, Bucket.changed, List.foldl_cons, List.foldl_nil]
  by_cases here : index.buckets = m.index.buckets ∧ indexKey = m.indexKey
  · rw [here.1, here.2, hb] at ho
    rw [if_pos here, if_pos ⟨here.1.symm, here.2.symm⟩, Option.some.inj ho]
  · rw [if_neg here, if_neg fun h => here ⟨h.1.symm, h.2.symm⟩, ho]

/-- **Several changes of buckets, one after another.** -/
theorem Tended.editedAll (tended : db.Tended table documents) (listable : Bucket.Listable documents)
    {changes : List (Membership × Bucket.Change)}
    (hc : ∀ c ∈ changes, db.Registered table c.1.index ∧ c.1.document ∈ documents) :
    (db.editedAll changes).Tended table documents ∧
      db.Relists table (fun index indexKey => Bucket.changed index indexKey changes)
        (db.editedAll changes) := by
  induction changes generalizing db with
  | nil => exact ⟨tended, fun _ => rfl, rfl, fun _ _ _ _ h => h⟩
  | cons c rest ih =>
      obtain ⟨registered, listed⟩ := hc c List.mem_cons_self
      obtain ⟨kept, first⟩ := tended.edited listable registered listed c.2
      obtain ⟨kept, later⟩ := ih kept fun d hd =>
        (hc d (List.mem_cons_of_mem c hd)).imp_left first.registered.2
      exact ⟨kept, first.trans later⟩

/-- Memberships of one index that belong there are made right by adding them. -/
theorem settledAll_eq {index : Index} (apart : index.buckets ≠ index.documents)
    {memberships : List Membership} (own : ∀ m ∈ memberships, m.index = index)
    (wanted : ∀ m ∈ memberships, m.Wanted db) :
    db.settledAll memberships = db.editedAll (memberships.map (·, .add)) := by
  induction memberships generalizing db with
  | nil => rfl
  | cons m rest ih =>
      have first : db.settled m = db.edited m .add :=
        congrArg (db.edited m) (if_pos (wanted m List.mem_cons_self))
      have index_eq := own m List.mem_cons_self
      rw [settledAll, editedAll, List.map_cons, List.foldl_cons, List.foldl_cons, first]
      refine ih (fun n hn => own n (List.mem_cons_of_mem m hn)) fun n hn => ?_
      have mine := own n (List.mem_cons_of_mem m hn)
      have before := wanted n (List.mem_cons_of_mem m hn)
      rw [Membership.Wanted, mine] at before ⊢
      -- the documents are not written meanwhile, so that what was wanted stays wanted
      rw [store_edited_of_ne (by rw [index_eq]; exact apart.symm)]
      exact before

end Database

end DocStore
