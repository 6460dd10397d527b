/-
Changing one bucket while others write.

A change of a bucket reads it, plans a write and makes it, and starts over if the bucket has been
written in between.  What it has planned is right as long as the bucket is what it has read, and the
counters see to it that the write does not go through otherwise.

* `Database.Tended.rewrite` — a rewrite of one bucket leaves all other buckets and the documents
  alone;
* `Table.MayGiveUp` — why an operation may fail: its call did, or there is a limit to its attempts;
* `BucketEdit.Sound` — a change under way that is justified, and has planned for what it has read;
* `BucketEdit.sound_start`, `BucketEdit.step` — **a change that ends has put its document in or
  taken it out, and has done nothing else; or it has failed, and has done nothing at all.**
-/

import DocStore.Proofs.Index.Filing
import DocStore.Proofs.Index.Steps

set_option autoImplicit false

namespace DocStore

variable {db : Database} {table : Table} {documents : Set String}

/-! ### Rewriting a bucket -/

/-- What a rewrite of one bucket leaves behind. -/
structure Database.Rewrites (db : Database) (table : Table) (index : Index) (indexKey : Bytes)
    (list : List String) (after : Database) : Prop where
  documents : after.backend.store table.documents = db.backend.store table.documents
  indexes : after.indexesOf table.id = db.indexesOf table.id
  bucket? : ∀ other, db.Registered table other → ∀ key,
    (after.backend.store other.buckets).bucket? key
      = if other.buckets = index.buckets ∧ key = indexKey then some list
        else (db.backend.store other.buckets).bucket? key

/-- **A rewrite of one bucket leaves all other buckets and the documents alone.** -/
theorem Database.Tended.rewrite (listable : Bucket.Listable documents)
    (h : db.Tended table documents) {index : Index} (hi : db.Registered table index)
    (indexKey : Bytes) {list : List String} (nodup : list.Nodup) (sub : ∀ d ∈ list, d ∈ documents)
    (new : (db.backend.store index.buckets).bucket? indexKey ≠ some list) :
    let write := Bucket.rewrite ((db.backend.store index.buckets).get? indexKey) list
    let after := (db.perform (write.call index.buckets indexKey) none).2
    after.Tended table documents ∧ db.Rewrites table index indexKey list after := by
  intro write after
  have performed : after
      = db.putStore index.buckets (write.applied (db.backend.store index.buckets) indexKey) := by
    have accepts := Bucket.accepts_rewrite ((db.backend.store index.buckets).get? indexKey) list
    exact congrArg Prod.snd (db.perform_write accepts)
  have access := write.call_isAccess index.buckets indexKey
  have stores : ∀ id, after.backend.store id
      = if id = index.buckets then write.applied (db.backend.store index.buckets) indexKey
        else db.backend.store id := by
    intro id
    rw [performed, Database.putStore, Backend.store_putStore]
    simp only [hi.lt_length h.arranged, and_true]
  have docs : after.backend.store table.documents = db.backend.store table.documents := by
    rw [stores, if_neg (hi.apart h.arranged).symm]
  have indexes : after.indexesOf table.id = db.indexesOf table.id := by
    rw [performed]
    rfl
  refine ⟨⟨h.arranged.perform none access, ?_, ?_⟩, docs, indexes, ?_⟩
  · intro other ho
    rw [Database.Registered, indexes] at ho
    rw [stores]
    split
    · refine (h.buckets index hi).applied fun bytes hb => ?_
      exact Bucket.wellFormed_of_rewrite listable nodup sub new hb
    · exact h.buckets other ho
  · rw [docs]
    exact h.keys
  · intro other ho key
    rw [stores]
    by_cases same : other.buckets = index.buckets
    · rw [if_pos same, Store.bucket?_rewrite listable indexKey nodup sub, same]
      simp
    · rw [if_neg same, if_neg fun both => same both.1]

/-! ### Giving up -/

/-- An operation on the table may fail at a call: the call has met a fault, or there is a limit to
the attempts. -/
def Table.MayGiveUp (table : Table) (fault : Option Error) : Prop :=
  fault ≠ none ∨ table.retry.maxAttempts ≠ none

theorem Table.mayGiveUp_some (table : Table) (e : Error) : table.MayGiveUp (some e) :=
  Or.inl (Option.some_ne_none e)

namespace BucketEdit

/-- A change under way that is justified by what its document was, and has planned for what it has
read of the bucket. -/
structure Sound (db : Database) (table : Table) (documents : Set String) (seen : Option Counter)
    (edit : BucketEdit) : Prop where
  registered : db.Registered table edit.index
  listed : edit.document ∈ documents
  limit : edit.attempts.limit = table.retry.maxAttempts
  justified : edit.membership.Justified db seen edit.change
  planned : ∀ write, edit.write = some write → ∃ stored,
    Bucket.plan edit.change edit.document stored = .ok (some write) ∧
      ∀ v, stored = some v → (db.backend.store edit.index.buckets).Recalls edit.indexKey v

variable {after : Database} {seen : Option Counter} {edit : BucketEdit}

theorem Sound.mono (h : edit.Sound db table documents seen) (later : db.Extends table after) :
    edit.Sound after table documents seen where
  registered := later.registered _ h.registered
  listed := h.listed
  limit := h.limit
  justified := h.justified.mono later
  planned write hw := by
    obtain ⟨stored, hp, hr⟩ := h.planned write hw
    exact ⟨stored, hp, fun v hv => later.recalls _ _ _ (hr v hv)⟩

/-- A change begins another attempt, unless there is a limit. -/
theorem sound_again (h : edit.Sound db table documents seen) :
    edit.again.Satisfies
      (fun e => e.Sound db table documents seen ∧ e.membership = edit.membership ∧
        e.change = edit.change)
      fun result => (∃ e, result = .error e) ∧ table.retry.maxAttempts ≠ none := by
  unfold again
  rcases edit.attempts.begin_cases with begun | ⟨e, ended, limited⟩
  · rw [begun]
    exact ⟨⟨h.registered, h.listed, h.limit, h.justified, by simp⟩, rfl, rfl⟩
  · rw [ended]
    exact ⟨⟨e, rfl⟩, h.limit ▸ limited⟩

theorem sound_start (tries : table.retry.maxAttempts ≠ some 0) (tended : db.Tended table documents)
    {m : Membership} (registered : db.Registered table m.index) (listed : m.document ∈ documents)
    {change : Bucket.Change} (justified : m.Justified db seen change) :
    (start m.index m.indexKey change m.document).Satisfies
      (fun e => e.Sound db table documents seen ∧ e.membership = m ∧ e.change = change)
      fun _ => False := by
  have same := registered.retry tended.arranged
  unfold start again
  rw [RetryPolicy.begin_attempts (same ▸ tries)]
  exact ⟨⟨registered, listed, congrArg RetryPolicy.maxAttempts same, justified, by simp⟩, rfl, rfl⟩

/-- What was planned goes through only if the bucket is what was read. -/
theorem stored_eq_of_accepts {stored : Option (Versioned Bytes)} {write : SlotWrite}
    (hp : Bucket.plan edit.change edit.document stored = .ok (some write))
    (hr : ∀ v, stored = some v → (db.backend.store edit.index.buckets).Recalls edit.indexKey v)
    (accepts : write.Accepts ((db.backend.store edit.index.buckets).get? edit.indexKey)) :
    (db.backend.store edit.index.buckets).get? edit.indexKey = stored := by
  obtain ⟨list, -, -, rfl⟩ := Bucket.eq_rewrite_of_plan hp
  -- a write tells by its counter, or by the key being free, that nobody was there in between
  cases stored with
  | none => exact accepts
  | some v =>
      refine (hr v rfl).get?_eq ?_
      cases hl : edit.change.apply edit.document list with
      | nil =>
          rw [hl] at accepts
          exact accepts
      | cons d rest =>
          rw [hl] at accepts
          exact accepts

theorem resume_reply {write : SlotWrite} (hw : edit.write = some write)
    (result : Except Error Counter) :
    Task.resume edit (write.reply result) = edit.written (result.map fun _ => ()) := by
  cases write <;> simp only [Task.resume, hw, SlotWrite.reply]

end BucketEdit

/-! ### What a change of a bucket does -/

/-- A document has been put into its bucket or taken out of it, and nothing else has happened to
the documents and the memberships of the table. -/
structure Database.Files (db : Database) (table : Table) (m : Membership)
    (change : Bucket.Change) (after : Database) : Prop where
  documents : after.backend.store table.documents = db.backend.store table.documents
  indexes : after.indexesOf table.id = db.indexesOf table.id
  own : m.Filed after ↔ change = .add
  others : ∀ other : Membership, db.Registered table other.index → other ≠ m →
    (other.Filed after ↔ other.Filed db)

/-- A bucket that is as it should be already needs no change. -/
theorem Database.Tended.files_self (h : db.Tended table documents) {m : Membership}
    (hm : db.Registered table m.index) {change : Bucket.Change} {list : List String}
    (hb : (db.backend.store m.index.buckets).bucket? m.indexKey = some list)
    (same : change.apply m.document list = list) : db.Files table m change db := by
  obtain ⟨other, ho, nodup, -⟩ := (h.buckets m.index hm).bucket? m.indexKey
  obtain rfl : list = other := Option.some.inj (hb.symm.trans ho)
  refine ⟨rfl, rfl, ?_, fun _ _ _ => Iff.rfl⟩
  have mem : m.document ∈ change.apply m.document list ↔ change = .add := by
    rw [Bucket.mem_apply nodup, if_pos rfl]
  rw [same] at mem
  rw [← mem]
  exact Membership.filed_iff_mem hb

/-- A rewrite to the changed list makes the change. -/
theorem Database.Rewrites.files {after : Database} {m : Membership} {change : Bucket.Change}
    {list : List String} (h : db.Rewrites table m.index m.indexKey (change.apply m.document list)
      after) (tended : db.Tended table documents) (hm : db.Registered table m.index)
    (hb : (db.backend.store m.index.buckets).bucket? m.indexKey = some list) :
    db.Files table m change after := by
  obtain ⟨other, ho, nodup, -⟩ := (tended.buckets m.index hm).bucket? m.indexKey
  obtain rfl : list = other := Option.some.inj (hb.symm.trans ho)
  refine ⟨h.documents, h.indexes, ?_, ?_⟩
  · rw [Membership.Filed, h.bucket? m.index hm, if_pos ⟨rfl, rfl⟩]
    simp only [Option.some.injEq, exists_eq_left']
    rw [Bucket.mem_apply nodup, if_pos rfl]
  · intro n hn ne
    rw [Membership.Filed, Membership.Filed, h.bucket? n.index hn]
    split
    · rename_i same
      -- the same bucket, so that it is another document, which stays where it is
      have index := hn.eq_of_buckets tended.arranged hm same.1
      have document : n.document ≠ m.document := by
        intro hd
        apply ne
        cases n
        cases m
        simp_all
      rw [index, same.2, hb]
      simp only [Option.some.injEq, exists_eq_left']
      rw [Bucket.mem_apply nodup, if_neg document]
    · exact Iff.rfl

namespace BucketEdit

variable {seen : Option Counter} {edit : BucketEdit}

/-- A change that reads its bucket ends if the bucket is as it should be, or plans a write. -/
theorem step_reading (tended : db.Tended table documents)
    (h : edit.Sound db table documents seen) (unread : edit.write = none) :
    (Task.resume edit
        (.document (.ok ((db.backend.store edit.index.buckets).get? edit.indexKey)))).Satisfies
      (fun e => e.Sound db table documents seen ∧ e.membership = edit.membership ∧
        e.change = edit.change)
      (fun result => result = .ok () ∧ db.Files table edit.membership edit.change db) := by
  obtain ⟨list, hb, -⟩ := (tended.buckets edit.index h.registered).bucket? edit.indexKey
  have plan := @Bucket.plan_eq edit.change edit.document _ _ hb
  simp only [Task.resume, unread]
  rw [plan]
  by_cases unchanged : edit.change.apply edit.document list = list
  · rw [if_pos unchanged]
    exact ⟨rfl, tended.files_self h.registered hb unchanged⟩
  · rw [if_neg unchanged]
    refine ⟨⟨h.registered, h.listed, h.limit, h.justified, ?_⟩, rfl, rfl⟩
    rintro write ⟨⟩
    rw [if_neg unchanged] at plan
    exact ⟨_, plan, fun v hv => Store.recalls_of_get? hv⟩

/-- The planned write goes through only if the bucket is what was read, and then it makes the
change. -/
theorem step_writing (listable : Bucket.Listable documents) (tended : db.Tended table documents)
    (h : edit.Sound db table documents seen) {write : SlotWrite} (hw : edit.write = some write)
    (accepts : write.Accepts ((db.backend.store edit.index.buckets).get? edit.indexKey)) :
    let after := (db.perform (write.call edit.index.buckets edit.indexKey) none).2
    after.Tended table documents ∧ db.Files table edit.membership edit.change after := by
  intro after
  obtain ⟨stored, hp, hr⟩ := h.planned write hw
  obtain rfl := stored_eq_of_accepts hp hr accepts
  obtain ⟨list, hd, changed, rfl⟩ := Bucket.eq_rewrite_of_plan hp
  obtain ⟨other, ho, nodup, sub, -⟩ :=
    (tended.buckets edit.index h.registered).bucket? edit.indexKey
  obtain rfl : list = other := Option.some.inj (hd.symm.trans ho)
  -- nothing is written unless the list changes, so that no empty bucket is created
  have new : (db.backend.store edit.index.buckets).bucket? edit.indexKey
      ≠ some (edit.change.apply edit.document list) := by
    intro hn
    exact changed (Option.some.inj (hn.symm.trans ho))
  have sub' : ∀ d ∈ edit.change.apply edit.document list, d ∈ documents := by
    intro d hm
    rcases Bucket.mem_of_mem_apply hm with rfl | hm
    · exact h.listed
    · exact sub d hm
  obtain ⟨kept, rewrites⟩ := tended.rewrite listable h.registered edit.indexKey
    (Bucket.nodup_apply edit.change edit.document nodup) sub' new
  exact ⟨kept, Database.Rewrites.files (m := edit.membership) rewrites tended h.registered ho⟩

/-- A write that fails ends the change, or lets it start over. -/
theorem sound_written (h : edit.Sound db table documents seen) (e : Error) :
    (edit.written (.error e)).Satisfies
      (fun t => t.Sound db table documents seen ∧ t.membership = edit.membership ∧
        t.change = edit.change)
      fun result => ∃ e, result = .error e := by
  unfold written
  split
  · exact (sound_again h).imp (fun _ ht => ht) fun _ ended => ended.1
  · exact ⟨e, rfl⟩

/-- **A change that ends has put its document in or taken it out, and has done nothing else; or it
has failed, and has done nothing at all.**  A change that goes on has done nothing. -/
theorem step (listable : Bucket.Listable documents) (tended : db.Tended table documents)
    (h : edit.Sound db table documents seen) {fault : Option Error}
    (room : fault = none → db.HasRoom (Task.call edit)) :
    let performed := db.perform (Task.call edit) fault
    performed.2.Tended table documents ∧ db.Extends table performed.2 ∧
      (Task.resume edit performed.1).Satisfies
        (fun e => performed.2 = db ∧ e.Sound db table documents seen ∧
          e.membership = edit.membership ∧ e.change = edit.change)
        (fun result =>
          result = .ok () ∧ db.Files table edit.membership edit.change performed.2 ∨
            (∃ e, result = .error e) ∧ performed.2 = db ∧ table.MayGiveUp fault) := by
  intro performed
  rcases edit.call_cases with ⟨unread, hc⟩ | ⟨write, hw, hc⟩
  · have read : performed = db.perform (.get edit.index.buckets edit.indexKey) fault :=
      congrArg (db.perform · fault) hc
    cases fault with
    | some e =>
        have failed : Task.resume edit (.document (.error e)) = .finished (.error e) := by
          simp only [Task.resume, unread]
        rw [show performed = (.document (.error e), db) from read, failed]
        exact ⟨tended, .refl db table, Or.inr ⟨⟨e, rfl⟩, rfl, table.mayGiveUp_some e⟩⟩
    | none =>
        rw [read, Database.perform_get]
        exact ⟨tended, .refl db table, (step_reading tended h unread).imp
          (fun _ he => ⟨rfl, he⟩) fun _ he => Or.inl he⟩
  · have made : performed = db.perform (write.call edit.index.buckets edit.indexKey) fault :=
      congrArg (db.perform · fault) hc
    cases fault with
    | some e =>
        rw [made, db.perform_write_some, resume_reply hw]
        exact ⟨tended, .refl db table, (sound_written h e).imp (fun _ ht => ⟨rfl, ht⟩)
          fun _ ended => Or.inr ⟨ended, rfl, table.mayGiveUp_some e⟩⟩
    | none =>
        have later : db.Extends table performed.2 :=
          Database.extends_perform table edit.call_isAccess (room rfl)
        by_cases accepts : write.Accepts
            ((db.backend.store edit.index.buckets).get? edit.indexKey)
        · obtain ⟨kept, files⟩ := step_writing listable tended h hw accepts
          rw [← made] at kept files
          have reply := congrArg Prod.fst (made.trans (db.perform_write accepts))
          rw [reply, resume_reply hw]
          exact ⟨kept, later, Or.inl ⟨rfl, files⟩⟩
        · rw [made, db.perform_write_of_not accepts, resume_reply hw]
          exact ⟨tended, .refl db table, (sound_again h).imp (fun _ ht => ⟨rfl, ht⟩)
            fun _ ended => Or.inr ⟨ended.1, rfl, Or.inr ended.2⟩⟩

end BucketEdit

end DocStore
