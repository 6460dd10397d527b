/-
Buckets stay lists of documents, whatever fails.

Any operations run at the same time, and any call may fail or find another state than is there.
Then an index may miss documents or keep some that are gone; but a bucket is never left that cannot
be read, that is empty, or that lists a document twice.  An operation under way has planned only
writes that its store may keep, because what it plans with is a bucket that it has read, and that
was well-formed.

* `BucketEdit.Proper` — a change of a bucket whose write is well-formed;
* `IndexSync.Proper`, `IndexCreation.Proper`, `DocumentWrite.Proper`, `DocumentUpdate.Proper`,
  `TableTask.Proper`, `DatabaseTask.Proper` — operations that make nothing else than such changes,
  and write documents where documents are kept;
* `DatabaseTask.permits`, `DatabaseTask.proper_step` — **an operation makes permitted calls only,
  and stays so, whatever becomes of its call;**
* `Database.apiRules` — everything that can be asked of a database and happen to it, with any
  faults;
* `Run.orderly` — the database is in order in every state;
* `buckets_isList` — **every bucket of every index is a list, not empty and without repetition.**

The documents that are asked for are among some whose lists survive being written
(`Bucket.Listable`).
-/

import DocStore.Proofs.Database.Orderly
import DocStore.Proofs.Index.Memberships
import DocStore.Proofs.Text.Lossy

set_option autoImplicit false

namespace DocStore

variable {db after : Database} {documents : Set String} {fault : Option Error}

/-! ### Buckets -/

/-- A membership of a document that can be listed, in a store of buckets. -/
def Membership.Listed (db : Database) (documents : Set String) (m : Membership) : Prop :=
  db.HasBuckets m.index.buckets ∧ m.document ∈ documents

theorem Membership.Listed.mono {m : Membership} (h : m.Listed db documents)
    (evolves : db.Evolves documents after) : m.Listed after documents :=
  ⟨evolves.hasBuckets h.1, h.2⟩

namespace BucketEdit

/-- A change whose write, if one is planned, leaves a well-formed bucket. -/
def Proper (documents : Set String) (edit : BucketEdit) : Prop :=
  ∀ write, edit.write = some write → ∀ bytes, write.value? = some bytes →
    Bucket.WellFormed documents bytes

variable {edit : BucketEdit}

theorem proper_of_write (h : edit.write = none) : edit.Proper documents := by
  intro write hw
  rw [h] at hw
  cases hw

theorem permits (listed : edit.membership.Listed db documents) (h : edit.Proper documents) :
    db.Permits documents (Task.call edit) := by
  rcases edit.call_cases with ⟨-, hc⟩ | ⟨write, hw, hc⟩
  · rw [hc]
    trivial
  · rw [hc]
    refine Database.permits_write.2 fun bytes hb => ⟨fun _ => h write hw bytes hb, ?_⟩
    exact fun hd => absurd hd (Database.HasBuckets.not_hasDocuments listed.1)

/-- What is planned leaves a well-formed bucket, if what is read is one. -/
theorem proper_resume (listable : Bucket.Listable documents) (mem : edit.document ∈ documents)
    (h : edit.Proper documents) (reply : Reply)
    (read : ∀ stored, edit.write = none → reply = .document (.ok (some stored)) →
      Bucket.WellFormed documents stored.value) :
    (Task.resume edit reply).Satisfies (Proper documents) fun _ => True := by
  have again : edit.again.Satisfies (Proper documents) fun _ => True :=
    edit.satisfies_again.imp (fun _ h => proper_of_write h.2.2) fun _ h => h
  have written : ∀ result, (edit.written result).Satisfies (Proper documents) fun _ => True := by
    intro result
    unfold written
    split
    · exact again
    · trivial
  cases hw : edit.write with
  | some write =>
      simp only [Task.resume, hw]
      split
      · contradiction
      · contradiction
      · exact written _
      · exact written _
      · exact h
  | none =>
      simp only [Task.resume, hw]
      -- any reply may come, but a bucket that is read is well-formed
      cases reply with
      | document found =>
          cases found with
          | error e => trivial
          | ok stored =>
              dsimp only
              split
              · trivial
              · trivial
              · rename_i planned hp
                intro write same bytes hb
                obtain rfl : planned = write := Option.some.inj same
                refine Bucket.wellFormed_of_plan listable mem (fun v hv => ?_) hp hb
                exact read v hw (by rw [hv])
      | _ => exact h

/-- A change stays proper, whatever becomes of its call. -/
theorem proper_step (listable : Bucket.Listable documents) (orderly : db.Orderly documents)
    {call : Call} (own : Task.call edit = call) (listed : edit.membership.Listed db documents)
    (h : edit.Proper documents) :
    (Task.resume edit (db.perform call fault).1).Satisfies (Proper documents) fun _ => True := by
  refine proper_resume listable listed.2 h _ fun stored unread read => ?_
  -- a change without a planned write is the one that reads its bucket
  obtain ⟨-, hc⟩ := edit.call_cases.resolve_right fun ⟨write, hw, _⟩ => by
    rw [unread] at hw
    cases hw
  rw [← own, hc] at read
  exact orderly.wellFormed_of_get listed.1 read

end BucketEdit

/-! ### Indexes -/

namespace IndexSync

/-- The upkeep of the indexes for a document that can be listed. -/
def Proper (db : Database) (documents : Set String) (sync : IndexSync) : Prop :=
  sync.document ∈ documents ∧
    sync.Concerns (fun m => m.Listed db documents) fun e => e.Proper documents

variable {sync : IndexSync}

theorem Proper.mono (h : sync.Proper db documents) (evolves : db.Evolves documents after) :
    sync.Proper after documents :=
  ⟨h.1, h.2.imp (fun _ hm => hm.mono evolves) fun _ _ he => he⟩

theorem permits (h : sync.Proper db documents) : db.Permits documents (Task.call sync) :=
  call_of_concerns h.2 (fun _ _ => trivial) (fun _ => trivial)
    fun _ hm he => BucketEdit.permits hm he

theorem proper_step (listable : Bucket.Listable documents) (orderly : db.Orderly documents)
    (h : sync.Proper db documents) :
    (Task.resume sync (db.perform (Task.call sync) fault).1).Satisfies
      (fun t => t.Proper db documents) fun _ => True := by
  have kept := concerns_resume h.2 (db.perform (Task.call sync) fault).1 ?_
    (fun _ _ unread => BucketEdit.proper_of_write unread)
    fun _ own hm he => BucketEdit.proper_step listable orderly own hm he
  · exact kept.imp (fun t ⟨concerns, continues⟩ => ⟨continues.2.1 ▸ h.1, concerns⟩)
      fun _ _ => trivial
  · intro old new indexes stage read i hi k
    rw [show Task.call sync = .readIndexes sync.table.id by simp only [Task.call, stage]] at read
    exact ⟨orderly.hasBuckets_of_readIndexes read hi, h.1⟩

end IndexSync

namespace IndexCreation

/-- The creation of an index that has a store of buckets, for a table that has one of documents. -/
structure Proper (db : Database) (documents : Set String) (c : IndexCreation) : Prop where
  stored : db.HasDocuments c.table.documents
  opening : ∀ index, c.stage = .opening index → db.HasBuckets index.buckets
  concerns : c.Concerns (fun m => m.Listed db documents) fun e => e.Proper documents

variable {c : IndexCreation}

theorem Proper.mono (h : c.Proper db documents) (evolves : db.Evolves documents after) :
    c.Proper after documents where
  stored := evolves.hasDocuments h.stored
  opening index hs := evolves.hasBuckets (h.opening index hs)
  concerns := h.concerns.imp (fun _ hm => hm.mono evolves) fun _ _ he => he

theorem Proper.permits (h : c.Proper db documents) : db.Permits documents (Task.call c) := by
  obtain ⟨table, stage⟩ := c
  cases stage with
  | registering name path => trivial
  | opening index => trivial
  | filing index queue =>
      exact Settling.call_of_concerns (h.concerns index queue rfl).1 (fun _ _ => trivial)
        fun _ hm he => BucketEdit.permits hm he
  | releasing index => trivial

/-- A creation stays with its table, registers what it was to register, and opens the documents for
the index that it has got. -/
structure Continues (c : IndexCreation) (reply : Reply) (later : IndexCreation) : Prop where
  table : later.table = c.table
  registering : ∀ name path, later.stage = .registering name path →
    c.stage = .registering name path
  opening : ∀ index, later.stage = .opening index → c.stage = .opening index ∨
    ∃ name path, c.stage = .registering name path ∧ reply = .index (.ok index)

theorem continues_resume (c : IndexCreation) (reply : Reply) :
    (Task.resume c reply).Satisfies (c.Continues reply) fun _ => True := by
  -- once it files or gives back, a creation registers and opens nothing any more
  have filed : ∀ index progress,
      (filed c.table index progress).Satisfies (c.Continues reply) fun _ => True := by
    intro index progress
    cases progress with
    | waiting queue => exact ⟨rfl, (fun _ _ same => nomatch same), fun _ same => nomatch same⟩
    | finished result => exact ⟨rfl, (fun _ _ same => nomatch same), fun _ same => nomatch same⟩
  simp only [Task.resume]
  split
  · rename_i name path index hs
    refine ⟨rfl, (by rintro _ _ ⟨⟩), ?_⟩
    intro _ same
    cases same
    exact Or.inr ⟨name, path, hs, rfl⟩
  · trivial
  · exact filed _ _
  · trivial
  · exact filed _ _
  · trivial
  · exact ⟨rfl, fun _ _ same => same, fun _ same => Or.inl same⟩

theorem proper_step (listable : Bucket.Listable documents) (orderly : db.Orderly documents)
    (h : c.Proper db documents) :
    (Task.resume c (db.perform (Task.call c) fault).1).Satisfies
      (fun t => t.Proper (db.perform (Task.call c) fault).2 documents) fun _ => True := by
  have evolves := Database.evolves_perform orderly.consistent h.permits fault
  have concerns := concerns_resume h.concerns (db.perform (Task.call c) fault).1 ?_
    (fun _ _ unread => BucketEdit.proper_of_write unread)
    fun _ own hm he => BucketEdit.proper_step listable orderly own hm he
  · refine (concerns.and (c.continues_resume _)).imp ?_ fun _ _ => trivial
    rintro t ⟨kept, table, -, opening⟩
    refine ⟨table ▸ evolves.hasDocuments h.stored, fun index hs => ?_,
      kept.imp (fun _ hm => hm.mono evolves) fun _ _ he => he⟩
    rcases opening index hs with before | ⟨name, path, stage, registered⟩
    · exact evolves.hasBuckets (h.opening index before)
    · have call : Task.call c = .registerIndex c.table name path := by simp only [Task.call, stage]
      rw [call] at registered ⊢
      exact orderly.hasBuckets_of_registerIndex registered
  · -- what is filed comes from the cursor over the documents
    intro index cursor stage read m hm
    rw [show Task.call c = .iter c.table.documents false by simp only [Task.call, stage]] at read
    obtain ⟨e, he, hm⟩ := List.mem_flatMap.1 hm
    obtain ⟨indexKey, -, rfl⟩ := List.mem_map.1 hm
    exact ⟨h.opening index stage, orderly.listed_of_iter h.stored read he⟩

end IndexCreation

/-! ### Documents -/

/-- A write to a document that can be listed. -/
theorem Database.HasDocuments.permits {id : StoreId} (h : db.HasDocuments id) {key : String}
    (mem : key ∈ documents) (write : SlotWrite) :
    db.Permits documents (write.call id (Utf8.encode key)) := by
  refine Database.permits_write.2 fun bytes _ =>
    ⟨fun hb => absurd h hb.not_hasDocuments, fun _ => ?_⟩
  rwa [Utf8.lossy_encode]

namespace DocumentWrite

/-- The writing of a document that can be listed, where documents are kept. -/
structure Proper (db : Database) (documents : Set String) (w : DocumentWrite) : Prop where
  stored : db.HasDocuments w.table.documents
  listed : w.key ∈ documents
  syncing : ∀ counter sync, w.stage = .syncing counter sync → sync.Proper db documents

variable {w : DocumentWrite}

theorem Proper.mono (h : w.Proper db documents) (evolves : db.Evolves documents after) :
    w.Proper after documents where
  stored := evolves.hasDocuments h.stored
  listed := h.listed
  syncing counter sync hs := (h.syncing counter sync hs).mono evolves

theorem proper_again (h : w.Proper db documents) :
    w.again.Satisfies (fun t => t.Proper db documents) fun _ => True := by
  unfold again
  split
  · exact ⟨h.stored, h.listed, fun _ _ same => nomatch same⟩
  · trivial

theorem proper_start {table : Table} (stored : db.HasDocuments table.documents) {key : String}
    (listed : key ∈ documents) (value : Value) (expected : Option Counter) :
    (start table key value expected).Satisfies (fun t => t.Proper db documents) fun _ => True := by
  unfold start
  split
  · exact proper_again ⟨stored, listed, fun _ _ same => nomatch same⟩
  · trivial

theorem proper_synced (h : w.Proper db documents) (counter : Counter)
    {progress : Progress IndexSync Unit}
    (hp : progress.Satisfies (fun t => t.Proper db documents) fun _ => True) :
    (w.synced counter progress).Satisfies (fun t => t.Proper db documents) fun _ => True := by
  cases progress with
  | waiting sync =>
      refine ⟨h.stored, h.listed, ?_⟩
      intro _ _ same
      cases same
      exact hp
  | finished result => trivial

theorem Proper.permits (h : w.Proper db documents) : db.Permits documents (Task.call w) := by
  obtain ⟨table, key, data, expected, attempts, stage⟩ := w
  cases stage with
  | reading => trivial
  | writing old write => exact h.stored.permits h.listed write
  | syncing counter sync => exact IndexSync.permits (h.syncing counter sync rfl)

theorem proper_step (listable : Bucket.Listable documents) (orderly : db.Orderly documents)
    (h : w.Proper db documents) :
    (Task.resume w (db.perform (Task.call w) fault).1).Satisfies
      (fun t => t.Proper db documents) fun _ => True := by
  obtain ⟨table, key, data, expected, attempts, stage⟩ := w
  cases stage with
  | reading =>
      generalize (db.perform _ fault).1 = reply
      match reply with
      | .document (.error e) => trivial
      | .document (.ok stored) =>
          simp only [Task.resume]
          split
          · refine ⟨h.stored, h.listed, ?_⟩
            rintro _ _ ⟨⟩
          · trivial
      | .counter _ | .done _ | .cursor _ | .indexes _ | .index _ | .table _ => exact h
  | writing old write =>
      generalize (db.perform _ fault).1 = reply
      cases reply with
      | counter written =>
          cases written with
          | ok counter => exact proper_synced h counter ⟨h.listed, trivial⟩
          | error e =>
              cases e with
              | swapMismatch =>
                  simp only [Task.resume]
                  split
                  · trivial
                  · exact proper_again h
              | _ => trivial
      | _ => exact h
  | syncing counter sync =>
      exact proper_synced h counter
        (IndexSync.proper_step listable orderly (h.syncing counter sync rfl))

end DocumentWrite

namespace DocumentDelete

/-- The deletion of a document that can be listed. -/
structure Proper (db : Database) (documents : Set String) (d : DocumentDelete) : Prop where
  listed : d.key ∈ documents
  syncing : ∀ sync, d.stage = .syncing sync → sync.Proper db documents

variable {d : DocumentDelete}

theorem Proper.mono (h : d.Proper db documents) (evolves : db.Evolves documents after) :
    d.Proper after documents where
  listed := h.listed
  syncing sync hs := (h.syncing sync hs).mono evolves

theorem proper_again (listed : d.key ∈ documents) :
    d.again.Satisfies (fun t => t.Proper db documents) fun _ => True := by
  unfold again
  split
  · exact ⟨listed, fun _ same => nomatch same⟩
  · trivial

theorem proper_synced (listed : d.key ∈ documents) {progress : Progress IndexSync Unit}
    (hp : progress.Satisfies (fun t => t.Proper db documents) fun _ => True) :
    (d.synced progress).Satisfies (fun t => t.Proper db documents) fun _ => True := by
  cases progress with
  | waiting sync =>
      refine ⟨listed, ?_⟩
      intro _ same
      cases same
      exact hp
  | finished result => trivial

theorem Proper.permits (h : d.Proper db documents) : db.Permits documents (Task.call d) := by
  obtain ⟨table, key, expected, attempts, stage⟩ := d
  cases stage with
  | reading => trivial
  | erasing old counter => trivial
  | syncing sync => exact IndexSync.permits (h.syncing sync rfl)

theorem proper_step (listable : Bucket.Listable documents) (orderly : db.Orderly documents)
    (h : d.Proper db documents) :
    (Task.resume d (db.perform (Task.call d) fault).1).Satisfies
      (fun t => t.Proper db documents) fun _ => True := by
  obtain ⟨table, key, expected, attempts, stage⟩ := d
  cases stage with
  | reading =>
      generalize (db.perform _ fault).1 = reply
      match reply with
      | .document (.error e) => trivial
      | .document (.ok none) => trivial
      | .document (.ok (some stored)) =>
          simp only [Task.resume]
          split
          · trivial
          · exact ⟨h.listed, fun _ same => nomatch same⟩
      | .counter _ | .done _ | .cursor _ | .indexes _ | .index _ | .table _ => exact h
  | erasing old counter =>
      generalize (db.perform _ fault).1 = reply
      match reply with
      | .done (.ok ()) => exact proper_synced h.listed ⟨h.listed, trivial⟩
      | .done (.error e) =>
          cases e with
          | swapMismatch =>
              simp only [Task.resume]
              split
              · trivial
              · exact proper_again h.listed
          | _ => trivial
      | .document _ | .counter _ | .cursor _ | .indexes _ | .index _ | .table _ => exact h
  | syncing sync =>
      exact proper_synced h.listed
        (IndexSync.proper_step listable orderly (h.syncing sync rfl))

end DocumentDelete

namespace DocumentUpdate

/-- The update of a document that can be listed, where documents are kept. -/
structure Proper (db : Database) (documents : Set String) (u : DocumentUpdate) : Prop where
  stored : db.HasDocuments u.table.documents
  listed : u.key ∈ documents
  writing : ∀ write, u.stage = .writing write → write.Proper db documents

variable {u : DocumentUpdate}

theorem Proper.mono (h : u.Proper db documents) (evolves : db.Evolves documents after) :
    u.Proper after documents where
  stored := evolves.hasDocuments h.stored
  listed := h.listed
  writing write hs := (h.writing write hs).mono evolves

theorem proper_again (h : u.Proper db documents) :
    u.again.Satisfies (fun t => t.Proper db documents) fun _ => True := by
  unfold again
  split
  · exact ⟨h.stored, h.listed, fun _ same => by cases same⟩
  · trivial

theorem proper_written (h : u.Proper db documents)
    {progress : Progress DocumentWrite (Except Error Counter)}
    (hp : progress.Satisfies (fun t => t.Proper db documents) fun _ => True) :
    (u.written progress).Satisfies (fun t => t.Proper db documents) fun _ => True := by
  unfold written
  split
  · refine ⟨h.stored, h.listed, ?_⟩
    intro _ same
    cases same
    exact hp
  · trivial
  · exact proper_again h
  · trivial

theorem Proper.permits (h : u.Proper db documents) : db.Permits documents (Task.call u) := by
  obtain ⟨table, key, modifier, attempts, stage⟩ := u
  cases stage with
  | reading => trivial
  | modifying current => trivial
  | writing write => exact (h.writing write rfl).permits

theorem proper_step (listable : Bucket.Listable documents) (orderly : db.Orderly documents)
    (h : u.Proper db documents) :
    (Task.resume u (db.perform (Task.call u) fault).1).Satisfies
      (fun t => t.Proper db documents) fun _ => True := by
  obtain ⟨table, key, modifier, attempts, stage⟩ := u
  cases stage with
  | reading =>
      generalize (db.perform _ fault).1 = reply
      match reply with
      | .document (.error e) => trivial
      | .document (.ok none) => trivial
      | .document (.ok (some stored)) =>
          simp only [Task.resume]
          split
          · exact ⟨h.stored, h.listed, fun _ same => nomatch same⟩
          · trivial
      | .counter _ | .done _ | .cursor _ | .indexes _ | .index _ | .table _ => exact h
  | modifying current =>
      generalize (db.perform _ fault).1 = reply
      match reply with
      | .done _ =>
          simp only [Task.resume]
          split
          · exact proper_written h (DocumentWrite.proper_start h.stored h.listed _ _)
          · trivial
      | .document _ | .counter _ | .cursor _ | .indexes _ | .index _ | .table _ => exact h
  | writing write =>
      exact proper_written h
        (DocumentWrite.proper_step listable orderly (h.writing write rfl))

end DocumentUpdate

/-! ### All operations -/

/-- An operation on a table that makes nothing else than proper changes. -/
def TableTask.Proper (db : Database) (documents : Set String) : TableTask → Prop
  | .document (.reading _) => True
  | .document (.writing task) => task.Proper db documents
  | .document (.deleting task) => task.Proper db documents
  | .document (.updating task) => task.Proper db documents
  | .creating task => task.Proper db documents
  | .dropping _ => True

namespace TableTask

variable {task : TableTask}

theorem Proper.mono (h : task.Proper db documents) (evolves : db.Evolves documents after) :
    task.Proper after documents := by
  match task, h with
  | .document (.reading _), _ => trivial
  | .document (.writing _), h => exact DocumentWrite.Proper.mono h evolves
  | .document (.deleting _), h => exact DocumentDelete.Proper.mono h evolves
  | .document (.updating _), h => exact DocumentUpdate.Proper.mono h evolves
  | .creating _, h => exact IndexCreation.Proper.mono h evolves
  | .dropping _, _ => trivial

/-- An operation on a table that has documents begins properly. -/
theorem proper_start {table : Table} (stored : db.HasDocuments table.documents)
    {request : TableRequest} (names : request.Names documents) :
    (request.start table).Satisfies (fun t => t.Proper db documents) fun _ => True := by
  match request with
  | .document (.get key shape) => exact trivial
  | .document (.set key value) =>
      have started := DocumentWrite.proper_start stored (names key rfl) value none
      exact Progress.satisfies_map.2 (Progress.satisfies_map.2 started)
  | .document (.setIf key value expected) =>
      have started := DocumentWrite.proper_start stored (names key rfl) value (some expected)
      exact Progress.satisfies_map.2 (Progress.satisfies_map.2 started)
  | .document (.delete key) =>
      exact Progress.satisfies_map.2 (Progress.satisfies_map.2
        (DocumentDelete.proper_again (names key rfl)))
  | .document (.deleteIf key expected) =>
      exact Progress.satisfies_map.2 (Progress.satisfies_map.2
        (DocumentDelete.proper_again (names key rfl)))
  | .document (.update key modifier) =>
      exact Progress.satisfies_map.2 (Progress.satisfies_map.2
        (DocumentUpdate.proper_again ⟨stored, names key rfl, fun _ same => nomatch same⟩))
  | .createIndex name path =>
      refine Progress.satisfies_map.2 ?_
      unfold Table.createIndex IndexCreation.start
      split
      · trivial
      · split
        · trivial
        · exact ⟨stored, (fun _ same => nomatch same), fun _ _ same => nomatch same⟩
  | .dropIndex name => exact trivial

/-- An operation on a table makes permitted calls only. -/
theorem permits (h : task.Proper db documents) : db.Permits documents (Task.call task) := by
  match task, h with
  | .document (.reading _), _ => trivial
  | .document (.writing _), h => exact DocumentWrite.Proper.permits h
  | .document (.deleting _), h => exact DocumentDelete.Proper.permits h
  | .document (.updating _), h => exact DocumentUpdate.Proper.permits h
  | .creating _, h => exact IndexCreation.Proper.permits h
  | .dropping ⟨_, _, .unregistering⟩, _ => trivial
  | .dropping ⟨_, _, .dropping⟩, _ => trivial

/-- An operation on a table stays proper, whatever becomes of its call. -/
theorem proper_step (listable : Bucket.Listable documents) (orderly : db.Orderly documents)
    (h : task.Proper db documents) :
    (Task.resume task (db.perform (Task.call task) fault).1).Satisfies
      (fun t => t.Proper (db.perform (Task.call task) fault).2 documents) fun _ => True := by
  -- what is proper before the call is so after it, because stores keep their kind
  have evolves := Database.evolves_perform orderly.consistent (permits h) fault
  match task, h with
  | .document (.reading _), _ =>
      exact Progress.satisfies_map.2 (Progress.satisfies_map.2 (Progress.satisfies_true _))
  | .document (.writing _), h =>
      have kept := @DocumentWrite.proper_step db documents fault _ listable orderly h
      exact Progress.satisfies_map.2 (Progress.satisfies_map.2
        (kept.imp (fun _ ht => ht.mono evolves) fun _ _ => trivial))
  | .document (.deleting _), h =>
      have kept := @DocumentDelete.proper_step db documents fault _ listable orderly h
      exact Progress.satisfies_map.2 (Progress.satisfies_map.2
        (kept.imp (fun _ ht => ht.mono evolves) fun _ _ => trivial))
  | .document (.updating _), h =>
      have kept := @DocumentUpdate.proper_step db documents fault _ listable orderly h
      exact Progress.satisfies_map.2 (Progress.satisfies_map.2
        (kept.imp (fun _ ht => ht.mono evolves) fun _ _ => trivial))
  | .creating _, h =>
      exact Progress.satisfies_map.2 (IndexCreation.proper_step listable orderly h)
  | .dropping _, _ => exact Progress.satisfies_map.2 (Progress.satisfies_true _)

end TableTask

/-- An operation that makes nothing else than proper changes. -/
def DatabaseTask.Proper (db : Database) (documents : Set String) : DatabaseTask → Prop
  | .table task => task.Proper db documents
  | _ => True

/-- A table that was made has a store of documents. -/
def DatabaseOutcome.Proper (db : Database) (outcome : DatabaseOutcome) : Prop :=
  ∀ table, outcome = .created (.ok table) → db.HasDocuments table.documents

namespace DatabaseTask

variable {task : DatabaseTask}

theorem Proper.mono (h : task.Proper db documents) (evolves : db.Evolves documents after) :
    task.Proper after documents := by
  match task, h with
  | .creating _, _ => trivial
  | .dropping _, _ => trivial
  | .table _, h => exact TableTask.Proper.mono h evolves
  | .query _, _ => trivial

/-- **An operation makes permitted calls only.** -/
theorem permits (h : task.Proper db documents) : db.Permits documents (Task.call task) := by
  match task, h with
  | .creating _, _ => trivial
  | .dropping ⟨_, .unregistering⟩, _ => trivial
  | .dropping ⟨_, .taking _⟩, _ => trivial
  | .dropping ⟨_, .dropping _ _⟩, _ => trivial
  | .table _, h => exact TableTask.permits h
  | .query task, _ => exact Database.permits_of_reads task.call_reads

/-- **An operation stays proper**, whatever becomes of its call. -/
theorem proper_step (listable : Bucket.Listable documents) (orderly : db.Orderly documents)
    (h : task.Proper db documents) :
    (Task.resume task (db.perform (Task.call task) fault).1).Satisfies
      (fun t => t.Proper (db.perform (Task.call task) fault).2 documents)
      fun a => a.Proper (db.perform (Task.call task) fault).2 := by
  match task, h with
  | .creating creation, _ =>
      refine Progress.satisfies_map.2 ?_
      simp only [Task.call, Task.resume]
      split
      · rename_i result registered
        intro table made
        obtain rfl : result = .ok table := DatabaseOutcome.created.inj made
        exact orderly.hasDocuments_of_registerTable registered
      · trivial
  | .dropping _, _ =>
      exact Progress.satisfies_map.2
        ((Progress.satisfies_true _).imp (fun _ h => h) fun _ _ _ same => nomatch same)
  | .table _, h =>
      exact Progress.satisfies_map.2
        ((TableTask.proper_step listable orderly h).imp (fun _ h => h)
          fun _ _ _ same => nomatch same)
  | .query _, _ =>
      exact Progress.satisfies_map.2
        ((Progress.satisfies_true _).imp (fun _ h => h) fun _ _ _ same => nomatch same)

end DatabaseTask

/-! ### Runs -/

/-- The table that was made, if a creation has returned one. -/
def Event.table? : Event DatabaseRequest DatabaseOutcome → Option Table
  | .returned _ (.created (.ok table)) => some table
  | _ => none

/-- A table that can be asked for something: its creation has returned it, or it is in the
catalog. -/
def System.Offers (s : System DatabaseRequest DatabaseTask DatabaseOutcome) (table : Table) :
    Prop :=
  table ∈ s.history.filterMap Event.table? ∨ table ∈ s.db.catalog.entries.map (·.2)

/-- Everything that can be asked of a database on some documents, with any faults, while anything
else happens to it except that somebody writes buckets. -/
def Database.apiRules (documents : Set String) :
    Rules DatabaseRequest DatabaseTask DatabaseOutcome where
  start _ request := request.start
  admits s
    | .table table request => s.Offers table ∧ request.Names documents
    | _ => True
  faults _ _ _ := True
  outside := Database.Elsewhere documents

instance (s : System DatabaseRequest DatabaseTask DatabaseOutcome) (table : Table) :
    Decidable (s.Offers table) :=
  inferInstanceAs (Decidable (_ ∈ _ ∨ _ ∈ _))

instance (documents : Set String) [DecidablePred (· ∈ documents)]
    (s : System DatabaseRequest DatabaseTask DatabaseOutcome) :
    (request : DatabaseRequest) → Decidable ((Database.apiRules documents).admits s request)
  | .table table request =>
      inferInstanceAs (Decidable (s.Offers table ∧ request.Names documents))
  | .createTable _ | .dropTable _ | .query _ => inferInstanceAs (Decidable True)

instance (documents : Set String) (db : Database) (call : Call) (fault : Option Error) :
    Decidable ((Database.apiRules documents).faults db call fault) :=
  inferInstanceAs (Decidable True)

variable {config : Config} {s : System DatabaseRequest DatabaseTask DatabaseOutcome}

/-- **In every state the database is in order**, and operations under way are proper. -/
theorem Run.orderly (listable : Bucket.Listable documents)
    (run : Run (Database.apiRules documents) (.empty config) s) :
    s.Keeps (fun db => db.Orderly documents) (fun db _ task => task.Proper db documents)
      fun db _ outcome => outcome.Proper db := by
  refine run.keeps (Database.orderly_empty config documents) ?_ ?_ ?_
  · intro s request kept admitted
    cases request with
    | createTable name =>
        refine Progress.satisfies_map.2 ?_
        unfold createTable
        split
        · trivial
        · exact fun _ same => nomatch same
    | dropTable name => exact trivial
    | table table request =>
        obtain ⟨offers, names⟩ := admitted
        -- the handle was returned by a creation, or it is in the catalog
        have stored : s.db.HasDocuments table.documents := by
          rcases offers with made | found
          · obtain ⟨event, returned, he⟩ := List.mem_filterMap.1 made
            unfold Event.table? at he
            split at he
            · obtain rfl := Option.some.inj he
              obtain ⟨_, -, proper⟩ := kept.returned _ _ returned
              exact proper _ rfl
            · cases he
          · obtain ⟨⟨name, _⟩, entry, rfl⟩ := List.mem_map.1 found
            exact kept.base.catalog name _ (SortedMap.find?_eq_some_iff.2 entry)
        exact Progress.satisfies_map.2 ((TableTask.proper_start stored names).imp (fun _ h => h)
          fun _ _ _ same => nomatch same)
    | query asked =>
        exact Progress.satisfies_map.2
          ((Progress.satisfies_true _).imp (fun _ h => h) fun _ _ _ same => nomatch same)
  · intro db request task fault _ orderly proper
    have permits := DatabaseTask.permits proper
    have evolves := Database.evolves_perform orderly.consistent permits fault
    exact ⟨orderly.perform permits fault, DatabaseTask.proper_step listable orderly proper,
      fun _ _ h => h.mono evolves, fun _ _ h table made => evolves.hasDocuments (h table made)⟩
  · intro db after elsewhere orderly
    obtain ⟨evolves, -⟩ := Database.evolves_elsewhere orderly.consistent elsewhere
    exact ⟨orderly.elsewhere elsewhere, fun _ _ h => h.mono evolves,
      fun _ _ h table made => evolves.hasDocuments (h table made)⟩

/-- **Every bucket of every index is a list, not empty and without repetition.**  The buckets of an
index are in the store of its keyspace and of its handle, if it is registered; they stay in the
store of a handle that was kept after the index was dropped. -/
theorem buckets_isList (listable : Bucket.Listable documents)
    (run : Run (Database.apiRules documents) (.empty config) s) :
    (∀ table index id, s.db.backend.find? (Name.buckets table index) = some id →
        s.db.HasBuckets id) ∧
      (∀ table name index, (s.db.indexesOf table).find? name = some index →
        s.db.HasBuckets index.buckets) ∧
      ∀ id, s.db.HasBuckets id → ∀ key stored, (s.db.backend.store id).get? key = some stored →
        ∃ list, Bucket.decode? stored.value = some list ∧ list ≠ [] ∧ list.Nodup := by
  have orderly := (run.orderly listable).base
  refine ⟨fun table index id found => ⟨table, index, orderly.consistent _ id found⟩,
    orderly.registered, fun id hb key stored live => ?_⟩
  obtain ⟨list, decoded, ne, nodup, -⟩ := (orderly.values id key stored live).1 hb
  exact ⟨list, decoded, ne, nodup⟩

/-- Two writers of one bucket, of which the second gives up: it loses its first attempt to the first
writer, and its last one to a mismatch that nobody caused.  The index is there although its
creation failed. -/
theorem buckets_isList_of_faults :
    Bucket.Listable {"x", "y"} ∧
      ∃ s, Run (Database.apiRules {"x", "y"}) (.empty ⟨⟨some 2, 0, 0⟩⟩) s ∧
        ∃ id stored list, s.db.backend.find? (Name.buckets "t" "i") = some id ∧
          (s.db.backend.store id).get? [1, 1] = some stored ∧
          Bucket.decode? stored.value = some list ∧ list ≠ [] ∧ list.Nodup := by
  have listable : Bucket.Listable {"x", "y"} := Bucket.listable_pair (by decide) (by decide)
  let table : Table := ⟨0, "t", 0, ⟨some 2, 0, 0⟩⟩
  let document : Value := .map [(.string "n", .bool true)]
  have played : (((System.initial (Database.empty ⟨⟨some 2, 0, 0⟩⟩)).play?
      (Database.apiRules {"x", "y"})
      [.invoke (.createTable "t"), .advance 0 none, .invoke (.table table (.createIndex "i" "n")),
        .advance 2 none, .advance 2 (some (.storage "lost")),
        .invoke (.table table (.document (.set "x" document))),
        .invoke (.table table (.document (.set "y" document))),
        .advance 4 none, .advance 4 none, .advance 4 none, .advance 4 none, .advance 5 none,
        .advance 5 none, .advance 5 none, .advance 5 none, .advance 4 none, .advance 5 none,
        .advance 5 none, .advance 5 (some .swapMismatch)]).any
      fun s => (s.db.backend.find? (Name.buckets "t" "i")).any fun id =>
        ((s.db.backend.store id).get? [1, 1]).isSome) = true := by
    decide +kernel
  obtain ⟨s, run, hs⟩ := Run.exists_of_play? played
  obtain ⟨id, found, live⟩ := (Option.any_eq_true _ _).1 hs
  obtain ⟨stored, live⟩ := Option.isSome_iff_exists.1 live
  obtain ⟨named, -, lists⟩ := buckets_isList listable run
  obtain ⟨list, decoded, ne, nodup⟩ := lists id (named "t" "i" id found) [1, 1] stored live
  exact ⟨listable, s, run, id, stored, list, found, live, decoded, ne, nodup⟩

end DocStore
