/-
Documents are written, and the indexes follow.

Once a document is written, the memberships that this ends or begins are repaired by the operation
that has written it, until it has brought the indexes in line.  Calls may fail and attempts may be
limited; what an operation gives up then, it gives up while it brings the indexes in line.

* `Database.Tended.mends_document` — a write of a document touches the memberships for which its
  old and its new bytes differ;
* `DocumentWrite.Sound`, `DocumentDelete.Sound`, `DocumentUpdate.Sound`, and their `Repairs` and
  `GivesUp` — what an operation relies on, the memberships that it makes right, and those that it
  gives up at a reply;
* `DocumentWrite.mends`, `DocumentDelete.mends`, `DocumentUpdate.mends` — **every call of an
  operation on a document mends all memberships but those that it makes it give up.**
-/

import DocStore.Proofs.Documents.Plans
import DocStore.Proofs.Index.Mending
import DocStore.Proofs.Run.Requests
import DocStore.Proofs.Text.Lossy

set_option autoImplicit false

namespace DocStore

variable {db after : Database} {table : Table} {documents : Set String} {m : Membership}
  {key : String} {kind : Bucket.Change} {fault : Option Error}

/-! ### Writing a document -/

/-- **A write of a document touches the memberships for which its old and its new bytes differ.** -/
theorem Database.Tended.mends_document (tended : db.Tended table documents)
    (kind : Bucket.Change) (listed : key ∈ documents) {write : SlotWrite}
    (room : db.HasRoom (write.call table.documents (Utf8.encode key)))
    (accepts : write.Accepts ((db.backend.store table.documents).get? (Utf8.encode key)))
    {old new : Bytes}
    (ho : ((db.backend.store table.documents).get? (Utf8.encode key)).elim [] Versioned.value = old)
    (hn : write.value?.getD [] = new) :
    db.Mends table documents kind (fun _ => False)
      (db.perform (write.call table.documents (Utf8.encode key)) none).2 fun m =>
        m.document = key ∧
          ¬ (m.index.path.Yields old m.indexKey ↔ m.index.path.Yields new m.indexKey) := by
  obtain ⟨kept, writes⟩ := tended.perform_document listed accepts
  refine ⟨kept, extends_perform table (write.call_isAccess _ _) room, fun m hm => ?_⟩
  -- a membership of another document, or for which the bytes do not differ, is wanted as before
  by_cases differs : m.document = key ∧
    ¬ (m.index.path.Yields old m.indexKey ↔ m.index.path.Yields new m.indexKey)
  · exact Or.inl differs
  · rw [writes.registered] at hm
    refine Or.inr (Or.inr ⟨⟨hm, ?_, ?_⟩, id⟩)
    · rw [Membership.Filed, Membership.Filed, writes.buckets m.index hm]
    · rw [writes.wanted_iff tended.arranged hm]
      by_cases same : m.document = key
      · rw [if_pos same, Membership.Wanted, Membership.wanted_iff_elim,
          hm.documents tended.arranged, same, ho, hn]
        exact (not_not.1 fun h => differs ⟨same, h⟩).symm
      · rw [if_neg same]

/-! ### Indexes in line with one document -/

namespace IndexSync

/-- The upkeep of the indexes for one document. -/
def SoundFor (db : Database) (table : Table) (documents : Set String) (key : String)
    (sync : IndexSync) : Prop :=
  sync.Sound db table documents ∧ sync.document = key ∧
    sync.Concerns (fun m => m.document = key) fun _ => True

variable {sync : IndexSync}

theorem SoundFor.mono (h : sync.SoundFor db table documents key) (later : db.Extends table after) :
    sync.SoundFor after table documents key :=
  ⟨h.1.mono later, h.2⟩

theorem Repairs.document (h : sync.Repairs db m) (sound : sync.SoundFor db table documents key) :
    m.document = key :=
  h.of_concerns sound.2.2 fun own => own.trans sound.2.1

theorem soundFor_start (listed : key ∈ documents) {old new : Bytes} {written : Option Counter}
    (stored : Stored db table key written new) :
    (start table key old new written).SoundFor db table documents key :=
  ⟨⟨rfl, listed, stored⟩, rfl, trivial⟩

/-- Every call mends, and the upkeep stays with its document. -/
theorem mends_for (listable : Bucket.Listable documents)
    (tries : table.retry.maxAttempts ≠ some 0) (tended : db.Tended table documents)
    (h : sync.SoundFor db table documents key)
    (room : fault = none → db.HasRoom (Task.call sync)) :
    let performed := db.perform (Task.call sync) fault
    let progress := Task.resume sync performed.1
    progress.Satisfies (fun t => t.SoundFor performed.2 table documents key) (fun _ => True) ∧
      db.Mends table documents kind (sync.Repairs db) performed.2 fun m =>
        progress.Waits (fun t => t.Repairs performed.2 m) ∨
          sync.GivesUp kind performed.1 m ∧ table.MayGiveUp fault := by
  intro performed progress
  obtain ⟨sound, document, concerns⟩ := h
  obtain ⟨kept, mends⟩ := IndexSync.mends listable tries tended sound room
  have own := concerns_resume concerns performed.1 (fun _ _ _ _ _ _ _ _ => document)
    (fun _ _ _ => trivial) fun _ _ _ _ => Progress.satisfies_true _
  refine ⟨(kept.and own).imp ?_ fun _ _ => trivial, mends⟩
  rintro t ⟨ht, hc, -, same, -⟩
  exact ⟨ht, same.trans document, hc⟩

end IndexSync

/-! ### Writing -/

namespace DocumentWrite

/-- A write that has made an attempt; what it has planned is for what it has read. -/
def Sound (db : Database) (table : Table) (documents : Set String) (w : DocumentWrite) : Prop :=
  w.table = table ∧ w.key ∈ documents ∧ table.retry.maxAttempts ≠ some 0 ∧
    match w.stage with
    | .reading => True
    | .writing old write => ∃ stored, w.plan stored = .ok (old, write) ∧ ∀ v, stored = some v →
        (db.backend.store table.documents).Recalls (Utf8.encode w.key) v
    | .syncing _ sync => sync.SoundFor db table documents w.key

/-- Once the document is written, the memberships that this has ended or begun. -/
def Repairs (db : Database) (w : DocumentWrite) (m : Membership) : Prop :=
  match w.stage with
  | .syncing _ sync => sync.Repairs db m
  | _ => False

/-- Once the document is written, what the upkeep of the indexes gives up at a reply. -/
def GivesUp (kind : Bucket.Change) (reply : Reply) (w : DocumentWrite) (m : Membership) : Prop :=
  match w.stage with
  | .syncing _ sync => sync.GivesUp kind reply m
  | _ => False

variable {w : DocumentWrite}

theorem Sound.mono (h : w.Sound db table documents) (later : db.Extends table after) :
    w.Sound after table documents := by
  obtain ⟨ofTable, listed, tries, h⟩ := h
  refine ⟨ofTable, listed, tries, ?_⟩
  obtain ⟨_, key, data, expected, attempts, stage⟩ := w
  cases stage with
  | reading => trivial
  | writing old write =>
      obtain ⟨stored, hp, hr⟩ := h
      exact ⟨stored, hp, fun v hv => later.recalls _ _ _ (hr v hv)⟩
  | syncing counter sync => exact IndexSync.SoundFor.mono h later

theorem Repairs.mono (h : w.Repairs db m) (later : db.Extends table after)
    (filed : m.Filed after → m.Filed db) : w.Repairs after m := by
  obtain ⟨_, key, data, expected, attempts, stage⟩ := w
  cases stage with
  | reading => exact h
  | writing old write => exact h
  | syncing counter sync => exact IndexSync.Repairs.mono h later filed

theorem Repairs.document (h : w.Repairs db m) (sound : w.Sound db table documents) :
    m.document = w.key := by
  obtain ⟨_, key, data, expected, attempts, stage⟩ := w
  cases stage with
  | reading => exact h.elim
  | writing old write => exact h.elim
  | syncing counter sync => exact IndexSync.Repairs.document h sound.2.2.2

theorem sound_again (ofTable : w.table = table) (listed : w.key ∈ documents)
    (tries : table.retry.maxAttempts ≠ some 0) :
    w.again.Satisfies (fun t => t.Sound db table documents ∧ t.key = w.key) fun _ => True := by
  unfold again
  split
  · exact ⟨⟨ofTable, listed, tries, trivial⟩, rfl⟩
  · trivial

theorem sound_start (listed : key ∈ documents) (value : Value) (expected : Option Counter) :
    (start table key value expected).Satisfies (fun t => t.Sound db table documents ∧ t.key = key)
      fun _ => True := by
  unfold start
  split
  · by_cases tries : table.retry.maxAttempts = some 0
    · obtain ⟨e, failed⟩ := RetryPolicy.begin_attempts_eq_error tries (Utf8.encode key)
      unfold again
      rw [failed]
      trivial
    · exact sound_again rfl listed tries
  · trivial

/-- A conditional write that does not go through fails the operation, or starts it over. -/
theorem sound_failed (h : w.Sound db table documents) {old : Bytes} {write : SlotWrite}
    (writing : w.stage = .writing old write) (e : Error) :
    (Task.resume w (.counter (.error e))).Satisfies
      (fun t => t.Sound db table documents ∧ t.key = w.key) fun _ => True := by
  obtain ⟨ofTable, listed, tries, -⟩ := h
  rcases resume_failed writing e with ⟨e', failed⟩ | again
  · rw [failed]
    trivial
  · rw [again]
    exact sound_again ofTable listed tries

/-- The conditional write goes through, and the repair of the indexes begins; or it does not, and
the operation starts over or has failed. -/
theorem mends_writing (tended : db.Tended table documents) (h : w.Sound db table documents)
    {old : Bytes} {write : SlotWrite} (writing : w.stage = .writing old write)
    (room : fault = none → db.HasRoom (Task.call w)) {given : Membership → Prop} :
    let performed := db.perform (Task.call w) fault
    let progress := Task.resume w performed.1
    progress.Satisfies (fun t => t.Sound performed.2 table documents ∧ t.key = w.key)
        (fun _ => True) ∧
      db.Mends table documents kind (w.Repairs db) performed.2 fun m =>
        progress.Waits (fun t => t.Repairs performed.2 m) ∨ given m := by
  intro performed progress
  have sound := h
  obtain ⟨rfl, listed, tries, h⟩ := h
  obtain ⟨table, key, data, expected, attempts, stage⟩ := w
  obtain rfl : stage = .writing old write := writing
  obtain ⟨stored, hp, hr⟩ := h
  obtain ⟨replies, value, -⟩ := write_of_plan hp
  -- a write that does not go through changes nothing, and leaves nothing to repair
  have lost : ∀ e, performed = (write.reply (.error e), db) →
      progress.Satisfies (fun t => t.Sound performed.2 table documents ∧ t.key = key)
          (fun _ => True) ∧
        db.Mends table documents kind (fun _ => False) performed.2 fun m =>
          progress.Waits (fun t => t.Repairs performed.2 m) ∨ given m := by
    intro e failed
    have gone : progress = Task.resume
        (⟨table, key, data, expected, attempts, .writing old write⟩ : DocumentWrite)
        (.counter (.error e)) := by
      rw [← replies, show write.reply (.error e) = performed.1 from congrArg Prod.fst failed.symm]
    rw [gone, show performed.2 = db from congrArg Prod.snd failed]
    exact ⟨sound_failed sound rfl e, tended.mends_none⟩
  cases fault with
  | some e => exact lost e (db.perform_write_some write table.documents (Utf8.encode key) e)
  | none =>
      by_cases accepts : write.Accepts
          ((db.backend.store table.documents).get? (Utf8.encode key))
      · obtain ⟨found, ho⟩ := get?_of_plan hp hr accepts
        have mends := tended.mends_document kind listed (room rfl) accepts (found ▸ ho.symm)
          (show write.value?.getD [] = data by rw [value]; rfl)
        -- the upkeep relies on the document being what has just been written
        have written : (performed.2.backend.store table.documents).get? (Utf8.encode key)
            = some ⟨data, (db.backend.store table.documents).next (Utf8.encode key)⟩ := by
          rw [show performed.2.backend.store table.documents = _ from
            db.store_perform_write accepts tended.arranged.stored, Store.get?_applied, if_pos rfl,
            value]
          rfl
        have gone : progress = Task.resume
            (⟨table, key, data, expected, attempts, .writing old write⟩ : DocumentWrite)
            (db.perform (write.call table.documents (Utf8.encode key)) none).1 := rfl
        rw [gone, db.perform_write accepts, replies]
        refine ⟨⟨⟨rfl, listed, tries, IndexSync.soundFor_start listed
          ⟨some ⟨data, _⟩, rfl, ?_, rfl⟩⟩, rfl⟩, mends.imp (fun _ no => no) fun _ h => Or.inl h⟩
        intro v hv
        exact Store.recalls_of_get? (written.trans hv)
      · exact lost .swapMismatch (db.perform_write_of_not accepts)

/-- **Every call of a write mends all memberships but those that it makes it give up.** -/
theorem mends (listable : Bucket.Listable documents) (tended : db.Tended table documents)
    (h : w.Sound db table documents) (room : fault = none → db.HasRoom (Task.call w)) :
    let performed := db.perform (Task.call w) fault
    let progress := Task.resume w performed.1
    progress.Satisfies (fun t => t.Sound performed.2 table documents ∧ t.key = w.key)
        (fun _ => True) ∧
      db.Mends table documents kind (w.Repairs db) performed.2 fun m =>
        progress.Waits (fun t => t.Repairs performed.2 m) ∨
          w.GivesUp kind performed.1 m ∧ table.MayGiveUp fault := by
  cases hw : w.stage with
  | writing old write => exact mends_writing tended h hw room
  | reading =>
      intro performed progress
      obtain ⟨rfl, listed, tries, -⟩ := h
      obtain ⟨table, key, data, expected, attempts, stage⟩ := w
      obtain rfl : stage = .reading := hw
      cases fault with
      | some e => exact ⟨trivial, tended.mends_none⟩
      | none =>
          have read : progress = Task.resume
              (⟨table, key, data, expected, attempts, .reading⟩ : DocumentWrite)
              (.document (.ok ((db.backend.store table.documents).get? (Utf8.encode key)))) := rfl
          cases hp : plan ⟨table, key, data, expected, attempts, .reading⟩
            ((db.backend.store table.documents).get? (Utf8.encode key)) with
          | ok planned =>
              obtain ⟨old, write⟩ := planned
              rw [read, resume_of_plan rfl hp]
              exact ⟨⟨⟨rfl, listed, tries, _, hp, fun v hv => Store.recalls_of_get? hv⟩, rfl⟩,
                tended.mends_none⟩
          | error e =>
              rw [read, resume_of_plan_eq_error rfl hp]
              exact ⟨trivial, tended.mends_none⟩
  | syncing counter sync =>
      obtain ⟨rfl, listed, tries, h⟩ := h
      obtain ⟨table, key, data, expected, attempts, stage⟩ := w
      obtain rfl : stage = .syncing counter sync := hw
      obtain ⟨sound, mends⟩ := IndexSync.mends_for listable tries tended h room
      exact Database.mends_map _ _ sound mends
        (fun _ h => ⟨⟨rfl, listed, tries, h⟩, rfl⟩) (fun _ _ => trivial) fun _ _ h => h

end DocumentWrite

/-! ### Deleting -/

namespace DocumentDelete

/-- A deletion that has made an attempt; it deletes what it has read. -/
def Sound (db : Database) (table : Table) (documents : Set String) (d : DocumentDelete) : Prop :=
  d.table = table ∧ d.key ∈ documents ∧ table.retry.maxAttempts ≠ some 0 ∧
    match d.stage with
    | .reading => True
    | .erasing old counter =>
        (db.backend.store table.documents).Recalls (Utf8.encode d.key) ⟨old, counter⟩
    | .syncing sync => sync.SoundFor db table documents d.key

/-- Once the document is deleted, the memberships that this has ended. -/
def Repairs (db : Database) (d : DocumentDelete) (m : Membership) : Prop :=
  match d.stage with
  | .syncing sync => sync.Repairs db m
  | _ => False

/-- Once the document is deleted, what the upkeep of the indexes gives up at a reply. -/
def GivesUp (kind : Bucket.Change) (reply : Reply) (d : DocumentDelete) (m : Membership) : Prop :=
  match d.stage with
  | .syncing sync => sync.GivesUp kind reply m
  | _ => False

variable {d : DocumentDelete}

theorem Sound.mono (h : d.Sound db table documents) (later : db.Extends table after) :
    d.Sound after table documents := by
  obtain ⟨ofTable, listed, tries, h⟩ := h
  refine ⟨ofTable, listed, tries, ?_⟩
  obtain ⟨_, key, expected, attempts, stage⟩ := d
  cases stage with
  | reading => trivial
  | erasing old counter => exact later.recalls _ _ _ h
  | syncing sync => exact IndexSync.SoundFor.mono h later

theorem Repairs.mono (h : d.Repairs db m) (later : db.Extends table after)
    (filed : m.Filed after → m.Filed db) : d.Repairs after m := by
  obtain ⟨_, key, expected, attempts, stage⟩ := d
  cases stage with
  | reading => exact h
  | erasing old counter => exact h
  | syncing sync => exact IndexSync.Repairs.mono h later filed

theorem Repairs.document (h : d.Repairs db m) (sound : d.Sound db table documents) :
    m.document = d.key := by
  obtain ⟨_, key, expected, attempts, stage⟩ := d
  cases stage with
  | reading => exact h.elim
  | erasing old counter => exact h.elim
  | syncing sync => exact IndexSync.Repairs.document h sound.2.2.2

theorem sound_again (ofTable : d.table = table) (listed : d.key ∈ documents)
    (tries : table.retry.maxAttempts ≠ some 0) :
    d.again.Satisfies (fun t => t.Sound db table documents ∧ t.key = d.key) fun _ => True := by
  unfold again
  split
  · exact ⟨⟨ofTable, listed, tries, trivial⟩, rfl⟩
  · trivial

theorem sound_start (listed : key ∈ documents) (expected : Option Counter) :
    (start table key expected).Satisfies (fun t => t.Sound db table documents ∧ t.key = key)
      fun _ => True := by
  unfold start
  by_cases tries : table.retry.maxAttempts = some 0
  · obtain ⟨e, failed⟩ := RetryPolicy.begin_attempts_eq_error tries (Utf8.encode key)
    unfold again
    rw [failed]
    trivial
  · exact sound_again rfl listed tries

/-- A conditional deletion that does not go through fails the operation, or starts it over. -/
theorem sound_failed (h : d.Sound db table documents) {old : Bytes} {counter : Counter}
    (erasing : d.stage = .erasing old counter) (e : Error) :
    (Task.resume d (.done (.error e))).Satisfies
      (fun t => t.Sound db table documents ∧ t.key = d.key) fun _ => True := by
  obtain ⟨ofTable, listed, tries, -⟩ := h
  rcases resume_failed erasing e with ⟨e', failed⟩ | again
  · rw [failed]
    trivial
  · rw [again]
    exact sound_again ofTable listed tries

/-- The document that was read is deleted, and the repair of the indexes begins; or it has been
written in between, and the operation starts over or has failed. -/
theorem mends_erasing (tended : db.Tended table documents) (h : d.Sound db table documents)
    {old : Bytes} {counter : Counter} (erasing : d.stage = .erasing old counter)
    (room : fault = none → db.HasRoom (Task.call d)) {given : Membership → Prop} :
    let performed := db.perform (Task.call d) fault
    let progress := Task.resume d performed.1
    progress.Satisfies (fun t => t.Sound performed.2 table documents ∧ t.key = d.key)
        (fun _ => True) ∧
      db.Mends table documents kind (d.Repairs db) performed.2 fun m =>
        progress.Waits (fun t => t.Repairs performed.2 m) ∨ given m := by
  intro performed progress
  have sound := h
  obtain ⟨rfl, listed, tries, h⟩ := h
  obtain ⟨table, key, expected, attempts, stage⟩ := d
  obtain rfl : stage = .erasing old counter := erasing
  -- a deletion that does not go through changes nothing, and leaves nothing to repair
  have lost : ∀ e, performed = (.done (.error e), db) →
      progress.Satisfies (fun t => t.Sound performed.2 table documents ∧ t.key = key)
          (fun _ => True) ∧
        db.Mends table documents kind (fun _ => False) performed.2 fun m =>
          progress.Waits (fun t => t.Repairs performed.2 m) ∨ given m := by
    intro e failed
    have gone : progress = Task.resume
        (⟨table, key, expected, attempts, .erasing old counter⟩ : DocumentDelete)
        (.done (.error e)) := by
      rw [show Reply.done (.error e) = performed.1 from congrArg Prod.fst failed.symm]
    rw [gone, show performed.2 = db from congrArg Prod.snd failed]
    exact ⟨sound_failed sound rfl e, tended.mends_none⟩
  cases fault with
  | some e => exact lost e rfl
  | none =>
      by_cases accepts : SlotWrite.Accepts (.erase counter)
          ((db.backend.store table.documents).get? (Utf8.encode key))
      · have found := Store.Recalls.get?_eq h accepts
        have room : db.HasRoom
          (SlotWrite.call (.erase counter) table.documents (Utf8.encode key)) := room rfl
        have mends := tended.mends_document kind listed room accepts
          (show Option.elim _ [] Versioned.value = old by rw [found]; rfl) rfl
        have gone : progress = Task.resume
            (⟨table, key, expected, attempts, .erasing old counter⟩ : DocumentDelete)
            (db.perform (SlotWrite.call (.erase counter) table.documents (Utf8.encode key))
              none).1 := rfl
        rw [gone, db.perform_write accepts]
        exact ⟨⟨⟨rfl, listed, tries, IndexSync.soundFor_start listed ⟨none, rfl, nofun, rfl⟩⟩,
          rfl⟩, mends.imp (fun _ no => no) fun _ h => Or.inl h⟩
      · exact lost .swapMismatch (db.perform_write_of_not accepts)

/-- **Every call of a deletion mends all memberships but those that it makes it give up.** -/
theorem mends (listable : Bucket.Listable documents) (tended : db.Tended table documents)
    (h : d.Sound db table documents) (room : fault = none → db.HasRoom (Task.call d)) :
    let performed := db.perform (Task.call d) fault
    let progress := Task.resume d performed.1
    progress.Satisfies (fun t => t.Sound performed.2 table documents ∧ t.key = d.key)
        (fun _ => True) ∧
      db.Mends table documents kind (d.Repairs db) performed.2 fun m =>
        progress.Waits (fun t => t.Repairs performed.2 m) ∨
          d.GivesUp kind performed.1 m ∧ table.MayGiveUp fault := by
  cases hd : d.stage with
  | erasing old counter => exact mends_erasing tended h hd room
  | reading =>
      intro performed progress
      obtain ⟨rfl, listed, tries, -⟩ := h
      obtain ⟨table, key, expected, attempts, stage⟩ := d
      obtain rfl : stage = .reading := hd
      cases fault with
      | some e => exact ⟨trivial, tended.mends_none⟩
      | none =>
          have read : progress = Task.resume
              (⟨table, key, expected, attempts, .reading⟩ : DocumentDelete)
              (.document (.ok ((db.backend.store table.documents).get? (Utf8.encode key)))) := rfl
          cases hs : (db.backend.store table.documents).get? (Utf8.encode key) with
          | none =>
              rw [read, hs]
              exact ⟨trivial, tended.mends_none⟩
          | some stored =>
              rw [read, hs]
              rcases resume_found (d := ⟨table, key, expected, attempts, .reading⟩) rfl stored with
                ⟨c, -, -, failed⟩ | ⟨-, goes⟩
              · rw [failed]
                exact ⟨trivial, tended.mends_none⟩
              · rw [goes]
                exact ⟨⟨⟨rfl, listed, tries, Store.recalls_of_get? hs⟩, rfl⟩, tended.mends_none⟩
  | syncing sync =>
      obtain ⟨rfl, listed, tries, h⟩ := h
      obtain ⟨table, key, expected, attempts, stage⟩ := d
      obtain rfl : stage = .syncing sync := hd
      obtain ⟨sound, mends⟩ := IndexSync.mends_for listable tries tended h room
      exact Database.mends_map _ _ sound mends
        (fun _ h => ⟨⟨rfl, listed, tries, h⟩, rfl⟩) (fun _ _ => trivial) fun _ _ h => h

end DocumentDelete

/-! ### Updating -/

namespace DocumentUpdate

/-- An update, and the write that it waits for. -/
def Sound (db : Database) (table : Table) (documents : Set String) (u : DocumentUpdate) : Prop :=
  u.table = table ∧ u.key ∈ documents ∧
    ∀ write, u.stage = .writing write → write.Sound db table documents ∧ write.key = u.key

/-- What the write repairs. -/
def Repairs (db : Database) (u : DocumentUpdate) (m : Membership) : Prop :=
  match u.stage with
  | .writing write => write.Repairs db m
  | _ => False

/-- What the write gives up at a reply. -/
def GivesUp (kind : Bucket.Change) (reply : Reply) (u : DocumentUpdate) (m : Membership) : Prop :=
  match u.stage with
  | .writing write => write.GivesUp kind reply m
  | _ => False

variable {u : DocumentUpdate}

theorem Sound.mono (h : u.Sound db table documents) (later : db.Extends table after) :
    u.Sound after table documents :=
  ⟨h.1, h.2.1, fun write hw => (h.2.2 write hw).imp_left fun hs => hs.mono later⟩

theorem Repairs.mono (h : u.Repairs db m) (later : db.Extends table after)
    (filed : m.Filed after → m.Filed db) : u.Repairs after m := by
  obtain ⟨_, key, modifier, attempts, stage⟩ := u
  cases stage with
  | reading => exact h
  | modifying current => exact h
  | writing write => exact DocumentWrite.Repairs.mono h later filed

theorem Repairs.document (h : u.Repairs db m) (sound : u.Sound db table documents) :
    m.document = u.key := by
  obtain ⟨_, key, modifier, attempts, stage⟩ := u
  cases stage with
  | reading => exact h.elim
  | modifying current => exact h.elim
  | writing write =>
      obtain ⟨hw, same⟩ := sound.2.2 write rfl
      exact (DocumentWrite.Repairs.document h hw).trans same

theorem sound_again (ofTable : u.table = table) (listed : u.key ∈ documents) :
    u.again.Satisfies (fun t => t.Sound db table documents ∧ t.key = u.key) fun _ => True := by
  unfold again
  split
  · exact ⟨⟨ofTable, listed, by simp⟩, rfl⟩
  · trivial

/-- The update goes on with its write. -/
theorem mends_written (ofTable : u.table = table) (listed : u.key ∈ documents)
    {progress : Progress DocumentWrite (Except Error Counter)}
    (sound : progress.Satisfies (fun t => t.Sound after table documents ∧ t.key = u.key)
      fun _ => True) {repaired given : Membership → Prop}
    (h : db.Mends table documents kind repaired after fun m =>
      progress.Waits (fun t => t.Repairs after m) ∨ given m) :
    (u.written progress).Satisfies (fun t => t.Sound after table documents ∧ t.key = u.key)
        (fun _ => True) ∧
      db.Mends table documents kind repaired after fun m =>
        (u.written progress).Waits (fun t => t.Repairs after m) ∨ given m := by
  unfold written
  split
  · refine ⟨⟨⟨ofTable, listed, ?_⟩, rfl⟩, h⟩
    rintro _ ⟨⟩
    exact sound
  · exact ⟨trivial, h⟩
  · exact ⟨sound_again ofTable listed,
      h.imp (fun _ hr => hr) fun _ hm => Or.inr (hm.resolve_left id)⟩
  · exact ⟨trivial, h⟩

theorem sound_start (listed : key ∈ documents) (modifier : Modifier) :
    (start table key modifier).Satisfies (fun t => t.Sound db table documents ∧ t.key = key)
      fun _ => True :=
  Progress.Satisfies.imp (sound_again rfl listed) (fun _ h => h) fun _ h => h

/-- **Every call of an update mends all memberships but those that it makes it give up.** -/
theorem mends (listable : Bucket.Listable documents) (tended : db.Tended table documents)
    (h : u.Sound db table documents) (room : fault = none → db.HasRoom (Task.call u)) :
    let performed := db.perform (Task.call u) fault
    let progress := Task.resume u performed.1
    progress.Satisfies (fun t => t.Sound performed.2 table documents ∧ t.key = u.key)
        (fun _ => True) ∧
      db.Mends table documents kind (u.Repairs db) performed.2 fun m =>
        progress.Waits (fun t => t.Repairs performed.2 m) ∨
          u.GivesUp kind performed.1 m ∧ table.MayGiveUp fault := by
  intro performed progress
  obtain ⟨rfl, listed, h⟩ := h
  obtain ⟨table, key, modifier, attempts, stage⟩ := u
  cases stage with
  | reading =>
      cases fault with
      | some e => exact ⟨trivial, tended.mends_none⟩
      | none =>
          have read : progress = Task.resume
              (⟨table, key, modifier, attempts, .reading⟩ : DocumentUpdate)
              (.document (.ok ((db.backend.store table.documents).get? (Utf8.encode key)))) := rfl
          cases hs : (db.backend.store table.documents).get? (Utf8.encode key) with
          | none =>
              rw [read, hs]
              exact ⟨trivial, tended.mends_none⟩
          | some stored =>
              rw [read, hs]
              simp only [Task.resume]
              split
              · exact ⟨⟨⟨rfl, listed, by simp⟩, rfl⟩, tended.mends_none⟩
              · exact ⟨trivial, tended.mends_none⟩
  | modifying current =>
      have applied : performed = (.done (.ok ()), db) := by
        cases fault <;> rfl
      have gone : progress = Task.resume
          (⟨table, key, modifier, attempts, .modifying current⟩ : DocumentUpdate)
          performed.1 := rfl
      rw [gone, applied]
      simp only [Task.resume]
      split
      · rename_i value _
        exact mends_written rfl listed
          (DocumentWrite.sound_start listed value (some current.counter)) tended.mends_none
      · exact ⟨trivial, tended.mends_none⟩
  | writing write =>
      -- the memberships that the write repairs are those that the update repairs
      obtain ⟨hw, same⟩ := h write rfl
      obtain ⟨sound, mends⟩ := DocumentWrite.mends listable tended hw room
      exact mends_written rfl listed
        (sound.imp (fun t ht => ⟨ht.1, ht.2.trans same⟩) fun _ h => h) mends

end DocumentUpdate

end DocStore
