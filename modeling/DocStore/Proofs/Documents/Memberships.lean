/-
The memberships that an operation on a document is about.

An operation on a document works on the documents of its table and then brings the indexes of that
table in line.  So all that it writes is its document, or in buckets of indexes that it has found
registered with its table.

* `DocumentWrite.Concerns`, `DocumentDelete.Concerns`, `DocumentUpdate.Concerns`,
  `DocumentTask.Concerns` — the operation belongs to a table, and the memberships of the upkeep
  under way and the change of a bucket satisfy conditions;
* `DocumentRequest.concerns_start` — operations begin in this way;
* `DocumentTask.concerns_resume` — **the conditions are kept**, if the indexes that are registered
  with the table satisfy them;
* `DocumentTask.call_of_concerns` — what an operation calls: it reads, it writes in the store of the
  documents, or it does what the change of a bucket does.
-/

import DocStore.Proofs.Index.Memberships
import DocStore.Proofs.Run.Requests

set_option autoImplicit false

namespace DocStore

variable {table : Table} {P Q : Membership → Prop} {E F : BucketEdit → Prop} {reply : Reply}

/-- The upkeep for a document of a table, with these conditions. -/
def IndexSync.ConcernsIn (table : Table) (P : Membership → Prop) (E : BucketEdit → Prop)
    (sync : IndexSync) : Prop :=
  sync.table = table ∧ sync.Concerns P E

/-- A reply under which an operation of a table keeps its conditions: the indexes that it finds
registered satisfy them, a change of a bucket that begins does, and one that goes on keeps them. -/
structure Upholds (table : Table) (P : Membership → Prop) (E : BucketEdit → Prop) (call : Call)
    (reply : Reply) : Prop where
  registered : ∀ indexes, call = .readIndexes table.id → reply = .indexes indexes →
    ∀ i ∈ indexes, ∀ k d, P ⟨i, k, d⟩
  fresh : ∀ e : BucketEdit, P e.membership → e.write = none → E e
  own : ∀ e : BucketEdit, Task.call e = call → P e.membership → E e →
    (Task.resume e reply).Satisfies E fun _ => True

namespace IndexSync

theorem ConcernsIn.imp {sync : IndexSync} (h : sync.ConcernsIn table P E) (hP : ∀ m, P m → Q m)
    (hE : ∀ e, P e.membership → E e → F e) : sync.ConcernsIn table Q F :=
  ⟨h.1, h.2.imp hP hE⟩

theorem concernsIn_resume {sync : IndexSync} (h : sync.ConcernsIn table P E)
    (upholds : Upholds table P E (Task.call sync) reply) :
    (Task.resume sync reply).Satisfies (ConcernsIn table P E) fun _ => True := by
  refine (concerns_resume h.2 reply ?_ upholds.fresh upholds.own).imp ?_ fun _ _ => trivial
  · intro old new indexes stage read i hi k
    refine upholds.registered indexes ?_ read i hi k _
    rw [← h.1]
    simp only [Task.call, stage]
  · rintro t ⟨concerns, continues⟩
    exact ⟨continues.1.trans h.1, concerns⟩

end IndexSync

/-! ### Writing a document -/

namespace DocumentWrite

variable {w : DocumentWrite}

/-- The writing belongs to a table, and its upkeep satisfies these conditions. -/
structure Concerns (table : Table) (P : Membership → Prop) (E : BucketEdit → Prop)
    (w : DocumentWrite) : Prop where
  ofTable : w.table = table
  syncing : ∀ counter sync, w.stage = .syncing counter sync → sync.ConcernsIn table P E

theorem Concerns.imp (h : w.Concerns table P E) (hP : ∀ m, P m → Q m)
    (hE : ∀ e, P e.membership → E e → F e) : w.Concerns table Q F :=
  ⟨h.ofTable, fun counter sync hs => (h.syncing counter sync hs).imp hP hE⟩

theorem concerns_again (ofTable : w.table = table) :
    w.again.Satisfies (Concerns table P E) fun _ => True := by
  unfold again
  split
  · exact ⟨ofTable, fun _ _ same => nomatch same⟩
  · trivial

theorem concerns_start (table : Table) (key : String) (value : Value)
    (expected : Option Counter) :
    (start table key value expected).Satisfies (Concerns table P E) fun _ => True := by
  unfold start
  split
  · exact concerns_again rfl
  · trivial

theorem concerns_synced (ofTable : w.table = table) (counter : Counter)
    {progress : Progress IndexSync Unit}
    (hp : progress.Satisfies (IndexSync.ConcernsIn table P E) fun _ => True) :
    (w.synced counter progress).Satisfies (Concerns table P E) fun _ => True := by
  cases progress with
  | waiting sync =>
      refine ⟨ofTable, ?_⟩
      intro _ _ same
      cases same
      exact hp
  | finished result => trivial

theorem concerns_resume (h : w.Concerns table P E)
    (upholds : Upholds table P E (Task.call w) reply) :
    (Task.resume w reply).Satisfies (Concerns table P E) fun _ => True := by
  obtain ⟨owner, key, data, expected, attempts, stage⟩ := w
  obtain rfl : owner = table := h.ofTable
  cases stage with
  | reading =>
      match reply with
      | .document (.error e) => trivial
      | .document (.ok stored) =>
          simp only [Task.resume]
          split
          · refine ⟨rfl, ?_⟩
            rintro _ _ ⟨⟩
          · trivial
      | .counter _ | .done _ | .cursor _ | .indexes _ | .index _ | .table _ => exact h
  | writing old write =>
      cases reply with
      | counter written =>
          cases written with
          | ok counter => exact concerns_synced h.ofTable counter ⟨rfl, trivial⟩
          | error e =>
              cases e with
              | swapMismatch =>
                  simp only [Task.resume]
                  split
                  · trivial
                  · exact concerns_again rfl
              | _ => trivial
      | _ => exact h
  | syncing counter sync =>
      exact concerns_synced rfl counter
        (IndexSync.concernsIn_resume (h.syncing counter sync rfl) upholds)

theorem call_of_concerns {G : Call → Prop} (h : w.Concerns table P E)
    (get : ∀ id key, G (.get id key)) (read : ∀ table, G (.readIndexes table))
    (write : ∀ (write : SlotWrite) key, G (write.call table.documents key))
    (edit : ∀ e : BucketEdit, P e.membership → E e → G (Task.call e)) : G (Task.call w) := by
  obtain ⟨owner, key, data, expected, attempts, stage⟩ := w
  obtain rfl : owner = table := h.ofTable
  cases stage with
  | reading => exact get _ _
  | writing old planned => exact write planned _
  | syncing counter sync =>
      exact IndexSync.call_of_concerns (h.syncing counter sync rfl).2 get read edit

end DocumentWrite

/-! ### Deleting a document -/

namespace DocumentDelete

variable {d : DocumentDelete}

/-- The deletion belongs to a table, and its upkeep satisfies these conditions. -/
structure Concerns (table : Table) (P : Membership → Prop) (E : BucketEdit → Prop)
    (d : DocumentDelete) : Prop where
  ofTable : d.table = table
  syncing : ∀ sync, d.stage = .syncing sync → sync.ConcernsIn table P E

theorem Concerns.imp (h : d.Concerns table P E) (hP : ∀ m, P m → Q m)
    (hE : ∀ e, P e.membership → E e → F e) : d.Concerns table Q F :=
  ⟨h.ofTable, fun sync hs => (h.syncing sync hs).imp hP hE⟩

theorem concerns_again (ofTable : d.table = table) :
    d.again.Satisfies (Concerns table P E) fun _ => True := by
  unfold again
  split
  · exact ⟨ofTable, fun _ same => nomatch same⟩
  · trivial

theorem concerns_synced (ofTable : d.table = table) {progress : Progress IndexSync Unit}
    (hp : progress.Satisfies (IndexSync.ConcernsIn table P E) fun _ => True) :
    (d.synced progress).Satisfies (Concerns table P E) fun _ => True := by
  cases progress with
  | waiting sync =>
      refine ⟨ofTable, ?_⟩
      intro _ same
      cases same
      exact hp
  | finished result => trivial

theorem concerns_resume (h : d.Concerns table P E)
    (upholds : Upholds table P E (Task.call d) reply) :
    (Task.resume d reply).Satisfies (Concerns table P E) fun _ => True := by
  obtain ⟨owner, key, expected, attempts, stage⟩ := d
  obtain rfl : owner = table := h.ofTable
  cases stage with
  | reading =>
      match reply with
      | .document (.error e) => trivial
      | .document (.ok none) => trivial
      | .document (.ok (some stored)) =>
          simp only [Task.resume]
          split
          · trivial
          · exact ⟨rfl, fun _ same => nomatch same⟩
      | .counter _ | .done _ | .cursor _ | .indexes _ | .index _ | .table _ => exact h
  | erasing old counter =>
      match reply with
      | .done (.ok ()) => exact concerns_synced h.ofTable ⟨rfl, trivial⟩
      | .done (.error e) =>
          cases e with
          | swapMismatch =>
              simp only [Task.resume]
              split
              · trivial
              · exact concerns_again rfl
          | _ => trivial
      | .document _ | .counter _ | .cursor _ | .indexes _ | .index _ | .table _ => exact h
  | syncing sync =>
      exact concerns_synced rfl (IndexSync.concernsIn_resume (h.syncing sync rfl) upholds)

theorem call_of_concerns {G : Call → Prop} (h : d.Concerns table P E)
    (get : ∀ id key, G (.get id key)) (read : ∀ table, G (.readIndexes table))
    (write : ∀ (write : SlotWrite) key, G (write.call table.documents key))
    (edit : ∀ e : BucketEdit, P e.membership → E e → G (Task.call e)) : G (Task.call d) := by
  obtain ⟨owner, key, expected, attempts, stage⟩ := d
  obtain rfl : owner = table := h.ofTable
  cases stage with
  | reading => exact get _ _
  | erasing old counter => exact write (.erase counter) _
  | syncing sync => exact IndexSync.call_of_concerns (h.syncing sync rfl).2 get read edit

end DocumentDelete

/-! ### Updating a document -/

namespace DocumentUpdate

variable {u : DocumentUpdate}

/-- The update belongs to a table, and so does its write. -/
structure Concerns (table : Table) (P : Membership → Prop) (E : BucketEdit → Prop)
    (u : DocumentUpdate) : Prop where
  ofTable : u.table = table
  writing : ∀ write, u.stage = .writing write → write.Concerns table P E

theorem Concerns.imp (h : u.Concerns table P E) (hP : ∀ m, P m → Q m)
    (hE : ∀ e, P e.membership → E e → F e) : u.Concerns table Q F :=
  ⟨h.ofTable, fun write hs => (h.writing write hs).imp hP hE⟩

theorem concerns_again (ofTable : u.table = table) :
    u.again.Satisfies (Concerns table P E) fun _ => True := by
  unfold again
  split
  · exact ⟨ofTable, fun _ same => by cases same⟩
  · trivial

theorem concerns_written (ofTable : u.table = table)
    {progress : Progress DocumentWrite (Except Error Counter)}
    (hp : progress.Satisfies (DocumentWrite.Concerns table P E) fun _ => True) :
    (u.written progress).Satisfies (Concerns table P E) fun _ => True := by
  unfold written
  split
  · refine ⟨ofTable, ?_⟩
    intro _ same
    cases same
    exact hp
  · trivial
  · exact concerns_again ofTable
  · trivial

theorem concerns_resume (h : u.Concerns table P E)
    (upholds : Upholds table P E (Task.call u) reply) :
    (Task.resume u reply).Satisfies (Concerns table P E) fun _ => True := by
  obtain ⟨owner, key, modifier, attempts, stage⟩ := u
  obtain rfl : owner = table := h.ofTable
  cases stage with
  | reading =>
      match reply with
      | .document (.error e) => trivial
      | .document (.ok none) => trivial
      | .document (.ok (some stored)) =>
          simp only [Task.resume]
          split
          · exact ⟨rfl, fun _ same => nomatch same⟩
          · trivial
      | .counter _ | .done _ | .cursor _ | .indexes _ | .index _ | .table _ => exact h
  | modifying current =>
      match reply with
      | .done _ =>
          simp only [Task.resume]
          split
          · exact concerns_written rfl (DocumentWrite.concerns_start _ _ _ _)
          · trivial
      | .document _ | .counter _ | .cursor _ | .indexes _ | .index _ | .table _ => exact h
  | writing write =>
      exact concerns_written rfl (DocumentWrite.concerns_resume (h.writing write rfl) upholds)

theorem call_of_concerns {G : Call → Prop} (h : u.Concerns table P E)
    (get : ∀ id key, G (.get id key)) (read : ∀ table, G (.readIndexes table)) (modify : G .modify)
    (write : ∀ (write : SlotWrite) key, G (write.call table.documents key))
    (edit : ∀ e : BucketEdit, P e.membership → E e → G (Task.call e)) : G (Task.call u) := by
  obtain ⟨owner, key, modifier, attempts, stage⟩ := u
  cases stage with
  | reading => exact get _ _
  | modifying current => exact modify
  | writing planned =>
      exact DocumentWrite.call_of_concerns (h.writing planned rfl) get read write edit

end DocumentUpdate

/-! ### All of them -/

/-- An operation on a document of a table, with these conditions. -/
def DocumentTask.Concerns (table : Table) (P : Membership → Prop) (E : BucketEdit → Prop) :
    DocumentTask → Prop
  | .reading _ => True
  | .writing w => w.Concerns table P E
  | .deleting d => d.Concerns table P E
  | .updating u => u.Concerns table P E

/-- An operation begins with these conditions. -/
theorem DocumentRequest.concerns_start (table : Table) (request : DocumentRequest) :
    (request.start table).Satisfies (DocumentTask.Concerns table P E) fun _ => True := by
  cases request with
  | get key shape => exact trivial
  | set key value => exact Progress.satisfies_map.2 (DocumentWrite.concerns_start _ _ _ _)
  | setIf key value expected =>
      exact Progress.satisfies_map.2 (DocumentWrite.concerns_start _ _ _ _)
  | delete key => exact Progress.satisfies_map.2 (DocumentDelete.concerns_again rfl)
  | deleteIf key expected => exact Progress.satisfies_map.2 (DocumentDelete.concerns_again rfl)
  | update key modifier => exact Progress.satisfies_map.2 (DocumentUpdate.concerns_again rfl)

namespace DocumentTask

variable {task : DocumentTask}

theorem Concerns.imp (h : task.Concerns table P E) (hP : ∀ m, P m → Q m)
    (hE : ∀ e, P e.membership → E e → F e) : task.Concerns table Q F := by
  match task, h with
  | .reading _, _ => trivial
  | .writing _, h => exact DocumentWrite.Concerns.imp h hP hE
  | .deleting _, h => exact DocumentDelete.Concerns.imp h hP hE
  | .updating _, h => exact DocumentUpdate.Concerns.imp h hP hE

/-- **The conditions are kept**, if the indexes that are registered with the table satisfy them. -/
theorem concerns_resume (h : task.Concerns table P E)
    (upholds : Upholds table P E (Task.call task) reply) :
    (Task.resume task reply).Satisfies (Concerns table P E) fun _ => True := by
  match task, h with
  | .reading _, _ => exact Progress.satisfies_map.2 (Progress.satisfies_true _)
  | .writing _, h => exact Progress.satisfies_map.2 (DocumentWrite.concerns_resume h upholds)
  | .deleting _, h => exact Progress.satisfies_map.2 (DocumentDelete.concerns_resume h upholds)
  | .updating _, h => exact Progress.satisfies_map.2 (DocumentUpdate.concerns_resume h upholds)

/-- **What an operation on a document calls.** -/
theorem call_of_concerns {G : Call → Prop} (h : task.Concerns table P E)
    (get : ∀ id key, G (.get id key)) (read : ∀ table, G (.readIndexes table)) (modify : G .modify)
    (write : ∀ (write : SlotWrite) key, G (write.call table.documents key))
    (edit : ∀ e : BucketEdit, P e.membership → E e → G (Task.call e)) : G (Task.call task) := by
  match task, h with
  | .reading _, _ => exact get _ _
  | .writing _, h => exact DocumentWrite.call_of_concerns h get read write edit
  | .deleting _, h => exact DocumentDelete.call_of_concerns h get read write edit
  | .updating _, h => exact DocumentUpdate.call_of_concerns h get read modify write edit

end DocumentTask

end DocStore
