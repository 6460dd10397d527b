/-
When an operation on a document takes effect.

An operation reads its document, writes it if nobody else did in between, and starts over if
somebody did.  There is one step in which it takes effect: the write that goes through, or the
reading, or the lost write, after which it reports a failure.  Before that step and after it the
operation leaves the documents alone.

* `Attempts.Counts` — attempts that are counted up to the limit;
* `DocumentWrite.Serves`, `DocumentDelete.Serves`, `DocumentUpdate.Serves`, `DocumentTask.Serves` —
  an operation under way, as the one that a request began;
* `DocumentTask.outcome?` — the outcome of an operation that has taken effect;
* `Effective` — a step leaves the documents and the outcome alone, or it takes effect;
* `DocumentRequest.effective_start`, `DocumentTask.effective_resume` — **an operation takes effect
  in one step, as if it were alone in that step.**
-/

import DocStore.Proofs.Database.Tables
import DocStore.Proofs.Documents.Plans
import DocStore.Proofs.Documents.Sequential
import DocStore.Proofs.Index.Memberships
import DocStore.Proofs.Text.Lossy

set_option autoImplicit false

namespace DocStore

/-! ### Attempts -/

/-- Attempts on a document that are counted up to the limit. -/
structure Attempts.Counts (attempts : Attempts) (policy : RetryPolicy) (key : String) : Prop where
  limit : attempts.limit = policy.maxAttempts
  key : attempts.key = Utf8.encode key
  made : ∀ limit, policy.maxAttempts = some limit → attempts.made ≤ limit

theorem RetryPolicy.counts_attempts (policy : RetryPolicy) (key : String) :
    (policy.attempts (Utf8.encode key)).Counts policy key :=
  ⟨rfl, rfl, fun _ _ => UInt32.zero_le⟩

/-- Another attempt begins, or as many as the limit says have been made. -/
theorem Attempts.Counts.begin {attempts : Attempts} {policy : RetryPolicy} {key : String}
    (h : attempts.Counts policy key) :
    (∃ next, attempts.begin = .ok next ∧ next.Counts policy key ∧ policy.maxAttempts ≠ some 0) ∨
      ∃ limit, policy.maxAttempts = some limit ∧ attempts.made = limit ∧
        attempts.begin = .error (.retryLimitExceeded key limit) := by
  obtain ⟨hl, hk, hm⟩ := h
  unfold Attempts.begin
  rw [hl]
  cases hp : policy.maxAttempts with
  | none => exact Or.inl ⟨_, rfl, ⟨hl, hk, fun limit hc => by rw [hp] at hc; cases hc⟩, by simp⟩
  | some limit =>
      have le := hm limit hp
      by_cases hc : limit ≤ attempts.made
      · have all : attempts.made = limit := UInt32.le_antisymm le hc
        refine Or.inr ⟨limit, rfl, all, ?_⟩
        rw [← all, hk, Utf8.lossy_encode]
        exact if_pos (UInt32.le_refl _)
      · have lt : attempts.made < limit := UInt32.not_le.1 hc
        refine Or.inl ⟨attempts.counted, by simp only [if_neg hc], ⟨hl, hk, ?_⟩, ?_⟩
        · intro other ho
          obtain rfl : limit = other := Option.some.inj (hp.symm.trans ho)
          rw [UInt32.lt_iff_toNat_lt] at lt
          rw [UInt32.le_iff_toNat_le, counted, UInt32.toNat_add]
          -- the attempts do not come round to zero, since the limit is a number of this width
          have := limit.toNat_lt
          simp only [UInt32.reduceToNat]
          omega
        · rintro zero
          obtain rfl := Option.some.inj zero
          exact UInt32.not_lt_zero lt

/-! ### Taking effect -/

/-- The outcome of an operation that has ended, or whose task tells it. -/
def Progress.outcome? {τ α : Type} (outcome? : τ → Option α) : Progress τ α → Option α
  | .waiting task => outcome? task
  | .finished result => some result

/-- A step leaves the documents and the outcome alone, or the operation takes effect: it has an
outcome from then on, which is allowed for the documents before and after. -/
def Effective {α : Type} (allows : Store → α → Store → Prop) (before after : Store)
    (outcome later : Option α) : Prop :=
  after = before ∧ later = outcome ∨ outcome = none ∧ ∃ a, later = some a ∧ allows before a after

/-- The same step, of an operation that stands for another one. -/
theorem Effective.map {α β : Type} {allows : Store → α → Store → Prop}
    {allows' : Store → β → Store → Prop} {before after : Store} {outcome later : Option α}
    (h : Effective allows before after outcome later) (f : α → β)
    (hf : ∀ a, allows before a after → allows' before (f a) after) :
    Effective allows' before after (outcome.map f) (later.map f) := by
  rcases h with ⟨same, rfl⟩ | ⟨rfl, a, rfl, ha⟩
  · exact Or.inl ⟨same, rfl⟩
  · exact Or.inr ⟨rfl, f a, rfl, hf a ha⟩

theorem Progress.outcome?_map {τ σ α β : Type} {wrap : τ → σ} {convert : α → β}
    {outcome? : τ → Option α} {wrapped? : σ → Option β}
    (h : ∀ t, wrapped? (wrap t) = (outcome? t).map convert) (progress : Progress τ α) :
    (progress.map wrap convert).outcome? wrapped? = (progress.outcome? outcome?).map convert := by
  cases progress with
  | waiting t => exact h t
  | finished a => rfl

/-- A deletion does nothing to a document that is missing. -/
theorem Store.delete_of_get?_eq_none {store : Store} {key : Bytes} (h : store.get? key = none) :
    store.delete key = store := by
  unfold delete
  cases hs : store.slots.find? key with
  | none => rfl
  | some slot =>
      rw [get?, hs, Option.bind_some, Slot.versioned?, Option.map_eq_none_iff] at h
      simp only [h, Option.isSome_none, Bool.false_eq_true, if_false]

/-! ### Indexes apart from the documents -/

/-- A membership whose bucket is not among the documents. -/
def Membership.ApartFrom (documents : StoreId) (m : Membership) : Prop :=
  m.index.buckets ≠ documents

/-- The upkeep of the indexes of a table, none of which has its buckets among the documents. -/
def IndexSync.ApartFrom (table : Table) (sync : IndexSync) : Prop :=
  sync.table = table ∧ sync.Concerns (Membership.ApartFrom table.documents) fun _ => True

namespace IndexSync

theorem call_spares {table : Table} {sync : IndexSync} (h : sync.ApartFrom table) :
    (Task.call sync).Spares table.documents := by
  refine call_of_concerns h.2 (fun _ _ => trivial) (fun _ => trivial) ?_
  intro edit apart _
  rcases edit.call_cases with ⟨-, hc⟩ | ⟨write, -, hc⟩
  · rw [hc]
    trivial
  · rw [hc]
    exact SlotWrite.call_spares apart

/-- The upkeep of indexes stays apart from the documents, whatever becomes of its calls. -/
theorem apartFrom_resume {db : Database} {table : Table} (holds : db.Holds table)
    {sync : IndexSync} (h : sync.ApartFrom table) (fault : Option Error) :
    (Task.resume sync (db.perform (Task.call sync) fault).1).Satisfies (ApartFrom table)
      fun _ => True := by
  have kept := concerns_resume h.2 (db.perform (Task.call sync) fault).1 ?_
    (fun _ _ _ => trivial) fun e _ _ _ => ?_
  · exact kept.imp (fun s hs => ⟨hs.2.1.trans h.1, hs.1⟩) fun _ h => h
  · intro old new indexes stage reply i hi k
    obtain ⟨owner, document, written, stage'⟩ := sync
    obtain rfl : owner = table := h.1
    obtain rfl : stage' = .reading old new := stage
    -- reading the indexes is no access to the storage, and does not fail
    have read : db.perform (.readIndexes owner.id) fault = db.forward (.readIndexes owner.id) := by
      cases fault <;> rfl
    obtain rfl := Reply.indexes.inj ((congrArg Prod.fst read).symm.trans reply)
    obtain ⟨⟨name, index⟩, hmem, rfl⟩ := List.mem_map.1 hi
    exact holds.apart name index (SortedMap.find?_eq_some_iff.2 hmem)
  · cases Task.resume e (db.perform (Task.call sync) fault).1 <;> trivial

/-- An operation that has taken effect, and brings the indexes in line, leaves the documents
alone. -/
theorem effective_map {σ β : Type} {db : Database} {table : Table} (holds : db.Holds table)
    {sync : IndexSync} (h : sync.ApartFrom table) {wrap : IndexSync → σ} {convert : Unit → β}
    {serves : σ → Prop} {allows : Store → β → Store → Prop} {outcome? : σ → Option β} {a : β}
    (hs : ∀ t, t.ApartFrom table → serves (wrap t)) (told : ∀ t, outcome? (wrap t) = some a)
    (ends : convert () = a) :
    let performed := db.perform (Task.call sync) none
    let progress := (Task.resume sync performed.1).map wrap convert
    progress.Satisfies serves (fun _ => True) ∧
      Effective allows (db.backend.store table.documents)
        (performed.2.backend.store table.documents) (some a) (progress.outcome? outcome?) := by
  intro performed progress
  have kept := apartFrom_resume holds h none
  have same := db.store_perform_of_spares none holds.stored (call_spares h)
  refine ⟨Progress.satisfies_map.2 (kept.imp hs fun _ _ => trivial), Or.inl ⟨same, ?_⟩⟩
  have later : ∀ p : Progress IndexSync Unit, (p.map wrap convert).outcome? outcome? = some a := by
    intro p
    cases p with
    | waiting t => exact told t
    | finished result => exact congrArg some ends
  exact later _

end IndexSync

/-! ### Writing -/

namespace DocumentWrite

/-- The outcome of a write that went through. -/
def outcome? (w : DocumentWrite) : Option (Except Error Counter) :=
  match w.stage with
  | .syncing counter _ => some (.ok counter)
  | _ => none

theorem eq_ok_of_outcome? {w : DocumentWrite} {a : Except Error Counter}
    (h : w.outcome? = some a) : ∃ counter, a = .ok counter := by
  unfold outcome? at h
  split at h
  · exact ⟨_, (Option.some.inj h).symm⟩
  · cases h

/-- A write under way of these bytes, at an expected counter if there is one. -/
structure Serves (table : Table) (key : String) (data : Bytes) (expected : Option Counter)
    (w : DocumentWrite) : Prop where
  ofTable : w.table = table
  ofKey : w.key = key
  ofData : w.data = data
  ofExpected : w.expected = expected
  counts : w.attempts.Counts table.retry key
  planned : ∀ old write, w.stage = .writing old write →
    ∃ stored, w.plan stored = .ok (old, write)
  apart : ∀ counter sync, w.stage = .syncing counter sync → sync.ApartFrom table

/-- The outcomes that writing these bytes may have. -/
inductive Allows (policy : RetryPolicy) (key : String) (data : Bytes)
    (expected : Option Counter) (documents : Store) : Except Error Counter → Store → Prop
  /-- The document is written, at the expected counter if there is one. -/
  | written
      (found : ∀ c, expected = some c → documents.liveCounter? (Utf8.encode key) = some c) :
      Allows policy key data expected documents (.ok (documents.set (Utf8.encode key) data).1)
        (documents.set (Utf8.encode key) data).2
  /-- The document is not at the expected counter. -/
  | changed {c : Counter} (expects : expected = some c)
      (other : documents.liveCounter? (Utf8.encode key) ≠ some c) :
      Allows policy key data expected documents (.error .counterChanged) documents
  /-- All attempts are lost. -/
  | exhausted {limit : UInt32} (limited : policy.maxAttempts = some limit)
      (free : expected = none ∨ limit = 0) :
      Allows policy key data expected documents (.error (.retryLimitExceeded key limit)) documents

variable {db : Database} {table : Table} {key : String} {data : Bytes}
  {expected : Option Counter} {w : DocumentWrite}

/-- Another attempt begins, or the write gives up. -/
theorem serves_again (h : w.Serves table key data expected) :
    (w.again).Satisfies (fun v => v.Serves table key data expected ∧ v.outcome? = none)
      fun a => ∃ limit, table.retry.maxAttempts = some limit ∧ w.attempts.made = limit ∧
        a = .error (.retryLimitExceeded key limit) := by
  unfold again
  rcases h.counts.begin with ⟨next, hb, counts, -⟩ | ⟨limit, hl, all, hb⟩
  · rw [hb]
    exact ⟨⟨h.ofTable, h.ofKey, h.ofData, h.ofExpected, counts, by simp, by simp⟩, rfl⟩
  · rw [hb]
    exact ⟨limit, hl, all, rfl⟩

/-- An attempt that begins changes nothing, and a write that gives up has taken effect. -/
theorem effective_again {documents : Store} (h : w.Serves table key data expected)
    (free : expected = none ∨ w.attempts.made = 0) :
    w.again.Satisfies (Serves table key data expected) (fun _ => True) ∧
      Effective (Allows table.retry key data expected) documents documents none
        (w.again.outcome? outcome?) := by
  have next := serves_again h
  cases ha : w.again with
  | waiting v =>
      rw [ha] at next
      exact ⟨next.1, Or.inl ⟨rfl, next.2⟩⟩
  | finished a =>
      rw [ha] at next
      obtain ⟨limit, hl, all, rfl⟩ := next
      exact ⟨trivial, Or.inr ⟨rfl, _, rfl, .exhausted hl (free.imp_right all.symm.trans)⟩⟩

/-- A write that begins has changed nothing. -/
theorem effective_start (table : Table) (key : String) {value : Value} (expected : Option Counter)
    (hv : value.encode? = some data) (documents : Store) :
    (start table key value expected).Satisfies (Serves table key data expected) (fun _ => True) ∧
      Effective (Allows table.retry key data expected) documents documents none
        ((start table key value expected).outcome? outcome?) := by
  simp only [start, hv]
  exact effective_again
    ⟨rfl, rfl, rfl, rfl, table.retry.counts_attempts key, by simp, by simp⟩ (Or.inr rfl)

/-- The conditional write goes through, and takes effect; or it does not, and the operation has
failed, which is its effect, or it starts over. -/
theorem effective_writing (holds : db.Holds table) (h : w.Serves table key data expected)
    {old : Bytes} {write : SlotWrite} (writing : w.stage = .writing old write) :
    (Task.resume w (db.perform (Task.call w) none).1).Satisfies
        (Serves table key data expected) (fun _ => True) ∧
      Effective (Allows table.retry key data expected) (db.backend.store table.documents)
        ((db.perform (Task.call w) none).2.backend.store table.documents) none
        ((Task.resume w (db.perform (Task.call w) none).1).outcome? outcome?) := by
  obtain ⟨stored, hp⟩ := h.planned old write writing
  obtain ⟨replies, value, accepts_iff⟩ := write_of_plan hp
  obtain ⟨owner, name, bytes, wanted, attempts, stage⟩ := w
  obtain rfl : stage = .writing old write := writing
  have h' := h
  obtain ⟨rfl, rfl, rfl, rfl, counts, -, -⟩ := h
  rw [show Task.call (⟨owner, name, bytes, wanted, attempts, .writing old write⟩ : DocumentWrite)
    = write.call owner.documents (Utf8.encode name) from rfl]
  by_cases accepts : write.Accepts ((db.backend.store owner.documents).get? (Utf8.encode name))
  · have after : write.applied (db.backend.store owner.documents) (Utf8.encode name)
        = ((db.backend.store owner.documents).set (Utf8.encode name) bytes).2 := by
      rw [SlotWrite.applied, value]
    rw [db.perform_write accepts, replies, after, Database.putStore, Backend.store_putStore,
      if_pos ⟨rfl, holds.stored⟩]
    refine ⟨⟨rfl, rfl, rfl, rfl, counts, by simp, ?_⟩, Or.inr ⟨rfl, _, rfl, .written ?_⟩⟩
    · rintro _ _ same
      cases same
      exact ⟨rfl, trivial⟩
    · intro c hc
      exact (accepts_iff c hc _).1 accepts
  · rw [db.perform_write_of_not accepts, replies]
    rcases resume_lost (w := ⟨owner, name, bytes, wanted, attempts, .writing old write⟩) rfl with
      ⟨c, expects, failed⟩ | ⟨free, again⟩
    · rw [failed]
      exact ⟨trivial, Or.inr ⟨rfl, _, rfl, .changed expects fun found =>
        accepts ((accepts_iff c expects _).2 found)⟩⟩
    · rw [again]
      exact effective_again h' (Or.inl free)

/-- **A write takes effect in one step.** -/
theorem effective_resume (holds : db.Holds table) (h : w.Serves table key data expected) :
    (Task.resume w (db.perform (Task.call w) none).1).Satisfies
        (Serves table key data expected) (fun _ => True) ∧
      Effective (Allows table.retry key data expected) (db.backend.store table.documents)
        ((db.perform (Task.call w) none).2.backend.store table.documents) w.outcome?
        ((Task.resume w (db.perform (Task.call w) none).1).outcome? outcome?) := by
  cases hw : w.stage with
  | reading =>
      obtain ⟨owner, name, bytes, wanted, attempts, stage⟩ := w
      obtain rfl : stage = .reading := hw
      obtain ⟨rfl, rfl, rfl, rfl, counts, -, -⟩ := h
      rw [show Task.call (⟨owner, name, bytes, wanted, attempts, .reading⟩ : DocumentWrite)
        = .get owner.documents (Utf8.encode name) from rfl, Database.perform_get]
      cases hp : plan ⟨owner, name, bytes, wanted, attempts, .reading⟩
          ((db.backend.store owner.documents).get? (Utf8.encode name)) with
      | ok next =>
          obtain ⟨old, write⟩ := next
          rw [resume_of_plan rfl hp]
          refine ⟨⟨rfl, rfl, rfl, rfl, counts, ?_, by simp⟩, Or.inl ⟨rfl, rfl⟩⟩
          rintro _ _ same
          cases same
          exact ⟨_, hp⟩
      | error e =>
          obtain ⟨rfl, c, expects, other⟩ := of_plan_eq_error hp
          rw [resume_of_plan_eq_error rfl hp]
          exact ⟨trivial, Or.inr ⟨rfl, _, rfl, .changed expects other⟩⟩
  | writing old write =>
      rw [show w.outcome? = none by simp only [outcome?, hw]]
      exact effective_writing holds h hw
  | syncing counter sync =>
      obtain ⟨owner, name, bytes, wanted, attempts, stage⟩ := w
      obtain rfl : stage = .syncing counter sync := hw
      obtain ⟨rfl, rfl, rfl, rfl, counts, -, apart⟩ := h
      refine IndexSync.effective_map holds (apart counter sync rfl) (fun t ht => ?_)
        (fun _ => rfl) rfl
      refine ⟨rfl, rfl, rfl, rfl, counts, by simp, ?_⟩
      rintro _ _ same
      cases same
      exact ht

end DocumentWrite

/-! ### Deleting -/

namespace DocumentDelete

/-- The outcome of a deletion that went through. -/
def outcome? (d : DocumentDelete) : Option (Except Error Unit) :=
  match d.stage with
  | .syncing _ => some (.ok ())
  | _ => none

/-- A deletion under way, at an expected counter if there is one. -/
structure Serves (table : Table) (key : String) (expected : Option Counter)
    (d : DocumentDelete) : Prop where
  ofTable : d.table = table
  ofKey : d.key = key
  ofExpected : d.expected = expected
  counts : d.attempts.Counts table.retry key
  planned : ∀ old counter, d.stage = .erasing old counter → ∀ c, expected = some c → c = counter
  apart : ∀ sync, d.stage = .syncing sync → sync.ApartFrom table

/-- The outcomes that deleting a document may have. -/
inductive Allows (policy : RetryPolicy) (key : String) (expected : Option Counter)
    (documents : Store) : Except Error Unit → Store → Prop
  /-- The document is missing, or it is deleted, at the expected counter if there is one. -/
  | deleted
      (found : ∀ c counter, expected = some c →
        documents.liveCounter? (Utf8.encode key) = some counter → counter = c) :
      Allows policy key expected documents (.ok ()) (documents.delete (Utf8.encode key))
  /-- The document is not at the expected counter. -/
  | changed {c : Counter} (expects : expected = some c)
      (other : documents.liveCounter? (Utf8.encode key) ≠ some c) :
      Allows policy key expected documents (.error .counterChanged) documents
  /-- All attempts are lost. -/
  | exhausted {limit : UInt32} (limited : policy.maxAttempts = some limit)
      (free : expected = none ∨ limit = 0) :
      Allows policy key expected documents (.error (.retryLimitExceeded key limit)) documents

variable {db : Database} {table : Table} {key : String} {expected : Option Counter}
  {d : DocumentDelete}

/-- An attempt that begins changes nothing, and a deletion that gives up has taken effect. -/
theorem effective_again {documents : Store} (h : d.Serves table key expected)
    (free : expected = none ∨ d.attempts.made = 0) :
    d.again.Satisfies (Serves table key expected) (fun _ => True) ∧
      Effective (Allows table.retry key expected) documents documents none
        (d.again.outcome? outcome?) := by
  unfold again
  rcases h.counts.begin with ⟨next, hb, counts, -⟩ | ⟨limit, hl, all, hb⟩
  · rw [hb]
    exact ⟨⟨h.ofTable, h.ofKey, h.ofExpected, counts, by simp, by simp⟩, Or.inl ⟨rfl, rfl⟩⟩
  · rw [hb]
    exact ⟨trivial, Or.inr ⟨rfl, _, rfl, .exhausted hl (free.imp_right all.symm.trans)⟩⟩

/-- A deletion that begins has changed nothing. -/
theorem effective_start (table : Table) (key : String) (expected : Option Counter)
    (documents : Store) :
    (start table key expected).Satisfies (Serves table key expected) (fun _ => True) ∧
      Effective (Allows table.retry key expected) documents documents none
        ((start table key expected).outcome? outcome?) :=
  effective_again ⟨rfl, rfl, rfl, table.retry.counts_attempts key, by simp, by simp⟩ (Or.inr rfl)

/-- A deletion of a document that is missing, or at another counter than the caller expects, takes
effect as it reads. -/
theorem effective_reading (h : d.Serves table key expected) (reading : d.stage = .reading)
    (documents : Store) :
    let progress := Task.resume d (.document (.ok (documents.get? (Utf8.encode key))))
    progress.Satisfies (Serves table key expected) (fun _ => True) ∧
      Effective (Allows table.retry key expected) documents documents none
        (progress.outcome? outcome?) := by
  obtain ⟨owner, name, wanted, attempts, stage⟩ := d
  obtain rfl : stage = .reading := reading
  obtain ⟨rfl, rfl, rfl, counts, -, -⟩ := h
  cases hs : documents.get? (Utf8.encode name) with
  | none =>
      have done : Allows owner.retry name wanted documents (.ok ())
          (documents.delete (Utf8.encode name)) := by
        refine .deleted fun c counter _ found => ?_
        rw [Store.liveCounter?, hs] at found
        cases found
      rw [Store.delete_of_get?_eq_none hs] at done
      exact ⟨trivial, Or.inr ⟨rfl, _, rfl, done⟩⟩
  | some stored =>
      rcases resume_found (d := ⟨owner, name, wanted, attempts, .reading⟩) rfl stored with
        ⟨c, expects, ne, failed⟩ | ⟨agrees, goes⟩
      · simp only [failed]
        refine ⟨trivial, Or.inr ⟨rfl, _, rfl, .changed expects ?_⟩⟩
        rw [Store.liveCounter?_of_get? hs]
        exact fun same => ne (Option.some.inj same).symm
      · simp only [goes]
        refine ⟨⟨rfl, rfl, rfl, counts, ?_, by simp⟩, Or.inl ⟨rfl, rfl⟩⟩
        rintro _ _ stage c hc
        cases stage
        exact agrees c hc

/-- The document that was read is deleted, which is the effect; or it has been written in between,
and the operation has failed, which is its effect, or it starts over. -/
theorem effective_erasing (holds : db.Holds table) (h : d.Serves table key expected)
    {old : Bytes} {counter : Counter} (erasing : d.stage = .erasing old counter) :
    (Task.resume d (db.perform (Task.call d) none).1).Satisfies
        (Serves table key expected) (fun _ => True) ∧
      Effective (Allows table.retry key expected) (db.backend.store table.documents)
        ((db.perform (Task.call d) none).2.backend.store table.documents) none
        ((Task.resume d (db.perform (Task.call d) none).1).outcome? outcome?) := by
  have planned := h.planned old counter erasing
  obtain ⟨owner, name, wanted, attempts, stage⟩ := d
  obtain rfl : stage = .erasing old counter := erasing
  have h' := h
  obtain ⟨rfl, rfl, rfl, counts, -, -⟩ := h
  rw [show Task.call (⟨owner, name, wanted, attempts, .erasing old counter⟩ : DocumentDelete)
    = (SlotWrite.erase counter).call owner.documents (Utf8.encode name) from rfl]
  by_cases accepts : (SlotWrite.erase counter).Accepts
    ((db.backend.store owner.documents).get? (Utf8.encode name))
  · rw [db.perform_write accepts, Database.putStore, Backend.store_putStore,
      if_pos ⟨rfl, holds.stored⟩]
    refine ⟨⟨rfl, rfl, rfl, counts, by simp, ?_⟩, Or.inr ⟨rfl, _, rfl, .deleted ?_⟩⟩
    · rintro _ same
      cases same
      exact ⟨rfl, trivial⟩
    · intro c live hc found
      have here : some live = some counter := found.symm.trans accepts
      rw [planned c hc]
      exact Option.some.inj here
  · rw [db.perform_write_of_not accepts]
    change Progress.Satisfies _ _ (Task.resume
        (⟨owner, name, wanted, attempts, .erasing old counter⟩ : DocumentDelete)
        (.done (.error .swapMismatch))) ∧ Effective _ _ _ none ((Task.resume
        (⟨owner, name, wanted, attempts, .erasing old counter⟩ : DocumentDelete)
        (.done (.error .swapMismatch))).outcome? outcome?)
    rcases resume_lost (d := ⟨owner, name, wanted, attempts, .erasing old counter⟩) rfl with
      ⟨c, expects, failed⟩ | ⟨free, again⟩
    · rw [failed]
      refine ⟨trivial, Or.inr ⟨rfl, _, rfl, .changed expects ?_⟩⟩
      rw [planned c expects]
      exact accepts
    · rw [again]
      exact effective_again h' (Or.inl free)

/-- **A deletion takes effect in one step.** -/
theorem effective_resume (holds : db.Holds table) (h : d.Serves table key expected) :
    (Task.resume d (db.perform (Task.call d) none).1).Satisfies
        (Serves table key expected) (fun _ => True) ∧
      Effective (Allows table.retry key expected) (db.backend.store table.documents)
        ((db.perform (Task.call d) none).2.backend.store table.documents) d.outcome?
        ((Task.resume d (db.perform (Task.call d) none).1).outcome? outcome?) := by
  cases hd : d.stage with
  | reading =>
      have called : Task.call d = .get table.documents (Utf8.encode key) := by
        simp only [Task.call, hd, h.ofTable, h.ofKey]
      rw [called, Database.perform_get, show d.outcome? = none by simp only [outcome?, hd]]
      exact effective_reading h hd _
  | erasing old counter =>
      rw [show d.outcome? = none by simp only [outcome?, hd]]
      exact effective_erasing holds h hd
  | syncing sync =>
      obtain ⟨owner, name, wanted, attempts, stage⟩ := d
      obtain rfl : stage = .syncing sync := hd
      obtain ⟨rfl, rfl, rfl, counts, -, apart⟩ := h
      refine IndexSync.effective_map holds (apart sync rfl) (fun t ht => ?_) (fun _ => rfl) rfl
      refine ⟨rfl, rfl, rfl, counts, by simp, ?_⟩
      rintro _ same
      cases same
      exact ht

end DocumentDelete

/-! ### Updating -/

namespace DocumentUpdate

/-- The outcome of an update whose write went through, or that cannot write anything: its modifier
gives up, or what it gives refuses to be written. -/
def outcome? (u : DocumentUpdate) : Option (Except UpdateError Counter) :=
  match u.stage with
  | .reading => none
  | .modifying current =>
      match u.modifier.apply current.value with
      | .error reason => some (.error (.aborted reason))
      | .ok value => if value.encode?.isSome then none else some (.error (.store .encode))
  | .writing write => write.outcome?.map (·.mapError .store)

/-- What an update has read, as a document. -/
def HasRead (documents : Store) (key : String) (modifier : Modifier) (stored : Versioned Bytes)
    (current : Versioned Value) : Prop :=
  documents.Recalls (Utf8.encode key) stored ∧ stored.decode modifier.shape = .ok current

/-- An update under way by this modifier. -/
structure Serves (documents : Store) (table : Table) (key : String) (modifier : Modifier)
    (u : DocumentUpdate) : Prop where
  ofTable : u.table = table
  ofKey : u.key = key
  ofModifier : u.modifier = modifier
  counts : u.attempts.Counts table.retry key
  tried : table.retry.maxAttempts ≠ some 0
  modifying : ∀ current, u.stage = .modifying current →
    ∃ stored, HasRead documents key modifier stored current
  writing : ∀ write, u.stage = .writing write → ∃ stored current value data,
    HasRead documents key modifier stored current ∧ modifier.apply current.value = .ok value ∧
      value.encode? = some data ∧ write.Serves table key data (some stored.counter)

variable {db : Database} {table : Table} {key : String} {modifier : Modifier}
  {u : DocumentUpdate}

theorem Serves.mono {documents later : Store} (h : u.Serves documents table key modifier)
    (recalls : ∀ stored, documents.Recalls (Utf8.encode key) stored →
      later.Recalls (Utf8.encode key) stored) : u.Serves later table key modifier where
  ofTable := h.ofTable
  ofKey := h.ofKey
  ofModifier := h.ofModifier
  counts := h.counts
  tried := h.tried
  modifying current hs := by
    obtain ⟨stored, hr, hd⟩ := h.modifying current hs
    exact ⟨stored, recalls stored hr, hd⟩
  writing write hs := by
    obtain ⟨stored, current, value, data, ⟨hr, hd⟩, rest⟩ := h.writing write hs
    exact ⟨stored, current, value, data, ⟨recalls stored hr, hd⟩, rest⟩

/-- The outcomes that an update may have. -/
abbrev Allows (policy : RetryPolicy) (key : String) (modifier : Modifier) (documents : Store)
    (result : Except UpdateError Counter) (after : Store) : Prop :=
  (DocumentRequest.update key modifier).Allows policy documents (.updated result) after

/-- An attempt that begins changes nothing, and an update that gives up has taken effect. -/
theorem effective_again (documents : Store) (ofTable : u.table = table) (ofKey : u.key = key)
    (ofModifier : u.modifier = modifier) (counts : u.attempts.Counts table.retry key) :
    u.again.Satisfies (Serves documents table key modifier) (fun _ => True) ∧
      Effective (Allows table.retry key modifier) documents documents none
        (u.again.outcome? outcome?) := by
  unfold again
  rcases counts.begin with ⟨next, hb, counts, tried⟩ | ⟨limit, hl, -, hb⟩
  · rw [hb]
    exact ⟨⟨ofTable, ofKey, ofModifier, counts, tried, by simp, by simp⟩, Or.inl ⟨rfl, rfl⟩⟩
  · rw [hb]
    exact ⟨trivial, Or.inr ⟨rfl, _, rfl, .exhausted hl rfl⟩⟩

/-- An update that begins has changed nothing. -/
theorem effective_start (table : Table) (key : String) (modifier : Modifier) (documents : Store) :
    (start table key modifier).Satisfies (Serves documents table key modifier) (fun _ => True) ∧
      Effective (Allows table.retry key modifier) documents documents none
        ((start table key modifier).outcome? outcome?) :=
  effective_again documents rfl rfl rfl (table.retry.counts_attempts key)

/-- The write of an update is allowed to it, as long as the document is what it has read. -/
theorem allows_of_written {documents after : Store} {stored : Versioned Bytes}
    {current : Versioned Value} {value : Value} {data : Bytes}
    (hr : HasRead documents key modifier stored current)
    (hv : modifier.apply current.value = .ok value) (hd : value.encode? = some data)
    {counter : Counter}
    (h : DocumentWrite.Allows table.retry key data (some stored.counter) documents
      (.ok counter) after) :
    Allows table.retry key modifier documents (.ok counter) after := by
  cases h with
  | written found =>
      have here := hr.1.get?_eq (found _ rfl)
      have own : (DocumentRequest.update key modifier).Allows table.retry documents _ _ := .alone
      simp only [DocumentRequest.apply, here, hr.2, hv, Store.written, hd] at own
      exact own

/-- What has become of the write is passed on: a lost race starts over. -/
theorem effective_written {documents after : Store} {outcome : Option (Except Error Counter)}
    (h : u.Serves documents table key modifier) {stored : Versioned Bytes}
    {current : Versioned Value} {value : Value} {data : Bytes}
    (hr : HasRead documents key modifier stored current)
    (hv : modifier.apply current.value = .ok value) (hd : value.encode? = some data)
    (recalls : ∀ stored, documents.Recalls (Utf8.encode key) stored →
      after.Recalls (Utf8.encode key) stored)
    {progress : Progress DocumentWrite (Except Error Counter)}
    (serves : progress.Satisfies
      (DocumentWrite.Serves table key data (some stored.counter)) fun _ => True)
    (effect : Effective (DocumentWrite.Allows table.retry key data (some stored.counter))
      documents after outcome (progress.outcome? DocumentWrite.outcome?))
    (through : ∀ a, outcome = some a → ∃ counter, a = .ok counter) :
    (u.written progress).Satisfies (Serves after table key modifier) (fun _ => True) ∧
      Effective (Allows table.retry key modifier) documents after
        (outcome.map (·.mapError UpdateError.store))
        ((u.written progress).outcome? outcome?) := by
  have later := h.mono recalls
  cases progress with
  | waiting v =>
      refine ⟨⟨h.ofTable, h.ofKey, h.ofModifier, h.counts, h.tried, by simp, ?_⟩, ?_⟩
      · rintro _ same
        cases same
        exact ⟨stored, current, value, data, ⟨recalls stored hr.1, hr.2⟩, hv, hd, serves⟩
      · rcases effect with ⟨same, hv⟩ | ⟨none, a, ha, allowed⟩
        · exact Or.inl ⟨same, congrArg (Option.map _) hv⟩
        · -- the write goes on only after it has gone through
          obtain ⟨counter, rfl⟩ := DocumentWrite.eq_ok_of_outcome? ha
          refine Or.inr ⟨by rw [none]; rfl, .ok counter, ?_, allows_of_written hr hv hd allowed⟩
          exact congrArg (Option.map _) ha
  | finished a =>
      rcases effect with ⟨same, ha⟩ | ⟨none, b, hb, allowed⟩
      · obtain ⟨counter, rfl⟩ := through a ha.symm
        exact ⟨trivial, Or.inl ⟨same, by rw [← ha]; rfl⟩⟩
      · -- the write takes effect as it ends, and the update does so only if it has written
        obtain rfl : a = b := Option.some.inj hb
        rw [none]
        cases allowed with
        | written found =>
            exact ⟨trivial, Or.inr ⟨rfl, _, rfl, allows_of_written hr hv hd (.written found)⟩⟩
        -- the document has been written since it was read: the update starts over, without effect
        | changed expects other =>
            exact effective_again documents h.ofTable h.ofKey h.ofModifier h.counts
        | exhausted limited free =>
            -- the write expects a counter, so that it gives up only if there is no attempt
            rcases free with free | rfl
            · cases free
            · exact absurd limited h.tried

/-- The outcome of an update that is alone is allowed. -/
theorem allows_of_apply {policy : RetryPolicy} {documents after : Store}
    {outcome : Except UpdateError Counter}
    (h : (DocumentRequest.update key modifier).apply documents = (.updated outcome, after)) :
    Allows policy key modifier documents outcome after := by
  have own : (DocumentRequest.update key modifier).Allows policy documents _ _ := .alone
  rwa [h] at own

/-- An update that reads takes effect if it will write nothing: the document is missing or has
another shape, the modifier gives up, or what it gives refuses to be written. -/
theorem effective_reading {documents : Store} {attempts : Attempts}
    (counts : attempts.Counts table.retry key) (tried : table.retry.maxAttempts ≠ some 0) :
    let progress := Task.resume (⟨table, key, modifier, attempts, .reading⟩ : DocumentUpdate)
      (.document (.ok (documents.get? (Utf8.encode key))))
    progress.Satisfies (Serves documents table key modifier) (fun _ => True) ∧
      Effective (Allows table.retry key modifier) documents documents none
        (progress.outcome? outcome?) := by
  cases hs : documents.get? (Utf8.encode key) with
  | none =>
      refine ⟨trivial, Or.inr ⟨rfl, _, rfl, allows_of_apply ?_⟩⟩
      simp only [DocumentRequest.apply, hs]
  | some stored =>
      simp only [Task.resume]
      cases hd : stored.decode modifier.shape with
      | error e =>
          refine ⟨trivial, Or.inr ⟨rfl, _, rfl, allows_of_apply ?_⟩⟩
          simp only [DocumentRequest.apply, hs, hd]
      | ok current =>
          refine ⟨⟨rfl, rfl, rfl, counts, tried, ?_, by simp⟩, ?_⟩
          · rintro _ same
            cases same
            exact ⟨stored, Store.recalls_of_get? hs, hd⟩
          · -- whether the modifier will give up is settled by what was just read
            change Effective _ _ _ none
              (outcome? ⟨table, key, modifier, attempts, .modifying current⟩)
            cases hv : modifier.apply current.value with
            | error reason =>
                simp only [outcome?, hv]
                refine Or.inr ⟨rfl, _, rfl, allows_of_apply ?_⟩
                simp only [DocumentRequest.apply, hs, hd, hv]
            | ok value =>
                simp only [outcome?, hv]
                cases he : value.encode? with
                | some data => exact Or.inl ⟨rfl, rfl⟩
                | none =>
                    refine Or.inr ⟨rfl, _, rfl, allows_of_apply ?_⟩
                    simp only [DocumentRequest.apply, hs, hd, hv, Store.written, he]
                    rfl

/-- An update goes on with what its modifier gives, and its outcome stays what it was. -/
theorem effective_modifying {documents : Store} {attempts : Attempts} {current : Versioned Value}
    (h : Serves documents table key modifier
      ⟨table, key, modifier, attempts, .modifying current⟩) :
    let progress := Task.resume
      (⟨table, key, modifier, attempts, .modifying current⟩ : DocumentUpdate) (.done (.ok ()))
    progress.Satisfies (Serves documents table key modifier) (fun _ => True) ∧
      Effective (Allows table.retry key modifier) documents documents
        (outcome? ⟨table, key, modifier, attempts, .modifying current⟩)
        (progress.outcome? outcome?) := by
  obtain ⟨stored, hr⟩ := h.modifying current rfl
  simp only [Task.resume, outcome?]
  cases hv : modifier.apply current.value with
  | error reason => exact ⟨trivial, Or.inl ⟨rfl, rfl⟩⟩
  | ok value =>
      simp only [Table.setIf]
      cases he : value.encode? with
      | none =>
          simp only [DocumentWrite.start, he]
          exact ⟨trivial, Or.inl ⟨rfl, rfl⟩⟩
      | some data =>
          -- the write expects the counter of what was read
          have version : current.counter = stored.counter := Versioned.counter_of_decode hr.2
          obtain ⟨serves, effect⟩ := DocumentWrite.effective_start table key
            (some current.counter) he documents
          rw [version] at serves effect ⊢
          exact effective_written h hr hv he (fun _ hk => hk) serves effect
            fun a ha => absurd ha (Option.some_ne_none a).symm

/-- **An update takes effect in one step.** -/
theorem effective_resume (holds : db.Holds table)
    (h : u.Serves (db.backend.store table.documents) table key modifier)
    (room : db.HasRoom (Task.call u)) :
    (Task.resume u (db.perform (Task.call u) none).1).Satisfies
        (Serves ((db.perform (Task.call u) none).2.backend.store table.documents) table key
          modifier) (fun _ => True) ∧
      Effective (Allows table.retry key modifier) (db.backend.store table.documents)
        ((db.perform (Task.call u) none).2.backend.store table.documents) u.outcome?
        ((Task.resume u (db.perform (Task.call u) none).1).outcome? outcome?) := by
  obtain ⟨owner, name, change, attempts, stage⟩ := u
  have h' := h
  obtain ⟨rfl, rfl, rfl, counts, tried, -, writing⟩ := h
  cases stage with
  | reading => exact effective_reading counts tried
  | modifying current => exact effective_modifying h'
  | writing write =>
      obtain ⟨stored, current, value, data, hr, hv, he, serves⟩ := writing write rfl
      obtain ⟨kept, effect⟩ := DocumentWrite.effective_resume holds serves
      exact effective_written h' hr hv he (fun _ hk => Database.recalls_perform none room hk)
        kept effect fun a ha => DocumentWrite.eq_ok_of_outcome? ha

end DocumentUpdate

/-! ### Any operation -/

namespace DocumentRequest

variable {policy : RetryPolicy} {documents after : Store} {key : String} {value : Value}
  {data : Bytes} {expected : Counter}

theorem allows_set (hv : value.encode? = some data) {a : Except Error Counter}
    (h : DocumentWrite.Allows policy key data none documents a after) :
    (set key value).Allows policy documents (.written a) after := by
  cases h with
  | written found =>
      have own : (set key value).Allows policy documents _ _ := .alone
      simp only [apply, Store.written, hv] at own
      exact own
  | changed expects other => cases expects
  | exhausted limited free => exact .exhausted limited (by simp [exhausted?, hv])

theorem allows_setIf (hv : value.encode? = some data) {a : Except Error Counter}
    (h : DocumentWrite.Allows policy key data (some expected) documents a after) :
    (setIf key value expected).Allows policy documents (.written a) after := by
  cases h with
  | written found =>
      have own : (setIf key value expected).Allows policy documents _ _ := .alone
      simp only [apply, Store.written, hv, found expected rfl, ne_eq, not_true, and_false,
        if_false] at own
      exact own
  | changed expects other =>
      obtain rfl := Option.some.inj expects
      have own : (setIf key value expected).Allows policy documents _ _ := .alone
      simp only [apply, hv, Option.isSome_some, ne_eq, other, not_false_eq_true, and_self,
        if_true] at own
      exact own
  | exhausted limited free =>
      rcases free with free | rfl
      · cases free
      · exact .exhausted limited (by simp [exhausted?, hv])

theorem allows_delete {a : Except Error Unit}
    (h : DocumentDelete.Allows policy key none documents a after) :
    (delete key).Allows policy documents (.deleted a) after := by
  cases h with
  | deleted found => exact .alone
  | changed expects other => cases expects
  | exhausted limited free => exact .exhausted limited rfl

theorem allows_deleteIf {a : Except Error Unit}
    (h : DocumentDelete.Allows policy key (some expected) documents a after) :
    (deleteIf key expected).Allows policy documents (.deleted a) after := by
  have own : (deleteIf key expected).Allows policy documents _ _ := .alone
  simp only [apply] at own
  cases h with
  | deleted found =>
      cases hs : documents.get? (Utf8.encode key) with
      | none =>
          rw [Store.delete_of_get?_eq_none hs]
          simp only [Store.liveCounter?, hs, Option.map_none] at own
          exact own
      | some stored =>
          have live := Store.liveCounter?_of_get? hs
          -- the document is at the expected counter, as the deletion found it
          simp only [live, found expected stored.counter rfl live, if_true] at own
          exact own
  | changed expects other =>
      obtain rfl := Option.some.inj expects
      cases hs : documents.get? (Utf8.encode key) with
      -- a deletion that lost the race against another one reports that the counter has changed
      | none => exact .missed rfl hs
      | some stored =>
          have live := Store.liveCounter?_of_get? hs
          have ne : stored.counter ≠ expected := fun same => other (same ▸ live)
          simp only [live, ne, if_false] at own
          exact own
  | exhausted limited free =>
      rcases free with free | rfl
      · cases free
      · exact .exhausted limited rfl

end DocumentRequest

namespace DocumentTask

/-- The outcome of an operation that has taken effect. -/
def outcome? : DocumentTask → Option DocumentOutcome
  | .reading _ => none
  | .writing w => w.outcome?.map .written
  | .deleting d => d.outcome?.map .deleted
  | .updating u => u.outcome?.map .updated

/-- An operation under way, as the one that a request began. -/
def Serves (table : Table) (documents : Store) : DocumentRequest → DocumentTask → Prop
  | .get key shape, .reading t => t = ⟨⟨table, key⟩, shape⟩
  | .set key value, .writing w => ∃ data, value.encode? = some data ∧ w.Serves table key data none
  | .setIf key value expected, .writing w =>
      ∃ data, value.encode? = some data ∧ w.Serves table key data (some expected)
  | .delete key, .deleting d => d.Serves table key none
  | .deleteIf key expected, .deleting d => d.Serves table key (some expected)
  | .update key modifier, .updating u => u.Serves documents table key modifier
  | _, _ => False

variable {db : Database} {table : Table} {request : DocumentRequest} {task : DocumentTask}

theorem Serves.mono {documents later : Store} (h : task.Serves table documents request)
    (recalls : ∀ key stored, documents.Recalls key stored → later.Recalls key stored) :
    task.Serves table later request := by
  cases request <;> cases task <;> try exact h
  exact DocumentUpdate.Serves.mono h fun stored hr => recalls _ stored hr

end DocumentTask

/-- What an operation becomes still serves its request, and takes effect at most in this step. -/
abbrev DocumentRequest.Proceeds (request : DocumentRequest) (table : Table)
    (before after : Store) (outcome : Option DocumentOutcome)
    (progress : Progress DocumentTask DocumentOutcome) : Prop :=
  progress.Satisfies (DocumentTask.Serves table after request) (fun _ => True) ∧
    Effective (request.Allows table.retry) before after outcome
      (progress.outcome? DocumentTask.outcome?)

namespace DocumentRequest

variable {request : DocumentRequest} {table : Table} {before after : Store}

/-- The same of the operation that stands for another one. -/
theorem proceeds_map {τ α : Type} (wrap : τ → DocumentTask) (convert : α → DocumentOutcome)
    {own? : τ → Option α} {serves : τ → Prop} {allows : Store → α → Store → Prop}
    {outcome : Option α} {progress : Progress τ α}
    (h : progress.Satisfies serves (fun _ => True) ∧
      Effective allows before after outcome (progress.outcome? own?))
    (told : ∀ t, (wrap t).outcome? = (own? t).map convert)
    (hs : ∀ t, serves t → (wrap t).Serves table after request)
    (ha : ∀ a, allows before a after → request.Allows table.retry before (convert a) after) :
    request.Proceeds table before after (outcome.map convert) (progress.map wrap convert) := by
  refine ⟨Progress.satisfies_map.2 (h.1.imp hs fun _ h => h), ?_⟩
  rw [Progress.outcome?_map told]
  exact h.2.map convert ha

/-- **An operation that begins has changed nothing**, and has taken effect if it has ended. -/
theorem effective_start (table : Table) (request : DocumentRequest) (documents : Store) :
    request.Proceeds table documents documents none (request.start table) := by
  have refused : ∀ {value : Value}, value.encode? = none → ∀ key expected,
      DocumentWrite.start table key value expected = .finished (.error .encode) := by
    intro value hv key expected
    simp only [DocumentWrite.start, hv]
  cases request with
  | get key shape => exact ⟨rfl, Or.inl ⟨rfl, rfl⟩⟩
  | set key value =>
      cases hv : value.encode? with
      | none =>
          simp only [start, Table.set, refused hv]
          have own : (set key value).Allows table.retry documents _ _ := .alone
          simp only [apply, Store.written, hv] at own
          exact ⟨trivial, Or.inr ⟨rfl, _, rfl, own⟩⟩
      | some data =>
          exact proceeds_map .writing .written
            (DocumentWrite.effective_start table key none hv documents) (fun _ => rfl)
            (fun w hw => ⟨data, hv, hw⟩) fun a => allows_set hv
  | setIf key value expected =>
      cases hv : value.encode? with
      | none =>
          simp only [start, Table.setIf, refused hv]
          have own : (setIf key value expected).Allows table.retry documents _ _ := .alone
          simp only [apply, Store.written, hv, Option.isSome_none, Bool.false_eq_true, false_and,
            if_false] at own
          exact ⟨trivial, Or.inr ⟨rfl, _, rfl, own⟩⟩
      | some data =>
          exact proceeds_map .writing .written
            (DocumentWrite.effective_start table key (some expected) hv documents) (fun _ => rfl)
            (fun w hw => ⟨data, hv, hw⟩) fun a => allows_setIf hv
  | delete key =>
      exact proceeds_map .deleting .deleted
        (DocumentDelete.effective_start table key none documents) (fun _ => rfl)
        (fun d hd => hd) fun a => allows_delete
  | deleteIf key expected =>
      exact proceeds_map .deleting .deleted
        (DocumentDelete.effective_start table key (some expected) documents) (fun _ => rfl)
        (fun d hd => hd) fun a => allows_deleteIf
  | update key modifier =>
      exact proceeds_map .updating .updated
        (DocumentUpdate.effective_start table key modifier documents) (fun _ => rfl)
        (fun u hu => hu) fun a ha => ha

end DocumentRequest

/-- **An operation takes effect in one step, as if it were alone in that step.** -/
theorem DocumentTask.effective_resume {db : Database} {table : Table} (holds : db.Holds table)
    {request : DocumentRequest} {task : DocumentTask}
    (h : task.Serves table (db.backend.store table.documents) request)
    (room : db.HasRoom (Task.call task)) :
    request.Proceeds table (db.backend.store table.documents)
      ((db.perform (Task.call task) none).2.backend.store table.documents) task.outcome?
      (Task.resume task (db.perform (Task.call task) none).1) := by
  cases task with
  | reading t =>
      cases request <;> try exact h.elim
      rename_i key shape
      obtain rfl := h
      have own : (DocumentRequest.get key shape).Allows table.retry
        (db.backend.store table.documents) _ _ := .alone
      rw [show Task.call (DocumentTask.reading ⟨⟨table, key⟩, shape⟩)
        = .get table.documents (Utf8.encode key) from rfl, Database.perform_get]
      simp only [DocumentRequest.apply] at own
      cases hs : (db.backend.store table.documents).get? (Utf8.encode key) with
      | none =>
          simp only [hs] at own
          exact ⟨trivial, Or.inr ⟨rfl, _, rfl, own⟩⟩
      | some stored =>
          simp only [hs] at own
          exact ⟨trivial, Or.inr ⟨rfl, _, rfl, own⟩⟩
  | writing w =>
      cases request <;> try exact h.elim
      · obtain ⟨data, hv, hw⟩ := h
        exact DocumentRequest.proceeds_map .writing .written
          (DocumentWrite.effective_resume holds hw) (fun _ => rfl) (fun v h => ⟨data, hv, h⟩)
          fun a => DocumentRequest.allows_set hv
      · obtain ⟨data, hv, hw⟩ := h
        exact DocumentRequest.proceeds_map .writing .written
          (DocumentWrite.effective_resume holds hw) (fun _ => rfl) (fun v h => ⟨data, hv, h⟩)
          fun a => DocumentRequest.allows_setIf hv
  | deleting d =>
      cases request <;> try exact h.elim
      · exact DocumentRequest.proceeds_map .deleting .deleted
          (DocumentDelete.effective_resume holds h) (fun _ => rfl) (fun d hd => hd)
          fun a => DocumentRequest.allows_delete
      · exact DocumentRequest.proceeds_map .deleting .deleted
          (DocumentDelete.effective_resume holds h) (fun _ => rfl) (fun d hd => hd)
          fun a => DocumentRequest.allows_deleteIf
  | updating u =>
      cases request <;> try exact h.elim
      exact DocumentRequest.proceeds_map .updating .updated
        (DocumentUpdate.effective_resume holds h room) (fun _ => rfl) (fun u hu => hu)
        fun a ha => ha

/-- Operations on documents access the stores and nothing else. -/
theorem DocumentTask.call_isAccess (task : DocumentTask) : (Task.call task).IsAccess := by
  have writing : ∀ w : DocumentWrite, (Task.call w).IsAccess := by
    intro w
    obtain ⟨table, key, data, expected, attempts, stage⟩ := w
    cases stage with
    | reading => trivial
    | writing old write => exact write.call_isAccess _ _
    | syncing counter sync => exact sync.call_isAccess
  cases task with
  | reading t => trivial
  | writing w => exact writing w
  | deleting d =>
      obtain ⟨table, key, expected, attempts, stage⟩ := d
      cases stage with
      | reading => trivial
      | erasing old counter => trivial
      | syncing sync => exact sync.call_isAccess
  | updating u =>
      obtain ⟨table, key, modifier, attempts, stage⟩ := u
      cases stage with
      | reading => trivial
      | modifying current => trivial
      | writing w => exact writing w

end DocStore
