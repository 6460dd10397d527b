/-
What an operation on a document plans.

A write reads its document and plans a conditional write for what it has read.  A deletion plans to
delete what it has read.

* `DocumentWrite.of_plan`, `DocumentWrite.write_of_plan`, `DocumentWrite.accepts_of_plan` — a
  planned write replaces what was read by the bytes of the write;
* `DocumentWrite.of_plan_eq_error` — there is no plan where the caller expects another counter;
* `DocumentWrite.resume_of_plan`, `DocumentWrite.resume_of_plan_eq_error` — how the write goes on;
* `DocumentWrite.get?_of_plan` — **a planned write that goes through replaces what was read**;
* `DocumentDelete.resume_found` — a deletion goes on with what it has read, or it has failed;
* `DocumentWrite.resume_lost`, `DocumentDelete.resume_lost` — a lost race fails or starts over;
* `DocumentWrite.resume_failed`, `DocumentDelete.resume_failed` — and so does every write that does
  not go through.
-/

import DocStore.Proofs.Database.Stores
import DocStore.Table.Delete
import DocStore.Table.Read
import DocStore.Table.Write

set_option autoImplicit false

namespace DocStore

/-- A document of a shape keeps the counter of its bytes. -/
theorem Versioned.counter_of_decode {stored : Versioned Bytes} {shape : Shape}
    {current : Versioned Value} (h : stored.decode shape = .ok current) :
    current.counter = stored.counter := by
  unfold Versioned.decode at h
  split at h
  · rw [← Except.ok.inj h]
  · cases h

namespace DocumentWrite

/-- A planned write replaces what was read, which is at the expected counter if there is one. -/
theorem of_plan {w : DocumentWrite} {stored : Option (Versioned Bytes)} {old : Bytes}
    {write : SlotWrite} (h : w.plan stored = .ok (old, write)) :
    stored = none ∧ w.expected = none ∧ old = [] ∧ write = .create w.data ∨
      ∃ v, stored = some v ∧ (∀ c, w.expected = some c → c = v.counter) ∧ old = v.value ∧
        write = .replace w.data v.counter := by
  cases stored with
  | none =>
      cases he : w.expected with
      | some c => simp [plan, he] at h
      | none =>
          simp only [plan, he, Option.isSome_none, Bool.false_eq_true, if_false, Except.ok.injEq,
            Prod.mk.injEq] at h
          exact Or.inl ⟨rfl, rfl, h.1.symm, h.2.symm⟩
  | some v =>
      by_cases hc : w.expected.any (· != v.counter)
      · simp [plan, hc] at h
      · simp only [plan, hc, if_false, Bool.false_eq_true, Except.ok.injEq, Prod.mk.injEq] at h
        refine Or.inr ⟨v, rfl, ?_, h.1.symm, h.2.symm⟩
        intro c he
        simpa [he] using hc

/-- A planned write leaves the bytes behind, and finds the expected counter if there is one. -/
theorem write_of_plan {w : DocumentWrite} {stored : Option (Versioned Bytes)} {old : Bytes}
    {write : SlotWrite} (h : w.plan stored = .ok (old, write)) :
    (∀ result, write.reply result = .counter result) ∧ write.value? = some w.data ∧
      ∀ c, w.expected = some c → ∀ current : Option (Versioned Bytes),
        write.Accepts current ↔ current.map Versioned.counter = some c := by
  rcases of_plan h with ⟨-, none, -, rfl⟩ | ⟨v, -, expects, -, rfl⟩
  · refine ⟨fun _ => rfl, rfl, fun c hc => ?_⟩
    rw [none] at hc
    cases hc
  · refine ⟨fun _ => rfl, rfl, fun c hc current => ?_⟩
    rw [expects c hc]
    rfl

/-- A planned write fits what was read, and keeps the bytes that it replaces. -/
theorem accepts_of_plan {w : DocumentWrite} {stored : Option (Versioned Bytes)} {old : Bytes}
    {write : SlotWrite} (h : w.plan stored = .ok (old, write)) :
    write.Accepts stored ∧ old = stored.elim [] Versioned.value := by
  rcases of_plan h with ⟨rfl, -, rfl, rfl⟩ | ⟨v, rfl, -, rfl, rfl⟩
  · exact ⟨rfl, rfl⟩
  · exact ⟨rfl, rfl⟩

/-- There is no plan where the caller expects another counter. -/
theorem of_plan_eq_error {w : DocumentWrite} {stored : Option (Versioned Bytes)} {e : Error}
    (h : w.plan stored = .error e) :
    e = .counterChanged ∧ ∃ c, w.expected = some c ∧ stored.map Versioned.counter ≠ some c := by
  cases stored with
  | none =>
      cases he : w.expected with
      | none => simp [plan, he] at h
      | some c =>
          simp only [plan, he, Option.isSome_some, if_true, Except.error.injEq] at h
          exact ⟨h.symm, c, rfl, by simp⟩
  | some v =>
      by_cases hc : w.expected.any (· != v.counter)
      · simp only [plan, hc, if_true, Except.error.injEq] at h
        cases he : w.expected with
        | none => simp [he] at hc
        | some c =>
            have ne : c ≠ v.counter := by simpa [he] using hc
            exact ⟨h.symm, c, rfl, by simpa using ne.symm⟩
      · simp [plan, hc] at h

/-- A write that has a plan goes on with it. -/
theorem resume_of_plan {w : DocumentWrite} (reading : w.stage = .reading)
    {stored : Option (Versioned Bytes)} {old : Bytes} {write : SlotWrite}
    (h : w.plan stored = .ok (old, write)) :
    Task.resume w (.document (.ok stored)) = .waiting { w with stage := .writing old write } := by
  simp only [Task.resume, reading, h]

/-- A write that has no plan has failed. -/
theorem resume_of_plan_eq_error {w : DocumentWrite} (reading : w.stage = .reading)
    {stored : Option (Versioned Bytes)} {e : Error} (h : w.plan stored = .error e) :
    Task.resume w (.document (.ok stored)) = .finished (.error e) := by
  simp only [Task.resume, reading, h]

/-- A write that has lost the race fails if the caller expects a counter, and else starts over. -/
theorem resume_lost {w : DocumentWrite} {old : Bytes} {write : SlotWrite}
    (writing : w.stage = .writing old write) :
    (∃ c, w.expected = some c ∧
        Task.resume w (.counter (.error .swapMismatch)) = .finished (.error .counterChanged)) ∨
      w.expected = none ∧ Task.resume w (.counter (.error .swapMismatch)) = w.again := by
  simp only [Task.resume, writing]
  cases w.expected with
  | some c => exact Or.inl ⟨c, rfl, rfl⟩
  | none => exact Or.inr ⟨rfl, rfl⟩

/-- A conditional write that does not go through fails the operation, or starts it over. -/
theorem resume_failed {w : DocumentWrite} {old : Bytes} {write : SlotWrite}
    (writing : w.stage = .writing old write) (e : Error) :
    (∃ e', Task.resume w (.counter (.error e)) = .finished (.error e')) ∨
      Task.resume w (.counter (.error e)) = w.again := by
  by_cases lost : e = .swapMismatch
  · rw [lost]
    rcases resume_lost writing with ⟨c, -, failed⟩ | ⟨-, again⟩
    · exact Or.inl ⟨_, failed⟩
    · exact Or.inr again
  · refine Or.inl ⟨e, ?_⟩
    simp only [Task.resume, writing]

/-- **A planned write that goes through replaces what was read**, as long as no counter of the key
has been used twice. -/
theorem get?_of_plan {w : DocumentWrite} {stored : Option (Versioned Bytes)} {old : Bytes}
    {write : SlotWrite} (h : w.plan stored = .ok (old, write)) {store : Store} {key : Bytes}
    (recalls : ∀ v, stored = some v → store.Recalls key v)
    (accepts : write.Accepts (store.get? key)) :
    store.get? key = stored ∧ old = stored.elim [] Versioned.value := by
  rcases of_plan h with ⟨rfl, -, rfl, rfl⟩ | ⟨v, rfl, -, rfl, rfl⟩
  · exact ⟨accepts, rfl⟩
  · exact ⟨(recalls v rfl).get?_eq accepts, rfl⟩

end DocumentWrite

namespace DocumentDelete

variable {d : DocumentDelete}

/-- A deletion goes on with what it has read, unless the caller expects another counter. -/
theorem resume_found (reading : d.stage = .reading) (stored : Versioned Bytes) :
    (∃ c, d.expected = some c ∧ c ≠ stored.counter ∧
        Task.resume d (.document (.ok (some stored))) = .finished (.error .counterChanged)) ∨
      (∀ c, d.expected = some c → c = stored.counter) ∧
        Task.resume d (.document (.ok (some stored)))
          = .waiting { d with stage := .erasing stored.value stored.counter } := by
  simp only [Task.resume, reading]
  cases d.expected with
  | none => exact Or.inr ⟨by simp, rfl⟩
  | some c =>
      by_cases same : c = stored.counter
      · exact Or.inr ⟨fun _ h => Option.some.inj h ▸ same, by simp [same]⟩
      · exact Or.inl ⟨c, rfl, same, by simp [same]⟩

/-- A deletion that has lost the race fails if the caller expects a counter, and else starts
over. -/
theorem resume_lost {old : Bytes} {counter : Counter} (erasing : d.stage = .erasing old counter) :
    (∃ c, d.expected = some c ∧
        Task.resume d (.done (.error .swapMismatch)) = .finished (.error .counterChanged)) ∨
      d.expected = none ∧ Task.resume d (.done (.error .swapMismatch)) = d.again := by
  simp only [Task.resume, erasing]
  cases d.expected with
  | some c => exact Or.inl ⟨c, rfl, rfl⟩
  | none => exact Or.inr ⟨rfl, rfl⟩

/-- A deletion that does not go through fails the operation, or starts it over. -/
theorem resume_failed {old : Bytes} {counter : Counter} (erasing : d.stage = .erasing old counter)
    (e : Error) :
    (∃ e', Task.resume d (.done (.error e)) = .finished (.error e')) ∨
      Task.resume d (.done (.error e)) = d.again := by
  by_cases lost : e = .swapMismatch
  · rw [lost]
    rcases resume_lost erasing with ⟨c, -, failed⟩ | ⟨-, again⟩
    · exact Or.inl ⟨_, failed⟩
    · exact Or.inr again
  · refine Or.inl ⟨e, ?_⟩
    simp only [Task.resume, erasing]

end DocumentDelete

end DocStore
