/-
How the upkeep of indexes goes on.

A settling stands for the change of its bucket until that ends, a queue for its present settling,
and bringing the indexes in line for the change of a bucket that is under way.  What comes next is
said here once for each of them, and proofs about their steps start from it.

* `RetryPolicy.begin_attempts`, `Attempts.begin_cases` — when an attempt begins;
* `Settling.edited_eq_andThen` — a settling, after the change of its bucket;
* `SettleQueue.start_cons`, `SettleQueue.resume_eq_andThen` — a queue, after its present settling;
* `SettleQueue.start_eq_finished` — a queue whose settlings may make no attempt;
* `IndexSync.edit_cons`, `IndexSync.resume_editing` — the upkeep for a document, after one of its
  changes;
* `IndexSync.resume_reading_of_nil`, `IndexSync.resume_reading_of_cons` — and after it has looked up
  the indexes.
-/

import DocStore.Index.Sync
import DocStore.Proofs.Run.System

set_option autoImplicit false

namespace DocStore

/-! ### Attempts -/

/-- The first attempt begins, unless there may be none. -/
theorem RetryPolicy.begin_attempts {policy : RetryPolicy} (tries : policy.maxAttempts ≠ some 0)
    (key : Bytes) : (policy.attempts key).begin = .ok (policy.attempts key).counted := by
  unfold Attempts.begin
  split
  · rename_i limit hl
    refine if_neg fun none => tries ?_
    rw [show policy.maxAttempts = some limit from hl, UInt32.le_zero_iff.1 none]
  · rfl

/-- No attempt begins where there may be none. -/
theorem RetryPolicy.begin_attempts_eq_error {policy : RetryPolicy}
    (none : policy.maxAttempts = some 0) (key : Bytes) :
    ∃ e, (policy.attempts key).begin = .error e := by
  unfold Attempts.begin
  rw [show (policy.attempts key).limit = some 0 from none]
  exact ⟨_, if_pos UInt32.zero_le⟩

/-- A policy under which an attempt begins allows for one. -/
theorem RetryPolicy.tries_of_begin {policy : RetryPolicy} {key : Bytes} {attempts : Attempts}
    (h : (policy.attempts key).begin = .ok attempts) : policy.maxAttempts ≠ some 0 := by
  intro none
  obtain ⟨e, failed⟩ := begin_attempts_eq_error none key
  rw [failed] at h
  cases h

/-- Another attempt begins, unless there is a limit. -/
theorem Attempts.begin_cases (attempts : Attempts) :
    attempts.begin = .ok attempts.counted ∨
      ∃ e, attempts.begin = .error e ∧ attempts.limit ≠ none := by
  unfold Attempts.begin
  split
  · rename_i limit hl
    split
    · exact Or.inr ⟨_, rfl, hl ▸ nofun⟩
    · exact Or.inl rfl
  · exact Or.inl rfl

/-! ### Going on -/

/-- A settling goes on after the change of its bucket. -/
theorem Settling.edited_eq_andThen (s : Settling) (seen : Option Counter)
    (progress : Progress BucketEdit (Except Error Unit)) :
    s.edited seen progress
      = progress.andThen (fun edit => { s with stage := .editing seen edit }) fun
          | .ok () => .waiting { s with stage := .after seen }
          | .error e => .finished (.error e) := by
  match progress with
  | .waiting edit => rfl
  | .finished (.ok ()) => rfl
  | .finished (.error e) => rfl

namespace SettleQueue

/-- A queue begins with its first settling. -/
theorem start_cons (m : Membership) (rest : List Membership) :
    start (m :: rest)
      = (Settling.start m).andThen (fun current => ⟨current, rest⟩) fun _ => start rest := by
  rw [start]
  cases Settling.start m <;> rfl

/-- Where there may be no attempt, a queue has ended before it begins. -/
theorem start_eq_finished {memberships : List Membership}
    (none : ∀ m ∈ memberships, m.index.retry.maxAttempts = some 0) :
    start memberships = .finished () := by
  induction memberships with
  | nil => rfl
  | cons m rest ih =>
      obtain ⟨e, failed⟩ := RetryPolicy.begin_attempts_eq_error (none m List.mem_cons_self)
        m.indexKey
      have ended : Settling.start m = .finished (.error e) := by
        unfold Settling.start Settling.again
        rw [failed]
      rw [start_cons, ended]
      exact ih fun n hn => none n (List.mem_cons_of_mem m hn)

/-- A queue goes on with what is left after its present settling. -/
theorem resume_eq_andThen (queue : SettleQueue) (reply : Reply) :
    Task.resume queue reply
      = (Task.resume queue.current reply).andThen (fun current => { queue with current })
          fun _ => start queue.rest := by
  cases hs : Task.resume queue.current reply with
  | waiting current =>
      simp only [Task.resume] at hs ⊢
      rw [hs]
      rfl
  | finished result =>
      simp only [Task.resume] at hs ⊢
      rw [hs]
      rfl

end SettleQueue

namespace IndexSync

/-- What is under way does not matter for what comes next. -/
theorem edit_with_stage (sync : IndexSync) (stage : Stage) (touched : List Membership)
    (changes : List (Membership × Bucket.Change)) :
    edit { sync with stage } touched changes = sync.edit touched changes := by
  induction changes with
  | nil => rfl
  | cons c rest ih =>
      unfold edit
      split
      · rfl
      · exact ih

/-- The changes begin with the first one. -/
theorem edit_cons (sync : IndexSync) (touched : List Membership) (m : Membership)
    (change : Bucket.Change) (rest : List (Membership × Bucket.Change)) :
    (.waiting (sync.edit touched ((m, change) :: rest)) : Progress IndexSync Unit)
      = (BucketEdit.start m.index m.indexKey change m.document).andThen
          (fun edit => { sync with stage := .editing edit rest touched })
          fun _ => .waiting (sync.edit touched rest) := by
  rw [IndexSync.edit]
  cases BucketEdit.start m.index m.indexKey change m.document <;> rfl

/-- The operation goes on with the changes that are left. -/
theorem resume_editing (sync : IndexSync) (edit : BucketEdit)
    (rest : List (Membership × Bucket.Change)) (touched : List Membership) (reply : Reply) :
    Task.resume { sync with stage := .editing edit rest touched } reply
      = (Task.resume edit reply).andThen
          (fun edit => { sync with stage := .editing edit rest touched })
          fun _ => .waiting (sync.edit touched rest) := by
  cases hs : Task.resume edit reply with
  | waiting e =>
      simp only [Task.resume] at hs ⊢
      rw [hs]
      rfl
  | finished result =>
      simp only [Task.resume] at hs ⊢
      rw [hs]
      exact congrArg Progress.waiting (edit_with_stage sync _ touched rest)

variable {sync : IndexSync} {indexes : List Index} {old new : Bytes}

/-- The operation ends when there is nothing to change. -/
theorem resume_reading_of_nil (reading : sync.stage = .reading old new)
    (none : changes indexes sync.document old new = []) :
    Task.resume sync (.indexes indexes) = .finished () := by
  simp only [Task.resume, reading, none]

/-- The operation goes on with the changes that are demanded. -/
theorem resume_reading_of_cons (reading : sync.stage = .reading old new)
    {c : Membership × Bucket.Change} {rest : List (Membership × Bucket.Change)}
    (some : changes indexes sync.document old new = c :: rest) :
    Task.resume sync (.indexes indexes)
      = .waiting (sync.edit ((c :: rest).map (·.1)) (c :: rest)) := by
  simp only [Task.resume, reading, some]

end IndexSync

end DocStore
