/-
How many attempts an operation counts.

Every loop of the database calls for each of its rounds, so that the number of its attempts is that
of the rounds that it has begun.  With a limit this number stays in range.  Without one it does not:
nobody keeps others from writing a document again and again, and as each of their writes takes a
round from a write of the same document, it can be made to count as far as anybody likes, and then
past the last number.  Operations that expect a counter have no second round and are left out here.

* `SlotWrite.not_accepts_applied` — **a conditional write does not go through twice;**
* `DocumentWrite.Tries`, `DocumentWrite.Tries.exists_turns` — a round is lost when somebody else
  makes the same write first;
* `DocumentWrite.exists_turns_called` — **without a limit a write may call any number of times;**
* `attempts_counted` — **what the attempts of every operation count, and which calls count out of
  range;**
* `attempts_come_round` — a write that comes round to zero.
-/

import DocStore.Proofs.Documents.Budgets
import DocStore.Proofs.Run.Attempts

set_option autoImplicit false

namespace DocStore

/-! ### The same write twice -/

/-- A key that is written moves on from the counter at which it is found. -/
theorem Store.next_ne {store : Store} {key : Bytes} {counter : Counter}
    (live : store.liveCounter? key = some counter) : store.next key ≠ counter := by
  obtain ⟨stored, found, rfl⟩ := Option.map_eq_some_iff.1 live
  obtain ⟨slot, there, versioned⟩ := Option.bind_eq_some_iff.1 found
  obtain ⟨value, -, rfl⟩ := Option.map_eq_some_iff.1 versioned
  rw [next, there, Option.elim_some]
  intro same
  have moved : (slot.counter.toNat + 1) % 2 ^ 64 = slot.counter.toNat := congrArg UInt64.toNat same
  have small := slot.counter.toNat_lt
  omega

/-- **A conditional write does not go through twice.** -/
theorem SlotWrite.not_accepts_applied {write : SlotWrite} {store : Store} {key : Bytes}
    (accepts : write.Accepts (store.get? key)) :
    ¬ write.Accepts ((write.applied store key).get? key) := by
  rw [Store.get?_applied, if_pos rfl]
  cases write with
  | create value => nofun
  | erase expected => nofun
  | replace value expected => exact fun again => Store.next_ne accepts (Option.some.inj again)

/-! ### Losing rounds -/

namespace DocumentWrite

variable {table : Table} {key : String} {w : DocumentWrite} {db : Database}

/-- A write that has read its document goes on with a write of it, if it expects no counter. -/
theorem exists_of_reading (races : w.Races table key none) (reading : w.raceStage = .reading)
    (stored : Option (Versioned Bytes)) :
    ∃ v write, Task.resume w (.document (.ok stored)) = .waiting v ∧ v.Races table key none ∧
      v.raceStage = .writing write ∧ write.Accepts stored ∧ v.attempts = w.attempts := by
  have goes := (races_read races reading stored).and ((asks table key).read stored races reading)
  cases next : Task.resume w (.document (.ok stored)) with
  | finished result =>
      rw [next] at goes
      obtain ⟨⟨_, ⟨⟩, -⟩, -⟩ := goes
  | waiting v =>
      rw [next] at goes
      obtain ⟨⟨races, write, writing, accepts⟩, same⟩ := goes
      exact ⟨v, write, rfl, races, writing, accepts, same⟩

/-- A write that has lost a round begins another one, if there is no limit. -/
theorem exists_of_writing (races : w.Races table key none) {write : SlotWrite}
    (writing : w.raceStage = .writing write) (unlimited : w.attempts.limit = none) :
    ∃ v, Task.resume w (write.reply (.error .swapMismatch)) = .waiting v ∧
      v.Races table key none ∧ v.raceStage = .reading ∧ v.attempts.limit = none := by
  rcases resume_lost_race races writing with ⟨_, ⟨⟩, -⟩ | ⟨-, again⟩
  obtain ⟨v, next, races, reading, same⟩ := (asked_again races).of_none unlimited
  exact ⟨v, again.trans next, races, reading, by rw [same]; exact unlimited⟩

/-- A write that is about to begin another round, and has no limit. -/
structure Tries (table : Table) (key : String) (db : Database) (w : DocumentWrite) : Prop where
  races : w.Races table key none
  reading : w.raceStage = .reading
  unlimited : w.attempts.limit = none
  there : table.documents < db.backend.stores.length

/-- **A round is lost** when somebody else makes the same write first. -/
theorem Tries.exists_turns (tries : w.Tries table key db) :
    ∃ turns after v, (⟨db, .waiting w⟩ : Amid DocumentWrite _).run turns = ⟨after, .waiting v⟩ ∧
      v.Tries table key after ∧ (asks table key).ration.lost ⟨db, .waiting w⟩ turns = 1 := by
  obtain ⟨races, reading, unlimited, there⟩ := tries
  obtain ⟨v, write, plans, racing, writing, accepts, same⟩ := exists_of_reading races reading
    ((db.backend.store table.documents).get? (Utf8.encode key))
  obtain ⟨u, again, races', reading', unlimited'⟩ := exists_of_writing racing writing
    (same ▸ unlimited)
  let call := write.call table.documents (Utf8.encode key)
  let after := (db.perform call none).2
  have refused : ¬ write.Accepts
      ((after.backend.store table.documents).get? (Utf8.encode key)) := by
    rw [db.store_perform_write accepts there]
    exact SlotWrite.not_accepts_applied accepts
  have reads : (⟨db, .waiting w⟩ : Amid DocumentWrite _).turn .own = ⟨db, .waiting v⟩ := by
    rw [Amid.turn_own rfl, call_of_reading races reading, db.perform_get, plans]
  have writes : (⟨after, .waiting v⟩ : Amid DocumentWrite _).turn .own = ⟨after, .waiting u⟩ := by
    rw [Amid.turn_own rfl, call_of_writing racing writing, after.perform_write_of_not refused, again]
  refine ⟨[.own, .other call none, .own], after, u, ?_, ⟨races', reading', unlimited', ?_⟩, ?_⟩
  · simp only [Amid.run, List.foldl_cons, List.foldl_nil, reads]
    exact writes
  · exact Nat.lt_of_lt_of_le there (db.length_perform call none)
  · have kept : (race table key).loses db w = false := by
      simp only [Race.loses, race, reading]
    have lost : (race table key).loses after v = true :=
      (Race.loses_iff racing).2 ⟨write, writing, refused⟩
    simp only [Ration.lost, Amid.times, Amid.tally, reads]
    change (if (race table key).loses db w then 1 else 0)
      + (0 + ((if (race table key).loses after v then 1 else 0) + 0)) = 1
    rw [kept, lost]
    rfl

/-- **As many rounds are lost as others make it lose.** -/
theorem Tries.exists_turns_lost (tries : w.Tries table key db) (n : Nat) :
    ∃ turns after v, (⟨db, .waiting w⟩ : Amid DocumentWrite _).run turns = ⟨after, .waiting v⟩ ∧
      v.Tries table key after ∧ (asks table key).ration.lost ⟨db, .waiting w⟩ turns = n := by
  induction n with
  | zero => exact ⟨[], db, w, rfl, tries, rfl⟩
  | succ n ih =>
      obtain ⟨turns, after, v, runs, trying, lost⟩ := ih
      obtain ⟨more, last, u, goes, again, one⟩ := trying.exists_turns
      refine ⟨turns ++ more, last, u, ?_, again, ?_⟩
      · rw [Amid.run_append, runs, goes]
      · rw [← lost, ← one, ← runs]
        exact Amid.tally_append _ _ turns more

/-- A write tries, if there is no limit and its value can be written. -/
theorem exists_tries (there : table.documents < db.backend.stores.length)
    (unlimited : table.retry.maxAttempts = none) (key : String) {value : Value} {data : Bytes}
    (encodable : value.encode? = some data) :
    ∃ w, table.set key value = .waiting w ∧ w.Tries table key db := by
  obtain ⟨w, started, races, reading, same⟩ :=
    (asked_start table key encodable none).of_none unlimited
  exact ⟨w, started, races, reading, by rw [same]; exact unlimited, there⟩

theorem Tries.phase_ne_ended (tries : w.Tries table key db) :
    (race table key).loop.phase w ≠ .ended := by
  have begins : (race table key).loop.phase w = .begins :=
    congrArg Race.Stage.phase tries.reading
  intro ended
  rw [begins] at ended
  cases ended

/-- **Without a limit a write may call any number of times**, each time for a round that it loses. -/
theorem exists_turns_called (there : table.documents < db.backend.stores.length)
    (unlimited : table.retry.maxAttempts = none) (key : String) {value : Value} {data : Bytes}
    (encodable : value.encode? = some data) (n : Nat) :
    ∃ turns w, ((⟨db, table.set key value⟩ : Amid DocumentWrite _).run turns).progress
        = .waiting w ∧ w.raceStage = .reading ∧
      w.attempts = (table.retry.attempts (Utf8.encode key)).called (n + 1) := by
  obtain ⟨w, started, tries⟩ := exists_tries there unlimited key encodable
  obtain ⟨turns, after, v, runs, trying, lost⟩ := tries.exists_turns_lost n
  have counts : (asks table key).ration.Counts table.retry (Utf8.encode key)
      ⟨db, table.set key value⟩ :=
    (asks table key).counts (asked_start table key encodable none)
  rw [started] at counts ⊢
  have waits : ((⟨db, .waiting w⟩ : Amid DocumentWrite _).run turns).progress = .waiting v := by
    rw [runs]
  have same := counts.attempts_eq turns v waits trying.phase_ne_ended
  rw [lost] at same
  exact ⟨turns, v, waits, trying.reading, same⟩

end DocumentWrite

/-! ### Every operation -/

/-- **What attempts count.**  With a limit every call below it goes through and is counted, every
other one is refused, and none counts out of range.  Without a limit every call goes through; so
many calls count within range if there is a number for them, and they are counted up to multiples
of 2³².  A loop of the database calls once more than it loses rounds, and gives up only at a
limit. -/
theorem attempts_counted (db : Database) :
    (∀ (policy : RetryPolicy) (key : Bytes) (n : Nat),
      (∀ m, policy.maxAttempts = some m →
        ((policy.attempts key).called n).made.toNat = min n m.toNat ∧
          ((policy.attempts key).called n).begin
            = if n < m.toNat then .ok ((policy.attempts key).called (n + 1))
              else .error (.retryLimitExceeded (Utf8.lossy key) m)) ∧
      (policy.maxAttempts = none →
        ((policy.attempts key).called n).made.toNat = n % UInt32.size ∧
          ((policy.attempts key).called n).begin = .ok ((policy.attempts key).called (n + 1))) ∧
      ((∀ k < n, ¬ ((policy.attempts key).called k).Overflows)
        ↔ policy.maxAttempts = none → n < UInt32.size)) ∧
    (∀ (table : Table) (key : String),
      (∀ (value : Value) (data : Bytes), value.encode? = some data →
        (DocumentWrite.asks table key).ration.Counts table.retry (Utf8.encode key)
          ⟨db, table.set key value⟩) ∧
      (DocumentDelete.asks table key).ration.Counts table.retry (Utf8.encode key)
        ⟨db, table.delete key⟩ ∧
      ∀ modifier : Modifier,
        (DocumentUpdate.ration table key).Counts table.retry (Utf8.encode key)
          ⟨db, table.update key modifier⟩) ∧
    (∀ (index : Index) (indexKey : Bytes) (change : Bucket.Change) (document : String),
      (BucketEdit.asks index indexKey).ration.Counts index.retry indexKey
        ⟨db, BucketEdit.start index indexKey change document⟩) ∧
    ∀ (n : Membership) (apart : n.index.buckets ≠ n.index.documents),
      (Settling.ration n apart).Counts n.index.retry n.indexKey ⟨db, Settling.start n⟩ := by
  refine ⟨fun policy key n => ⟨fun m limited => ?_, fun unlimited => ?_, ?_⟩, fun table key =>
    ⟨fun value data encodable => ?_, ?_, fun modifier => ?_⟩, fun index indexKey change document =>
      ?_, fun n apart => ?_⟩
  · exact ⟨Attempts.toNat_made_called key n limited, Attempts.begin_called key n limited⟩
  · have begun := Attempts.begin_called_of_none key n unlimited
    exact ⟨Attempts.toNat_made_called_of_none key n unlimited,
      begun.trans (congrArg Except.ok (Attempts.called_succ begun).symm)⟩
  · exact Attempts.not_overflows_iff key n
  · exact (DocumentWrite.asks table key).counts (DocumentWrite.asked_start table key encodable none)
  · exact (DocumentDelete.asks table key).counts (DocumentDelete.asked_start table key)
  · exact (DocumentUpdate.ration table key).counts (DocumentUpdate.asked_start table key modifier)
  · exact (BucketEdit.asks index indexKey).counts
      (BucketEdit.asked_start index indexKey change document)
  · exact (Settling.ration n apart).counts (Settling.asked_start n apart)

/-- With a limit of three the fourth call is refused; without one there are 4294967295 calls within
range, and a write calls twice if the document is created while it is written. -/
theorem attempts_counted_of_policies :
    ∃ (limited : RetryPolicy) (key : Bytes) (db : Database) (table : Table) (create : Turn)
      (w : DocumentWrite),
      limited.maxAttempts = some 3 ∧ ((limited.attempts key).called 4).made.toNat = 3 ∧
      ((limited.attempts key).called 3).begin
        = .error (.retryLimitExceeded (Utf8.lossy key) 3) ∧
      ((RetryPolicy.unbounded.attempts key).called 4294967295).made.toNat = 4294967295 ∧
      (∀ k < 4294967295, ¬ ((RetryPolicy.unbounded.attempts key).called k).Overflows) ∧
      ((⟨db, table.set "x" (.bool true)⟩ : Amid DocumentWrite _).run [.own, create, .own]).progress
        = .waiting w ∧
      w.attempts = (table.retry.attempts (Utf8.encode "x")).called 2 := by
  let limited : RetryPolicy := ⟨some 3, 0, 0⟩
  let key := Utf8.encode "x"
  let data := (Value.bool true).encoding
  let db : Database := ((Database.empty ⟨.unbounded⟩).perform (.registerTable "t") none).2
  let table : Table := ⟨0, "t", 0, .unbounded⟩
  let create : Turn := .other (.create 0 key data) none
  let w : DocumentWrite := ⟨table, "x", data, none, ⟨none, key, 2⟩, .reading⟩
  have waits : ((⟨db, table.set "x" (.bool true)⟩ : Amid DocumentWrite _).run
      [.own, create, .own]).progress = .waiting w := by rfl
  have lost : (DocumentWrite.asks table "x").ration.lost ⟨db, table.set "x" (.bool true)⟩
      [.own, create, .own] = 1 := by decide +kernel
  obtain ⟨counted, loops, -⟩ := attempts_counted db
  refine ⟨limited, key, db, table, create, w, rfl, ?_, ?_, ?_, ?_, waits, ?_⟩
  · exact ((counted limited key 4).1 3 rfl).1
  · exact ((counted limited key 3).1 3 rfl).2
  · exact ((counted .unbounded key 4294967295).2.1 rfl).1
  · exact (counted .unbounded key 4294967295).2.2.2 fun _ => by decide
  · have same := ((loops table "x").1 (.bool true) data rfl).attempts_eq _ w waits (by decide)
    rwa [lost] at same

/-- **Without a limit a write may call 4294967296 times**, with which it counts out of range and
comes round to zero. -/
theorem attempts_come_round :
    ∃ (db : Database) (table : Table) (turns : List Turn) (w : DocumentWrite),
      table.retry = .unbounded ∧
      ((⟨db, table.set "x" (.bool true)⟩ : Amid DocumentWrite _).run turns).progress
        = .waiting w ∧
      w.attempts = (RetryPolicy.unbounded.attempts (Utf8.encode "x")).called 4294967296 ∧
      ((RetryPolicy.unbounded.attempts (Utf8.encode "x")).called 4294967295).Overflows ∧
      w.attempts.made = 0 := by
  let db : Database := ((Database.empty ⟨.unbounded⟩).perform (.registerTable "t") none).2
  let table : Table := ⟨0, "t", 0, .unbounded⟩
  have there : table.documents < db.backend.stores.length := by decide
  have encodable : (Value.bool true).encode? = some (Value.bool true).encoding := rfl
  obtain ⟨turns, w, waits, -, same⟩ :=
    DocumentWrite.exists_turns_called there rfl "x" encodable 4294967295
  have round := Attempts.toNat_made_called_of_none (Utf8.encode "x") 4294967296
    (show RetryPolicy.unbounded.maxAttempts = none from rfl)
  refine ⟨db, table, turns, w, rfl, waits, same, ?_, ?_⟩
  · exact (Attempts.overflows_called_iff (Utf8.encode "x") 4294967295).2 ⟨rfl, rfl⟩
  · rw [same]
    exact UInt32.toNat_inj.1 round

end DocStore
