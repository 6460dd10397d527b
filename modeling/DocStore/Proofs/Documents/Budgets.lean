/-
How often an operation on a document may be tried.

A write and a deletion ask their policy before each reading of their document.  If the caller
expects a counter, there is one round: whoever finds the document elsewhere fails, and does not
begin another one.  An update hands its result to such a write, so that it is the update that begins
again; the write has a budget of its own, of which it needs one round.

* `DocumentWrite.asks`, `DocumentDelete.asks` — operations that ask for every round;
* `DocumentWrite.once`, `DocumentDelete.once` — **operations of one round;**
* `DocumentUpdate.ration` — an update asks for every round;
* `DocumentUpdate.Modifies`, `DocumentUpdate.modifies` — **a modifier is called once a round at
  most, with what has been read in that round;**
* `budgets_exact` — **the budget of every operation is exact**: rounds begin as long as they are
  lost to others and there are any left, and who has lost them all gives up.
-/

import DocStore.Proofs.Documents.Rounds
import DocStore.Proofs.Index.Budgets
import DocStore.Proofs.Text.Lossy

set_option autoImplicit false

namespace DocStore

variable {table : Table} {key : String} {m : UInt32}

/-! ### Writing -/

namespace DocumentWrite

variable {w : DocumentWrite} {expected : Option Counter} {c : Counter} {db : Database}

theorem asked_again (h : w.Races table key expected) :
    w.again.Asked w.attempts .error
      fun next v => v.Races table key expected ∧ v.raceStage = .reading ∧ v.attempts = next := by
  unfold again Progress.Asked
  cases w.attempts.begin with
  | ok next => exact ⟨⟨h.ofTable, h.ofKey, h.ofExpected, nofun⟩, rfl, rfl⟩
  | error e => rfl

theorem asked_start (table : Table) (key : String) {value : Value} {data : Bytes}
    (encodable : value.encode? = some data) (expected : Option Counter) :
    (start table key value expected).Asked (table.retry.attempts (Utf8.encode key)) .error
      fun next v => v.Races table key expected ∧ v.raceStage = .reading ∧ v.attempts = next := by
  unfold start
  rw [encodable]
  exact asked_again ⟨rfl, rfl, rfl, nofun⟩

/-- A write that has been made reports nothing but its counter. -/
theorem attempts_synced (w : DocumentWrite) (counter : Counter)
    (progress : Progress IndexSync Unit) :
    (w.synced counter progress).Satisfies (fun v => v.attempts = w.attempts)
      fun result => result = .ok counter := by
  cases progress with
  | waiting sync => rfl
  | finished result => rfl

/-- A write that has lost the race fails if the caller expects a counter, and else starts over. -/
theorem resume_lost_race (h : w.Races table key expected) {write : SlotWrite}
    (writing : w.raceStage = .writing write) :
    (∃ c, expected = some c ∧ Task.resume w (write.reply (.error .swapMismatch))
        = .finished (.error .counterChanged)) ∨
      expected = none ∧ Task.resume w (write.reply (.error .swapMismatch)) = w.again := by
  obtain ⟨old, stage⟩ := stage_of_raceStage_eq_writing writing
  obtain ⟨stored, planned⟩ := h.planned old write stage
  rw [(write_of_plan planned).1, ← h.ofExpected]
  exact resume_lost stage

/-- A write asks for every round. -/
def asks (table : Table) (key : String) : (race table key).Asks where
  attempts := DocumentWrite.attempts
  report := .error
  reports same := Except.error.inj same
  read := by
    intro w stored races reading
    have stage := stage_of_raceStage_eq_reading reading
    cases planned : w.plan stored with
    | error e =>
        rw [resume_of_plan_eq_error stage planned, (of_plan_eq_error planned).1]
        nofun
    | ok next =>
        rw [resume_of_plan stage planned]
        rfl
  won := by
    intro w write counter races writing
    obtain ⟨old, stage⟩ := stage_of_raceStage_eq_writing writing
    obtain ⟨stored, planned⟩ := races.planned old write stage
    rw [(write_of_plan planned).1]
    simp only [Task.resume, stage]
    refine (w.attempts_synced counter _).imp (fun _ h => h) ?_
    rintro _ rfl
    nofun
  lost := by
    intro w write races writing
    rcases resume_lost_race races writing with ⟨_, ⟨⟩, -⟩ | ⟨-, again⟩
    rw [again]
    exact asked_again races
  past := by
    intro w reply races ended
    refine (races_past races ended reply).imp (fun _ _ => trivial) ?_
    rintro _ ⟨counter, rfl⟩
    nofun

/-- **The budget of a write is exact.** -/
theorem budget_exact (db : Database) (limited : table.retry.maxAttempts = some m) (key : String)
    {value : Value} {data : Bytes} (encodable : value.encode? = some data) :
    (asks table key).ration.Exact m key (fun _ => False) ⟨db, start table key value none⟩ := by
  have exact : (asks table key).ration.Exact m (Utf8.lossy (Utf8.encode key)) (fun _ => False)
      ⟨db, start table key value none⟩ :=
    (asks table key).exact limited (asked_start table key encodable none)
  rwa [Utf8.lossy_encode] at exact

/-! ### Writing at a counter -/

/-- A write that expects a counter races for its document, too. -/
def conditional (table : Table) (key : String) (c : Counter) :
    Race DocumentWrite (Except Error Counter) where
  store := table.documents
  key := Utf8.encode key
  stage := raceStage
  kind := Races table key (some c)
  call_reading races reading := call_of_reading races reading
  read := by
    intro w stored races reading
    exact (races_read races reading stored).imp (fun _ h => ⟨h.1, Or.inr h.2⟩) fun _ _ => trivial
  call_writing races writing := call_of_writing races writing
  won := by
    intro w write counter races writing
    exact (races_won races writing counter).imp (fun _ h => h) fun _ _ => trivial
  lost := by
    intro w write races writing
    rcases resume_lost_race races writing with ⟨_, -, failed⟩ | ⟨⟨⟩, -⟩
    rw [failed]
    trivial
  past := by
    intro w reply races ended
    exact (races_past races ended reply).imp (fun _ h => h) fun _ _ => trivial

/-- The next call finds that the document is not at the counter that the caller expects. -/
def misses (db : Database) (w : DocumentWrite) : Bool :=
  match w.raceStage with
  | .ended => false
  | _ => (db.backend.store w.table.documents).liveCounter? (Utf8.encode w.key) != w.expected

theorem misses_eq (h : w.Races table key (some c)) (races : w.raceStage ≠ .ended) :
    w.misses db = true ↔
      (db.backend.store table.documents).liveCounter? (Utf8.encode key) ≠ some c := by
  unfold misses
  split
  · contradiction
  · rw [h.ofTable, h.ofKey, h.ofExpected, bne_iff_ne]

/-- A write that may make an attempt begins, unless its value cannot be written. -/
theorem races_start_of_tries (tries : table.retry.maxAttempts ≠ some 0) (key : String)
    (value : Value) (expected : Option Counter) :
    (start table key value expected).Satisfies (fun w => w.Races table key expected)
      fun result => result = .error .encode := by
  unfold start
  split
  · rw [again, RetryPolicy.begin_attempts tries]
    exact ⟨rfl, rfl, rfl, nofun⟩
  · rfl

/-- What is written goes through if the document is at the counter. -/
theorem accepts_iff (h : w.Races table key (some c)) {write : SlotWrite}
    (writing : w.raceStage = .writing write) :
    write.Accepts ((db.backend.store table.documents).get? (Utf8.encode key))
      ↔ w.misses db = false := by
  obtain ⟨old, stage⟩ := stage_of_raceStage_eq_writing writing
  obtain ⟨stored, planned⟩ := h.planned old write stage
  rw [(write_of_plan planned).2.2 c h.ofExpected, ← Bool.not_eq_true,
    misses_eq h (by rw [writing]; nofun), not_not]
  rfl

/-- **Who misses the counter fails.** -/
theorem resume_of_misses (h : w.Races table key (some c)) (missed : w.misses db = true) :
    Task.resume w (db.perform (Task.call w) none).1 = .finished (.error .counterChanged) := by
  cases stage : w.raceStage with
  | reading =>
      rw [call_of_reading h stage, db.perform_get]
      have reading := stage_of_raceStage_eq_reading stage
      cases planned : w.plan ((db.backend.store table.documents).get? (Utf8.encode key)) with
      | error e =>
          rw [resume_of_plan_eq_error reading planned, (of_plan_eq_error planned).1]
      | ok next =>
          have live := ((write_of_plan planned).2.2 c h.ofExpected _).1 (accepts_of_plan planned).1
          exact absurd live ((misses_eq h (by rw [stage]; nofun)).1 missed)
  | writing write =>
      have refused : ¬ write.Accepts _ := fun accepts => by
        rw [(accepts_iff h stage).1 accepts] at missed
        cases missed
      rw [call_of_writing h stage, db.perform_write_of_not refused]
      rcases resume_lost_race h stage with ⟨_, -, failed⟩ | ⟨⟨⟩, -⟩
      exact failed
  | ended =>
      simp only [misses, stage] at missed
      cases missed

/-- Who does not goes on, and succeeds. -/
theorem resume_of_hits (h : w.Races table key (some c)) (hits : w.misses db = false) :
    (Task.resume w (db.perform (Task.call w) none).1).Satisfies
      (fun v => v.Races table key (some c) ∧ v.raceStage ≠ .reading)
      fun result => ∃ counter, result = .ok counter := by
  cases stage : w.raceStage with
  | reading =>
      have live : ¬ (db.backend.store table.documents).liveCounter? (Utf8.encode key) ≠ some c :=
        fun other => by
          rw [(misses_eq h (by rw [stage]; nofun)).2 other] at hits
          cases hits
      rw [call_of_reading h stage, db.perform_get]
      refine (races_read h stage _).imp ?_ ?_
      · rintro v ⟨races, write, writing, -⟩
        exact ⟨races, by rw [writing]; nofun⟩
      · rintro _ ⟨_, ⟨⟩, other⟩
        exact absurd other live
  | writing write =>
      rw [call_of_writing h stage, db.perform_write ((accepts_iff h stage).2 hits)]
      exact (races_won h stage _).imp (fun v h => ⟨h.1, by rw [h.2]; nofun⟩)
        fun _ done => ⟨_, done⟩
  | ended =>
      exact (races_past h stage _).imp (fun v h => ⟨h.1, by rw [h.2]; nofun⟩) fun _ done => done

/-- A write that expects a counter has one round. -/
def once (table : Table) (key : String) (c : Counter) : (conditional table key c).Once where
  misses := misses
  missed_step := resume_of_misses
  other_step races hits := (resume_of_hits races hits).imp (fun _ h => h) <| by
    rintro _ ⟨counter, rfl⟩
    exact ⟨nofun, nofun⟩

/-- **A write that expects a counter has no second round.** -/
theorem budget_single (db : Database) (limited : table.retry.maxAttempts = some m) (key : String)
    {value : Value} {data : Bytes} (encodable : value.encode? = some data) (c : Counter) :
    (once table key c).Single m key ⟨db, start table key value (some c)⟩ := by
  have single : (once table key c).Single m (Utf8.lossy (Utf8.encode key))
      ⟨db, start table key value (some c)⟩ :=
    (once table key c).single limited <|
      (asked_start table key encodable (some c)).imp fun _ _ _ h => ⟨h.1, h.2.1⟩
  rwa [Utf8.lossy_encode] at single

end DocumentWrite

/-! ### Deleting -/

namespace DocumentDelete

variable {d : DocumentDelete} {c : Counter} {db : Database}

theorem asked_again (d : DocumentDelete) :
    d.again.Asked d.attempts .error
      fun next v => v = { d with attempts := next, stage := .reading } := by
  unfold again Progress.Asked
  cases d.attempts.begin with
  | ok next => exact rfl
  | error e => rfl

/-- A deletion that has been made reports nothing. -/
theorem attempts_synced (d : DocumentDelete) (progress : Progress IndexSync Unit) :
    (d.synced progress).Satisfies (fun v => v.attempts = d.attempts)
      fun result => result = .ok () := by
  cases progress with
  | waiting sync => rfl
  | finished result => rfl

/-- A deletion asks for every round. -/
def asks (table : Table) (key : String) : (race table key).Asks where
  attempts := DocumentDelete.attempts
  report := .error
  reports same := Except.error.inj same
  read := by
    intro d stored races reading
    have stage := stage_of_raceStage_eq_reading reading
    cases stored with
    | none =>
        simp only [Task.resume, stage]
        nofun
    | some v =>
        rcases resume_found stage v with ⟨_, -, -, failed⟩ | ⟨-, goes⟩
        · rw [failed]
          nofun
        · rw [goes]
          rfl
  won := by
    intro d write counter races writing
    obtain ⟨old, expected, stage, rfl⟩ := stage_of_raceStage_eq_writing writing
    simp only [SlotWrite.reply, Except.map, Task.resume, stage]
    refine (d.attempts_synced _).imp (fun _ h => h) ?_
    rintro _ rfl
    nofun
  lost := by
    intro d write races writing
    obtain ⟨old, counter, stage, rfl⟩ := stage_of_raceStage_eq_writing writing
    rcases resume_lost stage with ⟨c, expects, -⟩ | ⟨-, again⟩
    · rw [races.ofExpected] at expects
      cases expects
    · rw [SlotWrite.reply, Except.map, again]
      refine d.asked_again.imp ?_
      rintro next v - rfl
      exact ⟨⟨races.ofTable, races.ofKey, races.ofExpected⟩, rfl, rfl⟩
  past := by
    intro d reply races ended
    obtain ⟨sync, stage⟩ := stage_of_raceStage_eq_ended ended
    simp only [Task.resume, stage]
    refine (d.attempts_synced _).imp (fun _ _ => trivial) ?_
    rintro _ rfl
    nofun

theorem asked_start (table : Table) (key : String) :
    (start table key none).Asked (table.retry.attempts (Utf8.encode key)) .error
      fun next d => d.Races table key ∧ d.raceStage = .reading ∧ d.attempts = next := by
  refine (asked_again ⟨table, key, none, table.retry.attempts (Utf8.encode key),
    .reading⟩).imp ?_
  rintro next d - rfl
  exact ⟨⟨rfl, rfl, rfl⟩, rfl, rfl⟩

/-- **The budget of a deletion is exact.** -/
theorem budget_exact (db : Database) (limited : table.retry.maxAttempts = some m)
    (key : String) :
    (asks table key).ration.Exact m key (fun _ => False) ⟨db, start table key none⟩ := by
  have exact : (asks table key).ration.Exact m (Utf8.lossy (Utf8.encode key)) (fun _ => False)
      ⟨db, start table key none⟩ :=
    (asks table key).exact limited (asked_start table key)
  rwa [Utf8.lossy_encode] at exact

/-! ### Deleting at a counter -/

/-- A deletion of this document at a counter. -/
structure RacesAt (table : Table) (key : String) (c : Counter) (d : DocumentDelete) : Prop where
  ofTable : d.table = table
  ofKey : d.key = key
  ofExpected : d.expected = some c
  erases : ∀ old counter, d.stage = .erasing old counter → counter = c

theorem racesAt_synced (h : d.RacesAt table key c) (progress : Progress IndexSync Unit) :
    (d.synced progress).Satisfies (fun v => v.RacesAt table key c ∧ v.raceStage = .ended)
      fun result => result = .ok () := by
  cases progress with
  | waiting sync => exact ⟨⟨h.ofTable, h.ofKey, h.ofExpected, nofun⟩, rfl⟩
  | finished result => rfl

/-- A deletion that has read its document goes on with it if it is at the counter, and is done if
there is none. -/
theorem racesAt_read (h : d.RacesAt table key c) (reading : d.raceStage = .reading)
    (stored : Option (Versioned Bytes)) :
    (∃ v, stored = some v ∧ v.counter ≠ c ∧
        Task.resume d (.document (.ok stored)) = .finished (.error .counterChanged)) ∨
      (∀ v, stored = some v → v.counter = c) ∧
        (Task.resume d (.document (.ok stored))).Satisfies
          (fun v => v.RacesAt table key c ∧ v.raceStage = .writing (.erase c) ∧
            stored.map Versioned.counter = some c)
          fun result => result = .ok () := by
  have stage := stage_of_raceStage_eq_reading reading
  cases stored with
  | none =>
      refine Or.inr ⟨nofun, ?_⟩
      simp only [Task.resume, stage]
      rfl
  | some v =>
      rcases resume_found stage v with ⟨other, expects, changed, failed⟩ | ⟨same, goes⟩
      · obtain rfl : c = other := Option.some.inj (h.ofExpected.symm.trans expects)
        exact Or.inl ⟨v, rfl, changed.symm, failed⟩
      · obtain rfl := same c h.ofExpected
        refine Or.inr ⟨fun _ found => Option.some.inj found ▸ rfl, ?_⟩
        rw [goes]
        refine ⟨⟨h.ofTable, h.ofKey, h.ofExpected, ?_⟩, rfl, rfl⟩
        rintro _ _ ⟨⟩
        rfl

theorem racesAt_past (h : d.RacesAt table key c) (ended : d.raceStage = .ended) (reply : Reply) :
    (Task.resume d reply).Satisfies (fun v => v.RacesAt table key c ∧ v.raceStage = .ended)
      fun result => result = .ok () := by
  obtain ⟨sync, stage⟩ := stage_of_raceStage_eq_ended ended
  simp only [Task.resume, stage]
  exact racesAt_synced h _

theorem write_of_racesAt (h : d.RacesAt table key c) {write : SlotWrite}
    (writing : d.raceStage = .writing write) :
    (∃ old, d.stage = .erasing old c) ∧ write = .erase c := by
  obtain ⟨old, counter, stage, rfl⟩ := stage_of_raceStage_eq_writing writing
  obtain rfl := h.erases old counter stage
  exact ⟨⟨old, stage⟩, rfl⟩

theorem resume_won (h : d.RacesAt table key c) {write : SlotWrite}
    (writing : d.raceStage = .writing write) (counter : Counter) :
    (Task.resume d (write.reply (.ok counter))).Satisfies
      (fun v => v.RacesAt table key c ∧ v.raceStage = .ended) fun result => result = .ok () := by
  obtain ⟨⟨old, stage⟩, rfl⟩ := write_of_racesAt h writing
  simp only [SlotWrite.reply, Except.map, Task.resume, stage]
  exact racesAt_synced h _

theorem resume_lost_at (h : d.RacesAt table key c) {write : SlotWrite}
    (writing : d.raceStage = .writing write) :
    Task.resume d (write.reply (.error .swapMismatch)) = .finished (.error .counterChanged) := by
  obtain ⟨⟨old, stage⟩, rfl⟩ := write_of_racesAt h writing
  rcases resume_lost stage with ⟨_, -, failed⟩ | ⟨none, -⟩
  · exact failed
  · rw [h.ofExpected] at none
    cases none

theorem call_of_reading (h : d.RacesAt table key c) (reading : d.raceStage = .reading) :
    Task.call d = .get table.documents (Utf8.encode key) := by
  simp only [Task.call, stage_of_raceStage_eq_reading reading, h.ofTable, h.ofKey]

theorem call_of_writing (h : d.RacesAt table key c) {write : SlotWrite}
    (writing : d.raceStage = .writing write) :
    Task.call d = write.call table.documents (Utf8.encode key) := by
  obtain ⟨⟨old, stage⟩, rfl⟩ := write_of_racesAt h writing
  simp only [Task.call, stage, h.ofTable, h.ofKey, SlotWrite.call]

/-- A deletion that expects a counter races for its document, too. -/
def conditional (table : Table) (key : String) (c : Counter) :
    Race DocumentDelete (Except Error Unit) where
  store := table.documents
  key := Utf8.encode key
  stage := raceStage
  kind := RacesAt table key c
  call_reading races reading := call_of_reading races reading
  read := by
    intro d stored races reading
    rcases racesAt_read races reading stored with ⟨v, -, -, failed⟩ | ⟨-, goes⟩
    · rw [failed]
      trivial
    · exact goes.imp (fun _ h => ⟨h.1, Or.inr ⟨_, h.2.1, h.2.2⟩⟩) fun _ _ => trivial
  call_writing races writing := call_of_writing races writing
  won := by
    intro d write counter races writing
    exact (resume_won races writing counter).imp (fun _ h => h) fun _ _ => trivial
  lost := by
    intro d write races writing
    rw [resume_lost_at races writing]
    trivial
  past := by
    intro d reply races ended
    exact (racesAt_past races ended reply).imp (fun _ h => h) fun _ _ => trivial

/-- The next call finds the document at another counter than the caller expects; a document that is
not there need not be deleted, unless it was there before. -/
def misses (db : Database) (d : DocumentDelete) : Bool :=
  let live := (db.backend.store d.table.documents).liveCounter? (Utf8.encode d.key)
  match d.raceStage with
  | .reading => live.isSome && live != d.expected
  | .writing _ => live != d.expected
  | .ended => false

/-- **Who misses the counter fails**, and who does not goes on, and succeeds. -/
theorem resume_cases (h : d.RacesAt table key c) (db : Database) :
    d.misses db = true ∧
        Task.resume d (db.perform (Task.call d) none).1 = .finished (.error .counterChanged) ∨
      d.misses db = false ∧
        (Task.resume d (db.perform (Task.call d) none).1).Satisfies
          (fun v => v.RacesAt table key c ∧ v.raceStage ≠ .reading)
          fun result => result = .ok () := by
  have live : (db.backend.store d.table.documents).liveCounter? (Utf8.encode d.key)
      = ((db.backend.store table.documents).get? (Utf8.encode key)).map Versioned.counter := by
    rw [h.ofTable, h.ofKey, Store.liveCounter?]
  cases stage : d.raceStage with
  | reading =>
      simp only [misses, stage, live, h.ofExpected]
      rw [call_of_reading h stage, db.perform_get]
      generalize (db.backend.store table.documents).get? (Utf8.encode key) = stored
      rcases racesAt_read h stage stored with ⟨v, rfl, changed, failed⟩ | ⟨same, goes⟩
      · exact Or.inl ⟨by simpa using changed, failed⟩
      · refine Or.inr ⟨?_, goes.imp (fun v h => ⟨h.1, by rw [h.2.1]; nofun⟩) fun _ done => done⟩
        cases stored with
        | none => rfl
        | some v => simp [same v rfl]
  | writing write =>
      simp only [misses, stage, live, h.ofExpected]
      rw [call_of_writing h stage]
      obtain ⟨-, rfl⟩ := write_of_racesAt h stage
      by_cases accepts : (SlotWrite.erase c).Accepts
          ((db.backend.store table.documents).get? (Utf8.encode key))
      · rw [db.perform_write accepts]
        refine Or.inr ⟨?_, (resume_won h stage _).imp (fun v h => ⟨h.1, by rw [h.2]; nofun⟩)
          fun _ done => done⟩
        rw [show Option.map Versioned.counter _ = some c from accepts, bne_self_eq_false]
      · rw [db.perform_write_of_not accepts]
        exact Or.inl ⟨bne_iff_ne.2 accepts, resume_lost_at h stage⟩
  | ended =>
      simp only [misses, stage]
      exact Or.inr ⟨trivial, (racesAt_past h stage _).imp (fun v h => ⟨h.1, by rw [h.2]; nofun⟩)
        fun _ done => done⟩

/-- A deletion that expects a counter has one round. -/
def once (table : Table) (key : String) (c : Counter) : (conditional table key c).Once where
  misses := misses
  missed_step := by
    intro db d races missed
    rcases resume_cases races db with ⟨-, failed⟩ | ⟨hits, -⟩
    · exact failed
    · rw [missed] at hits
      cases hits
  other_step := by
    intro db d races hits
    rcases resume_cases races db with ⟨missed, -⟩ | ⟨-, goes⟩
    · rw [hits] at missed
      cases missed
    · refine goes.imp (fun _ h => h) ?_
      rintro _ rfl
      exact ⟨nofun, nofun⟩

theorem asked_start_at (table : Table) (key : String) (c : Counter) :
    (start table key (some c)).Asked (table.retry.attempts (Utf8.encode key)) .error
      fun _ d => d.RacesAt table key c ∧ d.raceStage = .reading := by
  refine (asked_again ⟨table, key, some c, table.retry.attempts (Utf8.encode key),
    .reading⟩).imp ?_
  rintro next d - rfl
  exact ⟨⟨rfl, rfl, rfl, nofun⟩, rfl⟩

/-- **A deletion that expects a counter has no second round.** -/
theorem budget_single (db : Database) (limited : table.retry.maxAttempts = some m) (key : String)
    (c : Counter) : (once table key c).Single m key ⟨db, start table key (some c)⟩ := by
  have single : (once table key c).Single m (Utf8.lossy (Utf8.encode key))
      ⟨db, start table key (some c)⟩ :=
    (once table key c).single limited (asked_start_at table key c)
  rwa [Utf8.lossy_encode] at single

end DocumentDelete

/-! ### Updating -/

namespace DocumentUpdate

variable {u : DocumentUpdate} {db : Database}

/-- The write of an update finds that the document is not as it was read. -/
def loses (db : Database) (u : DocumentUpdate) : Bool :=
  match u.stage with
  | .writing w => w.misses db
  | _ => false

theorem of_loses (h : u.loses db = true) : ∃ w, u.stage = .writing w ∧ w.misses db = true := by
  unfold loses at h
  split at h
  · exact ⟨_, by assumption, h⟩
  · cases h

theorem asked_again (u : DocumentUpdate) :
    u.again.Asked u.attempts (fun e => .error (.store e))
      fun next v => v = { u with attempts := next, stage := .reading } := by
  unfold again Progress.Asked
  cases u.attempts.begin with
  | ok next => exact rfl
  | error e => rfl

/-- An update of this document that may make attempts. -/
structure Asks (table : Table) (key : String) (u : DocumentUpdate) : Prop where
  races : u.Races table key
  tries : table.retry.maxAttempts ≠ some 0

/-- An update goes on with its write, which has not found another counter. -/
theorem Asks.written (h : u.Asks table key) {c : Counter}
    {progress : Progress DocumentWrite (Except Error Counter)}
    (goes : progress.Satisfies (fun w => w.Races table key (some c))
      fun result => Unrefused .error result ∧ result ≠ .error .counterChanged) :
    (u.written progress).Satisfies
      (fun v => v.Asks table key ∧ v.stage.phase ≠ .begins ∧ v.attempts = u.attempts)
      (Unrefused fun e => .error (.store e)) := by
  unfold DocumentUpdate.written
  split
  · rename_i w
    refine ⟨⟨⟨h.races.ofTable, h.races.ofKey, ?_⟩, h.tries⟩, fun begins => ?_, rfl⟩
    · rintro _ ⟨⟩
      exact ⟨c, goes⟩
    · cases Stage.of_phase_eq_begins begins
  · nofun
  · exact absurd rfl goes.2
  · rename_i e other
    intro name made same
    cases same
    exact goes.1 name made rfl

/-- The call of an update that is in the middle of its write is that of the write. -/
theorem call_writing {w : DocumentWrite} (writing : u.stage = .writing w) :
    Task.call u = Task.call w := by
  simp only [Task.call, writing]

theorem Stage.phase_writing {w : DocumentWrite} (goes : w.raceStage ≠ .ended) :
    (Stage.writing w).phase = .within := by
  cases stage : w.raceStage with
  | reading => simp only [phase, stage]
  | writing write => simp only [phase, stage]
  | ended => exact absurd stage goes

/-- An update that has read its document applies its modifier to it. -/
theorem resume_read (reading : u.stage = .reading)
    (stored : Option (Versioned Bytes)) :
    (∃ e, (e = .notFound ∨ e = .decode) ∧
        Task.resume u (.document (.ok stored)) = .finished (.error (.store e))) ∨
      ∃ v current, stored = some v ∧ v.decode u.modifier.shape = .ok current ∧
        Task.resume u (.document (.ok stored))
          = .waiting { u with stage := .modifying current } := by
  cases stored with
  | none => exact Or.inl ⟨_, Or.inl rfl, by simp only [Task.resume, reading]⟩
  | some v =>
      cases decoded : v.decode u.modifier.shape with
      | ok current =>
          exact Or.inr ⟨v, current, rfl, decoded, by simp only [Task.resume, reading, decoded]⟩
      | error e =>
          refine Or.inl ⟨e, Or.inr ?_, by simp only [Task.resume, reading, decoded]⟩
          unfold Versioned.decode at decoded
          split at decoded
          · cases decoded
          · exact (Except.error.inj decoded).symm

/-- An update that reads its document goes on with it, or it has failed. -/
theorem Asks.begins (h : u.Asks table key) (reading : u.stage = .reading) (db : Database) :
    (Task.resume u (db.perform (Task.call u) none).1).Satisfies
      (fun v => v.Asks table key ∧ v.stage.phase ≠ .begins ∧ v.attempts = u.attempts)
      (Unrefused fun e => .error (.store e)) := by
  have call : Task.call u = .get table.documents (Utf8.encode key) := by
    simp only [Task.call, reading, h.races.ofTable, h.races.ofKey]
  rw [call, db.perform_get]
  rcases resume_read reading _ with ⟨e, kind, failed⟩ | ⟨v, current, -, -, goes⟩
  · rw [failed]
    rintro name made ⟨⟩
    rcases kind with kind | kind <;> cases kind
  · rw [goes]
    exact ⟨⟨⟨h.races.ofTable, h.races.ofKey, fun _ same => nomatch same⟩, h.tries⟩, nofun, rfl⟩

/-- An update that applies its modifier goes on with the write, which begins. -/
theorem Asks.modifies (h : u.Asks table key) {current : Versioned Value}
    (modifying : u.stage = .modifying current) (db : Database) :
    (Task.resume u (db.perform (Task.call u) none).1).Satisfies
      (fun v => v.Asks table key ∧ v.stage.phase ≠ .begins ∧ v.attempts = u.attempts)
      (Unrefused fun e => .error (.store e)) := by
  rw [show Task.call u = .modify by simp only [Task.call, modifying]]
  change Progress.Satisfies _ _ (Task.resume u (.done (.ok ())))
  simp only [Task.resume, modifying]
  cases u.modifier.apply current.value with
  | error reason => nofun
  | ok value =>
      refine h.written (c := current.counter) ?_
      rw [h.races.ofTable, h.races.ofKey]
      refine (DocumentWrite.races_start_of_tries h.tries key value _).imp (fun _ h => h) ?_
      rintro _ rfl
      exact ⟨nofun, nofun⟩

/-- An update whose write does not miss the counter goes on with it. -/
theorem Asks.writes (h : u.Asks table key) {w : DocumentWrite} (writing : u.stage = .writing w)
    (hits : w.misses db = false) :
    (Task.resume u (db.perform (Task.call u) none).1).Satisfies
      (fun v => v.Asks table key ∧ v.stage.phase ≠ .begins ∧ v.attempts = u.attempts)
      (Unrefused fun e => .error (.store e)) := by
  obtain ⟨c, races⟩ := h.races.writing w writing
  rw [resume_writing writing, call_writing writing]
  refine h.written ((DocumentWrite.resume_of_hits races hits).imp (fun _ h => h.1) ?_)
  rintro _ ⟨counter, rfl⟩
  exact ⟨nofun, nofun⟩

/-- An update that has written is done when its write is. -/
theorem Asks.ends (h : u.Asks table key) {w : DocumentWrite} (writing : u.stage = .writing w)
    (ended : w.raceStage = .ended) (reply : Reply) :
    (Task.resume u reply).Satisfies (fun v => v.Asks table key ∧ v.stage.phase = .ended)
      (Unrefused fun e => .error (.store e)) := by
  obtain ⟨c, races⟩ := h.races.writing w writing
  have goes := DocumentWrite.races_past races ended reply
  rw [resume_writing writing]
  cases next : Task.resume w reply with
  | finished result =>
      rw [next] at goes
      obtain ⟨counter, rfl⟩ := goes
      nofun
  | waiting w' =>
      rw [next] at goes
      refine ⟨⟨⟨h.races.ofTable, h.races.ofKey, ?_⟩, h.tries⟩, ?_⟩
      · rintro _ ⟨⟩
        exact ⟨c, goes.1⟩
      · simp only [Stage.phase, goes.2]

/-- An update asks for every round; its write has no second one. -/
def ration (table : Table) (key : String) : Ration (loop table key) where
  attempts := DocumentUpdate.attempts
  report e := .error (.store e)
  loses := loses
  drains _ _ := false
  sound := Asks table key
  reports same := UpdateError.store.inj (Except.error.inj same)
  kind sound := sound.races
  stale := by
    intro db u sound lost
    obtain ⟨w, writing, missed⟩ := of_loses lost
    obtain ⟨c, races⟩ := sound.races.writing w writing
    have goes : w.raceStage ≠ .ended := by
      intro ended
      simp only [DocumentWrite.misses, ended] at missed
      cases missed
    refine ⟨(congrArg Stage.phase writing).trans (Stage.phase_writing goes), fun fresh => ?_⟩
    simp only [loop, Fresh, writing, races.ofExpected] at fresh
    exact (DocumentWrite.misses_eq races goes).1 missed fresh
  begin_step db _ sound phase := sound.begins (Stage.of_phase_eq_begins phase) db
  lost_step := by
    intro db u sound lost
    obtain ⟨w, writing, missed⟩ := of_loses lost
    obtain ⟨c, races⟩ := sound.races.writing w writing
    rw [resume_writing writing, call_writing writing,
      DocumentWrite.resume_of_misses races missed]
    refine u.asked_again.imp ?_
    rintro next v - rfl
    exact ⟨⟨⟨sound.races.ofTable, sound.races.ofKey, fun _ same => nomatch same⟩,
      sound.tries⟩, rfl, rfl⟩
  drained_step := by
    intro db u _ drained
    cases drained
  within_step := by
    intro db u sound phase kept _
    cases stage : u.stage with
    | reading => simp [loop, stage, Stage.phase] at phase
    | modifying current => exact sound.modifies stage db
    | writing w => exact sound.writes stage (by simpa only [loses, stage] using kept)
  ended_step := by
    intro db u sound phase
    obtain ⟨w, writing, ended⟩ := Stage.of_phase_eq_ended phase
    exact sound.ends writing ended _

theorem asked_start (table : Table) (key : String) (modifier : Modifier) :
    (start table key modifier).Asked (table.retry.attempts (Utf8.encode key))
      (fun e => .error (.store e))
      fun next u => (ration table key).sound u ∧ (loop table key).phase u = .begins ∧
        (ration table key).attempts u = next := by
  refine (asked_again ⟨table, key, modifier, table.retry.attempts (Utf8.encode key),
    .reading⟩).imp ?_
  rintro next u begun rfl
  exact ⟨⟨⟨rfl, rfl, fun _ same => nomatch same⟩, RetryPolicy.tries_of_begin begun⟩, rfl, rfl⟩

/-! ### Modifiers -/

/-- The next call applies the modifier. -/
def applies (_ : Database) (u : DocumentUpdate) : Bool :=
  match u.stage with
  | .modifying _ => true
  | _ => false

/-- An update of this document, with this modifier. -/
structure Updates (table : Table) (key : String) (modifier : Modifier) (u : DocumentUpdate) :
    Prop where
  ofTable : u.table = table
  ofKey : u.key = key
  ofModifier : u.modifier = modifier

variable {modifier : Modifier}

theorem updates_again (h : u.Updates table key modifier) :
    u.again.Satisfies (fun v => v.Updates table key modifier ∧ v.stage = .reading)
      fun _ => True := by
  unfold again
  split
  · exact ⟨⟨h.ofTable, h.ofKey, h.ofModifier⟩, rfl⟩
  · trivial

/-- An update that writes does not apply its modifier without reading again. -/
theorem updates_written (h : u.Updates table key modifier)
    (progress : Progress DocumentWrite (Except Error Counter)) :
    (u.written progress).Satisfies
      (fun v => v.Updates table key modifier ∧ ∀ current, v.stage ≠ .modifying current)
      fun _ => True := by
  unfold written
  split
  · exact ⟨⟨h.ofTable, h.ofKey, h.ofModifier⟩, nofun⟩
  · trivial
  · exact (updates_again h).imp (fun _ h => ⟨h.1, by rw [h.2]; nofun⟩) fun _ h => h
  · trivial

/-- **The modifier is applied to what has just been read.** -/
theorem updates_resume (h : u.Updates table key modifier) (db : Database) :
    (Task.resume u (db.perform (Task.call u) none).1).Satisfies
      (fun v => v.Updates table key modifier ∧ ∀ current, v.stage = .modifying current →
        u.stage = .reading ∧ ∃ stored,
          (db.backend.store table.documents).get? (Utf8.encode key) = some stored ∧
            stored.decode modifier.shape = .ok current)
      fun _ => True := by
  have writes : ∀ progress : Progress DocumentWrite (Except Error Counter),
      (u.written progress).Satisfies
        (fun v => v.Updates table key modifier ∧ ∀ current, v.stage = .modifying current →
          u.stage = .reading ∧ ∃ stored,
            (db.backend.store table.documents).get? (Utf8.encode key) = some stored ∧
              stored.decode modifier.shape = .ok current)
        fun _ => True := fun progress =>
    (updates_written h progress).imp (fun _ h => ⟨h.1, fun current same => (h.2 current same).elim⟩)
      fun _ h => h
  cases stage : u.stage with
  | reading =>
      have call : Task.call u = .get table.documents (Utf8.encode key) := by
        simp only [Task.call, stage, h.ofTable, h.ofKey]
      rw [call, db.perform_get]
      rcases resume_read stage _ with ⟨e, -, failed⟩ | ⟨v, current, found, decoded, goes⟩
      · rw [failed]
        trivial
      · rw [goes]
        refine ⟨⟨h.ofTable, h.ofKey, h.ofModifier⟩, ?_⟩
        rintro _ ⟨⟩
        exact ⟨rfl, v, found, h.ofModifier ▸ decoded⟩
  | modifying current =>
      rw [stage] at writes
      rw [show Task.call u = .modify by simp only [Task.call, stage]]
      change Progress.Satisfies _ _ (Task.resume u (.done (.ok ())))
      simp only [Task.resume, stage]
      cases u.modifier.apply current.value with
      | error reason => trivial
      | ok value => exact writes _
  | writing w =>
      rw [stage] at writes
      rw [resume_writing stage]
      exact writes _

/-- An update that calls its modifier so many times at most, each time with what it has read in the
call before. -/
structure Modifies (table : Table) (key : String) (modifier : Modifier) (m : UInt32)
    (s : Amid DocumentUpdate (Except UpdateError Counter)) : Prop where
  /-- The modifier is called in so many turns at most. -/
  times_le : ∀ turns, Amid.times applies s turns ≤ m.toNat
  /-- Between the call that reads the document and the one that applies the modifier to it there
  are turns of others only. -/
  fresh : ∀ turns u current, (s.run turns).progress = .waiting u → u.stage = .modifying current →
    u.modifier = modifier ∧ ∃ early others stored, turns = early ++ .own :: others ∧
      (∀ turn ∈ others, turn.isOwn = false) ∧ (loop table key).now (s.run early) = .begins ∧
        ((s.run early).db.backend.store table.documents).get? (Utf8.encode key) = some stored ∧
          stored.decode modifier.shape = .ok current

variable {s : Amid DocumentUpdate (Except UpdateError Counter)}

/-- An update stays with its document and its modifier. -/
theorem updates_turn (keeps : s.progress.Satisfies (Updates table key modifier) fun _ => True)
    (turn : Turn) :
    (s.turn turn).progress.Satisfies (Updates table key modifier) fun _ => True := by
  obtain ⟨db, progress⟩ := s
  cases turn with
  | other call fault => exact keeps
  | own =>
      cases progress with
      | finished result => trivial
      | waiting u => exact (updates_resume keeps db).imp (fun _ h => h.1) fun _ h => h

theorem finds_le_one (turn : Turn) : Amid.finds applies s turn ≤ 1 := by
  cases turn with
  | other call fault => exact Nat.zero_le 1
  | own =>
      simp only [Amid.finds]
      split
      · split
        · exact Nat.le_refl 1
        · exact Nat.zero_le 1
      · exact Nat.zero_le 1

/-- A call of the modifier is paid for by the reading before it. -/
theorem finds_add_le (keeps : s.progress.Satisfies (Updates table key modifier) fun _ => True)
    (turn : Turn) :
    Amid.finds applies s turn + Amid.finds applies (s.turn turn) .own
      ≤ Amid.finds applies s .own + (loop table key).cost 1 0 s turn := by
  obtain ⟨db, progress⟩ := s
  cases turn with
  | other call fault =>
      rw [show Amid.finds applies _ (.other call fault) = 0 from rfl, Nat.zero_add]
      exact Nat.le_add_right _ _
  | own =>
      cases progress with
      | finished result => exact Nat.le_refl 0
      | waiting u =>
          by_cases reading : u.stage = .reading
          · have cost : (loop table key).cost 1 0 ⟨db, .waiting u⟩ .own = 1 := by
              simp only [Loop.cost, Loop.now, loop, reading, Stage.phase]
            rw [cost]
            exact Nat.add_le_add_left (finds_le_one _) _
          · -- after any other call there is nothing to be applied
            have none : Amid.finds applies (Amid.turn ⟨db, .waiting u⟩ .own) .own = 0 := by
              have goes := updates_resume keeps db
              simp only [Amid.turn, Amid.finds]
              cases next : Task.resume u (db.perform (Task.call u) none).1 with
              | finished result => rfl
              | waiting v =>
                  rw [next] at goes
                  cases stage : v.stage with
                  | reading => simp only [applies, stage, Bool.false_eq_true, if_false]
                  | modifying current => exact absurd (goes.2 current stage).1 reading
                  | writing w => simp only [applies, stage, Bool.false_eq_true, if_false]
            rw [none]
            exact Nat.le_add_right _ _

/-- **There are no more calls of the modifier than rounds.** -/
theorem times_applies_le (keeps : s.progress.Satisfies
      (fun u => u.Updates table key modifier ∧ u.stage = .reading) fun _ => True)
    (turns : List Turn) : Amid.times applies s turns ≤ (loop table key).rounds s turns := by
  have paid := @Amid.tally_le DocumentUpdate (Except UpdateError Counter) _
    (fun s => s.progress.Satisfies (Updates table key modifier) fun _ => True)
    (fun s => Amid.finds applies s .own) (Amid.finds applies) ((loop table key).cost 1 0)
    (fun _ turn keeps => updates_turn keeps turn) (fun _ turn keeps => finds_add_le keeps turn)
    s (keeps.imp (fun _ h => h.1) fun _ h => h) turns
  have start : Amid.finds applies s .own = 0 := by
    obtain ⟨db, progress⟩ := s
    cases progress with
    | finished result => rfl
    | waiting u =>
        simp only [Amid.finds, applies, (show u.stage = .reading from keeps.2),
          Bool.false_eq_true, if_false]
  rw [start, Nat.zero_add] at paid
  exact Nat.le_trans (Nat.le_add_right _ _) paid

/-- **A document that is about to be modified has been read in this round.** -/
theorem exists_read (keeps : s.progress.Satisfies
      (fun u => u.Updates table key modifier ∧ u.stage = .reading) fun _ => True)
    (turns : List Turn) :
    (s.run turns).progress.Satisfies
      (fun u => u.Updates table key modifier ∧ ∀ current, u.stage = .modifying current →
        ∃ early others stored, turns = early ++ .own :: others ∧
          (∀ turn ∈ others, turn.isOwn = false) ∧ (loop table key).now (s.run early) = .begins ∧
            ((s.run early).db.backend.store table.documents).get? (Utf8.encode key) = some stored ∧
              stored.decode modifier.shape = .ok current)
      fun _ => True := by
  induction turns using List.reverseRecOn with
  | nil =>
      refine keeps.imp ?_ fun _ h => h
      rintro u ⟨updates, reading⟩
      exact ⟨updates, fun current same => nomatch reading.symm.trans same⟩
  | append_singleton turns turn ih =>
      rw [Amid.run_concat]
      cases turn with
      | other call fault =>
          refine ih.imp ?_ fun _ h => h
          rintro u ⟨updates, read⟩
          refine ⟨updates, fun current same => ?_⟩
          obtain ⟨early, others, stored, rfl, apart, begins, found, decoded⟩ := read current same
          refine ⟨early, others ++ [.other call fault], stored, by simp, ?_, begins, found, decoded⟩
          intro turn mem
          rcases List.mem_append.1 mem with mem | mem
          · exact apart turn mem
          · rw [List.mem_singleton.1 mem]
            rfl
      | own =>
          cases waits : (s.run turns).progress with
          | finished result =>
              have ended : ((s.run turns).turn .own).progress = .finished result :=
                Amid.progress_run_of_finished waits [.own]
              rw [ended]
              trivial
          | waiting u =>
              rw [waits] at ih
              rw [Amid.turn_own waits]
              refine (updates_resume ih.1 (s.run turns).db).imp ?_ fun _ h => h
              rintro v ⟨updates, read⟩
              refine ⟨updates, fun current same => ?_⟩
              obtain ⟨reading, stored, found, decoded⟩ := read current same
              refine ⟨turns, [], stored, rfl, nofun, ?_, found, decoded⟩
              simp only [Loop.now, waits, loop, reading, Stage.phase]

theorem updates_start (table : Table) (key : String) (modifier : Modifier) :
    (start table key modifier).Satisfies
      (fun u => u.Updates table key modifier ∧ u.stage = .reading) fun _ => True :=
  updates_again ⟨rfl, rfl, rfl⟩

/-- **The budget of an update is exact**, and so is that of its modifier. -/
theorem budget_exact (db : Database) (limited : table.retry.maxAttempts = some m) (key : String)
    (modifier : Modifier) :
    (ration table key).Exact m key (fun _ => False) ⟨db, start table key modifier⟩ ∧
      Modifies table key modifier m ⟨db, start table key modifier⟩ := by
  have exact : (ration table key).Exact m (Utf8.lossy (Utf8.encode key)) (fun _ => False)
      ⟨db, start table key modifier⟩ :=
    (ration table key).exact_of_undrained (fun _ _ => rfl) limited
      (asked_start table key modifier)
  rw [Utf8.lossy_encode] at exact
  refine ⟨exact, fun turns => ?_, fun turns u current waits stage => ?_⟩
  · exact Nat.le_trans (times_applies_le (updates_start table key modifier) turns)
      (exact.rounds_le turns)
  · have read := exists_read (s := ⟨db, start table key modifier⟩)
      (updates_start table key modifier) turns
    rw [waits] at read
    exact ⟨read.1.ofModifier, read.2 current stage⟩

end DocumentUpdate

/-! ### Every budget -/

/-- **The budget of every operation is exact**, whatever calls others make between its own.  An
operation that may begin so many rounds begins no more, and another one only if it has lost the one
before to a write of somebody else; it gives up if and only if it has lost them all, naming its key
and their number, and a settling also if one of its changes of the bucket has lost all of its own.
Where there may be no round, it gives up before its first call.  An operation that expects a counter
has one round only, and fails if it loses it. -/
theorem budgets_exact (db : Database) (m : UInt32) :
    (∀ (table : Table) (key : String), table.retry.maxAttempts = some m →
      (∀ (value : Value) (data : Bytes), value.encode? = some data →
        (DocumentWrite.asks table key).ration.Exact m key (fun _ => False)
            ⟨db, table.set key value⟩ ∧
          ∀ c, (DocumentWrite.once table key c).Single m key ⟨db, table.setIf key value c⟩) ∧
      (DocumentDelete.asks table key).ration.Exact m key (fun _ => False)
          ⟨db, table.delete key⟩ ∧
      (∀ c, (DocumentDelete.once table key c).Single m key ⟨db, table.deleteIf key c⟩) ∧
      ∀ modifier : Modifier,
        (DocumentUpdate.ration table key).Exact m key (fun _ => False)
            ⟨db, table.update key modifier⟩ ∧
          DocumentUpdate.Modifies table key modifier m ⟨db, table.update key modifier⟩) ∧
    (∀ (index : Index) (indexKey : Bytes) (change : Bucket.Change) (document : String),
      index.retry.maxAttempts = some m →
        (BucketEdit.asks index indexKey).ration.Exact m (Utf8.lossy indexKey) (fun _ => False)
          ⟨db, BucketEdit.start index indexKey change document⟩) ∧
    ∀ (n : Membership) (apart : n.index.buckets ≠ n.index.documents),
      n.index.retry.maxAttempts = some m →
        (Settling.ration n apart).Exact m (Utf8.lossy n.indexKey)
          (Settling.Drained n apart m ⟨db, Settling.start n⟩) ⟨db, Settling.start n⟩ := by
  refine ⟨fun table key limited => ⟨fun value data encodable => ?_, ?_, fun c => ?_,
    fun modifier => ?_⟩, fun index indexKey change document limited => ?_,
    fun n apart limited => ?_⟩
  · exact ⟨DocumentWrite.budget_exact db limited key encodable,
      DocumentWrite.budget_single db limited key encodable⟩
  · exact DocumentDelete.budget_exact db limited key
  · exact DocumentDelete.budget_single db limited key c
  · exact DocumentUpdate.budget_exact db limited key modifier
  · exact BucketEdit.budget_exact db limited indexKey change document
  · exact Settling.budget_exact db limited apart

/-- With one round each, a document is created while it is written, another one is replaced while it
is updated, and a bucket is created while that one is settled. -/
theorem budgets_exact_of_one_round :
    ∃ (db : Database) (table : Table) (value : Value) (modifier : Modifier) (n : Membership)
      (apart : n.index.buckets ≠ n.index.documents) (create replace file : Turn),
      ((⟨db, table.set "y" value⟩ : Amid _ _).run [.own, create, .own]).progress
          = .finished (.error (.retryLimitExceeded "y" 1)) ∧
      ((⟨db, table.update "x" modifier⟩ : Amid _ _).run [.own, .own, replace, .own]).progress
          = .finished (.error (.store (.retryLimitExceeded "x" 1))) ∧
      Amid.times DocumentUpdate.applies ⟨db, table.update "x" modifier⟩
          [.own, .own, replace, .own] = 1 ∧
      Settling.Drained n apart 1 ⟨db, Settling.start n⟩ [.own, .own, file, .own] ∧
      ((⟨db, Settling.start n⟩ : Amid _ _).run [.own, .own, file, .own]).progress
          = .finished (.error (.retryLimitExceeded (Utf8.lossy n.indexKey) 1)) := by
  let table : Table := ⟨0, "t", 0, ⟨some 1, 0, 0⟩⟩
  let index : Index := ⟨"t", "i", .root, 1, 0, ⟨some 1, 0, 0⟩⟩
  let data := (Value.bool true).encoding
  let db : Database :=
    ((((Database.empty ⟨⟨some 1, 0, 0⟩⟩).perform (.registerTable "t") none).2.perform
      (.registerIndex table "i" .root) none).2.perform (.create 0 (Utf8.encode "x") data) none).2
  let modifier : Modifier := ⟨.bool, fun _ => .ok (.bool false)⟩
  let n : Membership := ⟨index, (Json.bool true).indexKey, "x"⟩
  let create : Turn := .other (.create 0 (Utf8.encode "y") data) none
  let replace : Turn := .other (.compareAndSet 0 (Utf8.encode "x") data 1) none
  let file : Turn := .other (.create 1 n.indexKey data) none
  have budgets := budgets_exact db 1
  have drained : Settling.Drained n (by decide) 1 ⟨db, Settling.start n⟩
      [.own, .own, file, .own] :=
    ⟨[], [.own, file, .own], [], rfl, by decide +kernel, by decide +kernel⟩
  refine ⟨db, table, .bool true, modifier, n, by decide, create, replace, file, ?_, ?_, ?_, drained,
    ?_⟩
  · exact (((budgets.1 table "y" rfl).1 (.bool true) data rfl).1.gives_up_iff _ _ _).2
      ⟨rfl, rfl, Or.inl (by decide +kernel)⟩
  · exact (((budgets.1 table "x" rfl).2.2.2 modifier).1.gives_up_iff _ _ _).2
      ⟨rfl, rfl, Or.inl (by decide +kernel)⟩
  · decide +kernel
  · exact ((budgets.2.2 n (by decide) rfl).gives_up_iff _ _ _).2 ⟨rfl, rfl, Or.inr drained⟩

end DocStore
