/-
How often an operation on a document is tried.

A write and a deletion are races for their document.  An update reads the document, applies its
modifier and hands the result to a write that expects the counter that was read; that write makes
one attempt only, and it is the update that begins again.

* `DocumentWrite.race`, `DocumentDelete.race`, `DocumentUpdate.loop` — the loops;
* `loops_lockFree` — **no operation of the database starts over unless somebody else has written the
  key of its loop in the meantime**, so that it begins at most one round more than there are such
  writes.
-/

import DocStore.Proofs.Documents.Plans
import DocStore.Proofs.Index.Rounds
import DocStore.Table.Update

set_option autoImplicit false

namespace DocStore

variable {table : Table} {key : String}

/-! ### Writing -/

namespace DocumentWrite

variable {w : DocumentWrite} {expected : Option Counter}

/-- What a write is about to do. -/
def raceStage (w : DocumentWrite) : Race.Stage :=
  match w.stage with
  | .reading => .reading
  | .writing _ write => .writing write
  | .syncing _ _ => .ended

theorem stage_of_raceStage_eq_reading (h : w.raceStage = .reading) : w.stage = .reading := by
  unfold raceStage at h
  split at h
  · assumption
  · cases h
  · cases h

theorem stage_of_raceStage_eq_writing {write : SlotWrite} (h : w.raceStage = .writing write) :
    ∃ old, w.stage = .writing old write := by
  unfold raceStage at h
  split at h
  · cases h
  · rename_i old other writing
    cases h
    exact ⟨old, writing⟩
  · cases h

theorem stage_of_raceStage_eq_ended (h : w.raceStage = .ended) :
    ∃ counter sync, w.stage = .syncing counter sync := by
  unfold raceStage at h
  split at h
  · cases h
  · cases h
  · exact ⟨_, _, by assumption⟩

/-- A write of this document, at the expected counter if there is one, with a plan for what it has
read. -/
structure Races (table : Table) (key : String) (expected : Option Counter)
    (w : DocumentWrite) : Prop where
  ofTable : w.table = table
  ofKey : w.key = key
  ofExpected : w.expected = expected
  planned : ∀ old write, w.stage = .writing old write → ∃ stored, w.plan stored = .ok (old, write)

/-- A write that begins another attempt may have none left, but has not found another counter. -/
theorem races_again (h : w.Races table key expected) :
    w.again.Satisfies (fun v => v.Races table key expected ∧ v.raceStage = .reading)
      fun result => result ≠ .error .counterChanged := by
  unfold again Attempts.begin
  split
  · exact ⟨⟨h.ofTable, h.ofKey, h.ofExpected, nofun⟩, rfl⟩
  · rename_i e none
    rintro ⟨⟩
    split at none
    · split at none <;> cases none
    · cases none

theorem races_start (table : Table) (key : String) (value : Value) (expected : Option Counter) :
    (start table key value expected).Satisfies
      (fun w => w.Races table key expected ∧ w.raceStage = .reading)
      fun result => result ≠ .error .counterChanged := by
  unfold start
  split
  · exact races_again ⟨rfl, rfl, rfl, nofun⟩
  · nofun

theorem races_synced (h : w.Races table key expected) (counter : Counter)
    (progress : Progress IndexSync Unit) :
    (w.synced counter progress).Satisfies
      (fun v => v.Races table key expected ∧ v.raceStage = .ended)
      fun result => result = .ok counter := by
  cases progress with
  | waiting sync => exact ⟨⟨h.ofTable, h.ofKey, h.ofExpected, nofun⟩, rfl⟩
  | finished result => rfl

/-- A write that has been made is no longer in the race. -/
theorem races_won (h : w.Races table key expected) {write : SlotWrite}
    (writing : w.raceStage = .writing write) (counter : Counter) :
    (Task.resume w (write.reply (.ok counter))).Satisfies
      (fun v => v.Races table key expected ∧ v.raceStage = .ended)
      fun result => result = .ok counter := by
  obtain ⟨old, stage⟩ := stage_of_raceStage_eq_writing writing
  obtain ⟨stored, planned⟩ := h.planned old write stage
  rw [(write_of_plan planned).1]
  simp only [Task.resume, stage]
  exact races_synced h counter _

theorem races_past (h : w.Races table key expected) (ended : w.raceStage = .ended)
    (reply : Reply) :
    (Task.resume w reply).Satisfies (fun v => v.Races table key expected ∧ v.raceStage = .ended)
      fun result => ∃ counter, result = .ok counter := by
  obtain ⟨counter, sync, stage⟩ := stage_of_raceStage_eq_ended ended
  simp only [Task.resume, stage]
  exact (races_synced h counter _).imp (fun _ h => h) fun _ h => ⟨counter, h⟩

theorem call_of_reading (h : w.Races table key expected) (reading : w.raceStage = .reading) :
    Task.call w = .get table.documents (Utf8.encode key) := by
  simp only [Task.call, stage_of_raceStage_eq_reading reading, h.ofTable, h.ofKey]

theorem call_of_writing (h : w.Races table key expected) {write : SlotWrite}
    (writing : w.raceStage = .writing write) :
    Task.call w = write.call table.documents (Utf8.encode key) := by
  obtain ⟨old, stage⟩ := stage_of_raceStage_eq_writing writing
  simp only [Task.call, stage, h.ofTable, h.ofKey]

/-- A write that has read its document has a plan, unless the caller expects another counter. -/
theorem races_read (h : w.Races table key expected) (reading : w.raceStage = .reading)
    (stored : Option (Versioned Bytes)) :
    (Task.resume w (.document (.ok stored))).Satisfies
      (fun v => v.Races table key expected ∧
        ∃ write, v.raceStage = .writing write ∧ write.Accepts stored)
      fun _ => ∃ c, expected = some c ∧ stored.map Versioned.counter ≠ some c := by
  have stage := stage_of_raceStage_eq_reading reading
  cases planned : w.plan stored with
  | error e =>
      rw [resume_of_plan_eq_error stage planned]
      exact h.ofExpected ▸ (of_plan_eq_error planned).2
  | ok next =>
      obtain ⟨old, write⟩ := next
      rw [resume_of_plan stage planned]
      refine ⟨⟨h.ofTable, h.ofKey, h.ofExpected, ?_⟩, write, rfl, (accepts_of_plan planned).1⟩
      rintro _ _ ⟨⟩
      exact ⟨stored, planned⟩

/-- A write that expects no counter races for its document. -/
def race (table : Table) (key : String) : Race DocumentWrite (Except Error Counter) where
  store := table.documents
  key := Utf8.encode key
  stage := raceStage
  kind := Races table key none
  call_reading races reading := call_of_reading races reading
  read := by
    intro w stored races reading
    exact (races_read races reading stored).imp (fun _ h => ⟨h.1, Or.inr h.2⟩) fun _ _ => trivial
  call_writing races writing := call_of_writing races writing
  won := by
    intro w write counter races writing
    exact (races_won races writing counter).imp (fun _ h => h) fun _ _ => trivial
  lost := by
    intro w write races writing
    obtain ⟨old, stage⟩ := stage_of_raceStage_eq_writing writing
    obtain ⟨stored, planned⟩ := races.planned old write stage
    rw [(write_of_plan planned).1]
    rcases resume_lost stage with ⟨c, expects, -⟩ | ⟨-, again⟩
    · rw [races.ofExpected] at expects
      cases expects
    · rw [again]
      exact (races_again races).imp (fun _ h => h) fun _ _ => trivial
  past := by
    intro w reply races ended
    exact (races_past races ended reply).imp (fun _ h => h) fun _ _ => trivial

/-- A write that expects a counter goes through if it is still there. -/
theorem satisfies_writing_expecting {c : Counter} (races : w.Races table key (some c))
    {write : SlotWrite} (writing : w.raceStage = .writing write) (db : Database) :
    (Task.resume w (db.perform (Task.call w) none).1).Satisfies
      (fun v => v.Races table key (some c) ∧ v.raceStage = .ended)
      fun result => result = .error .counterChanged →
        (db.backend.store table.documents).liveCounter? (Utf8.encode key) ≠ some c := by
  obtain ⟨old, stage⟩ := stage_of_raceStage_eq_writing writing
  obtain ⟨stored, planned⟩ := races.planned old write stage
  obtain ⟨replies, -, accepts_iff⟩ := write_of_plan planned
  rw [call_of_writing races writing]
  by_cases accepts : write.Accepts ((db.backend.store table.documents).get? (Utf8.encode key))
  · rw [db.perform_write accepts]
    refine (races_won races writing _).imp (fun _ h => h) ?_
    rintro result rfl ⟨⟩
  · rw [db.perform_write_of_not accepts, replies]
    rcases resume_lost stage with ⟨other, -, failed⟩ | ⟨none, -⟩
    · rw [failed]
      exact fun _ live => accepts ((accepts_iff c races.ofExpected _).2 live)
    · rw [races.ofExpected] at none
      cases none

end DocumentWrite

/-! ### Deleting -/

namespace DocumentDelete

variable {d : DocumentDelete}

/-- What a deletion is about to do. -/
def raceStage (d : DocumentDelete) : Race.Stage :=
  match d.stage with
  | .reading => .reading
  | .erasing _ counter => .writing (.erase counter)
  | .syncing _ => .ended

theorem stage_of_raceStage_eq_reading (h : d.raceStage = .reading) : d.stage = .reading := by
  unfold raceStage at h
  split at h
  · assumption
  · cases h
  · cases h

theorem stage_of_raceStage_eq_writing {write : SlotWrite} (h : d.raceStage = .writing write) :
    ∃ old counter, d.stage = .erasing old counter ∧ write = .erase counter := by
  unfold raceStage at h
  split at h
  · cases h
  · rename_i old counter erasing
    cases h
    exact ⟨old, counter, erasing, rfl⟩
  · cases h

theorem stage_of_raceStage_eq_ended (h : d.raceStage = .ended) :
    ∃ sync, d.stage = .syncing sync := by
  unfold raceStage at h
  split at h
  · cases h
  · cases h
  · exact ⟨_, by assumption⟩

/-- A deletion of this document, whatever it is. -/
structure Races (table : Table) (key : String) (d : DocumentDelete) : Prop where
  ofTable : d.table = table
  ofKey : d.key = key
  ofExpected : d.expected = none

theorem races_again (h : d.Races table key) :
    d.again.Satisfies (fun v => v.Races table key ∧ v.raceStage = .reading) fun _ => True := by
  unfold again
  split
  · exact ⟨⟨h.ofTable, h.ofKey, h.ofExpected⟩, rfl⟩
  · trivial

theorem races_synced (h : d.Races table key) (progress : Progress IndexSync Unit) :
    (d.synced progress).Satisfies (fun v => v.Races table key ∧ v.raceStage = .ended)
      fun _ => True := by
  cases progress with
  | waiting sync => exact ⟨⟨h.ofTable, h.ofKey, h.ofExpected⟩, rfl⟩
  | finished result => trivial

/-- A deletion that expects no counter races for its document. -/
def race (table : Table) (key : String) : Race DocumentDelete (Except Error Unit) where
  store := table.documents
  key := Utf8.encode key
  stage := raceStage
  kind := Races table key
  call_reading := by
    intro d races reading
    simp only [Task.call, stage_of_raceStage_eq_reading reading, races.ofTable, races.ofKey]
  read := by
    intro d stored races reading
    have stage := stage_of_raceStage_eq_reading reading
    cases stored with
    | none =>
        simp only [Task.resume, stage]
        trivial
    | some v =>
        rcases resume_found stage v with ⟨c, expects, -⟩ | ⟨-, goes⟩
        · rw [races.ofExpected] at expects
          cases expects
        · rw [goes]
          exact ⟨⟨races.ofTable, races.ofKey, races.ofExpected⟩, Or.inr ⟨_, rfl, rfl⟩⟩
  call_writing := by
    intro d write races writing
    obtain ⟨old, counter, stage, rfl⟩ := stage_of_raceStage_eq_writing writing
    simp only [Task.call, stage, races.ofTable, races.ofKey, SlotWrite.call]
  won := by
    intro d write counter races writing
    obtain ⟨old, expected, stage, rfl⟩ := stage_of_raceStage_eq_writing writing
    simp only [SlotWrite.reply, Except.map, Task.resume, stage]
    exact races_synced races _
  lost := by
    intro d write races writing
    obtain ⟨old, counter, stage, rfl⟩ := stage_of_raceStage_eq_writing writing
    rcases resume_lost stage with ⟨c, expects, -⟩ | ⟨-, again⟩
    · rw [races.ofExpected] at expects
      cases expects
    · rw [SlotWrite.reply, Except.map, again]
      exact races_again races
  past := by
    intro d reply races ended
    obtain ⟨sync, stage⟩ := stage_of_raceStage_eq_ended ended
    simp only [Task.resume, stage]
    exact races_synced races _

theorem races_start (table : Table) (key : String) :
    (start table key none).Satisfies (fun d => d.Races table key ∧ d.raceStage = .reading)
      fun _ => True :=
  races_again ⟨rfl, rfl, rfl⟩

end DocumentDelete

/-! ### Updating -/

namespace DocumentUpdate

variable {u : DocumentUpdate}

/-- Where in its loop an update is: the write that it hands its result to belongs to the round until
it is made. -/
def Stage.phase : Stage → Phase
  | .reading => .begins
  | .modifying _ => .within
  | .writing write =>
      match write.raceStage with
      | .ended => .ended
      | _ => .within

theorem Stage.of_phase_eq_begins {stage : Stage} (h : stage.phase = .begins) :
    stage = .reading := by
  unfold phase at h
  split at h
  · rfl
  · cases h
  · split at h <;> cases h

theorem Stage.of_phase_eq_ended {stage : Stage} (h : stage.phase = .ended) :
    ∃ write, stage = .writing write ∧ write.raceStage = .ended := by
  unfold phase at h
  split at h
  · cases h
  · cases h
  · rename_i write
    split at h
    · exact ⟨write, rfl, by assumption⟩
    · cases h

/-- How many calls the update has left in its round. -/
def Stage.left : Stage → Nat
  | .reading => 0
  | .modifying _ => 3
  | .writing write =>
      match write.raceStage with
      | .reading => 2
      | .writing _ => 1
      | .ended => 0

theorem Stage.left_pos {stage : Stage} (h : stage.phase = .within) : 0 < stage.left := by
  cases stage with
  | reading => cases h
  | modifying current => exact Nat.succ_pos 2
  | writing write =>
      cases goes : write.raceStage with
      | reading => simp only [left, goes, Nat.succ_pos]
      | writing planned => simp only [left, goes, Nat.succ_pos]
      | ended =>
          simp only [phase, goes] at h
          cases h

/-- The document is at the counter at which the update has read it. -/
def Fresh (table : Table) (key : String) (db : Database) (u : DocumentUpdate) : Prop :=
  match u.stage with
  | .reading => True
  | .modifying current =>
      (db.backend.store table.documents).liveCounter? (Utf8.encode key) = some current.counter
  | .writing write =>
      (db.backend.store table.documents).liveCounter? (Utf8.encode key) = write.expected

/-- An update of this document, whose write expects what was read. -/
structure Races (table : Table) (key : String) (u : DocumentUpdate) : Prop where
  ofTable : u.table = table
  ofKey : u.key = key
  writing : ∀ write, u.stage = .writing write →
    ∃ counter, write.Races table key (some counter)

theorem races_again (h : u.Races table key) :
    u.again.Satisfies (fun v => v.Races table key ∧ v.stage.phase = .begins) fun _ => True := by
  unfold again
  split
  · exact ⟨⟨h.ofTable, h.ofKey, fun _ same => nomatch same⟩, rfl⟩
  · trivial

theorem races_start (table : Table) (key : String) (modifier : Modifier) :
    (start table key modifier).Satisfies
      (fun u => u.Races table key ∧ u.stage.phase = .begins) fun _ => True :=
  races_again ⟨rfl, rfl, fun _ same => nomatch same⟩

/-- An update that has read its document has a round of three more calls. -/
theorem satisfies_reading (races : u.Races table key) (reading : u.stage = .reading)
    (db : Database) :
    (Task.resume u (db.perform (Task.call u) none).1).Satisfies
      (fun v => v.Races table key ∧ v.stage.phase = .within ∧
        v.Fresh table key (db.perform (Task.call u) none).2 ∧ v.stage.left ≤ 3) fun _ => True := by
  obtain ⟨owner, name, modifier, attempts, stage⟩ := u
  obtain rfl : owner = table := races.ofTable
  obtain rfl : name = key := races.ofKey
  obtain rfl : stage = .reading := reading
  rw [show Task.call (⟨owner, name, modifier, attempts, .reading⟩ : DocumentUpdate)
    = .get owner.documents (Utf8.encode name) from rfl, db.perform_get]
  cases found : (db.backend.store owner.documents).get? (Utf8.encode name) with
  | none => trivial
  | some stored =>
      simp only [Task.resume]
      cases decoded : stored.decode modifier.shape with
      | error e => trivial
      | ok current =>
          have live : (db.backend.store owner.documents).liveCounter? (Utf8.encode name)
              = some current.counter := by
            rw [Store.liveCounter?_of_get? found, Versioned.counter_of_decode decoded]
          exact ⟨⟨rfl, rfl, fun _ same => nomatch same⟩, rfl, live, Nat.le_refl 3⟩

/-- An update goes on with its write, and begins again only if that has found another counter. -/
theorem satisfies_written (races : u.Races table key) {c : Counter} {P : DocumentWrite → Prop}
    {Q : Prop} {progress : Progress DocumentWrite (Except Error Counter)}
    (goes : progress.Satisfies (fun w => w.Races table key (some c) ∧ P w)
      fun result => result = .error .counterChanged → Q) :
    (u.written progress).Satisfies
      (fun v => v.Races table key ∧
        ((∃ w, v.stage = .writing w ∧ w.expected = some c ∧ P w) ∨ v.stage.phase = .begins ∧ Q))
      fun _ => True := by
  unfold written
  split
  · rename_i w
    refine ⟨⟨races.ofTable, races.ofKey, ?_⟩, Or.inl ⟨w, rfl, goes.1.ofExpected, goes.2⟩⟩
    rintro _ ⟨⟩
    exact ⟨c, goes.1⟩
  · trivial
  · exact (races_again races).imp (fun _ h => ⟨h.1, Or.inr ⟨h.2, goes rfl⟩⟩) fun _ h => h
  · trivial

/-- An update hands its result to a write that expects what was read. -/
theorem satisfies_modifying (races : u.Races table key) {current : Versioned Value}
    (modifying : u.stage = .modifying current) :
    (Task.resume u (.done (.ok ()))).Satisfies
      (fun v => v.Races table key ∧ ∃ w, v.stage = .writing w ∧
        w.expected = some current.counter ∧ w.raceStage = .reading) fun _ => True := by
  simp only [Task.resume, modifying]
  cases applied : u.modifier.apply current.value with
  | error reason => trivial
  | ok value =>
      rw [races.ofTable, races.ofKey]
      have start := DocumentWrite.races_start table key value (some current.counter)
      refine (satisfies_written races (Q := False) (start.imp (fun _ h => h) fun _ h => h)).imp ?_
        fun _ h => h
      rintro v ⟨races, goes | ⟨-, none⟩⟩
      · exact ⟨races, goes⟩
      · exact none.elim

theorem resume_writing {w : DocumentWrite} (writing : u.stage = .writing w) (reply : Reply) :
    Task.resume u reply = u.written (Task.resume w reply) := by
  simp only [Task.resume, writing]

/-- A step of the write within the round of its update. -/
theorem satisfies_writing (races : u.Races table key) {w : DocumentWrite}
    (writing : u.stage = .writing w) (within : u.stage.phase = .within) (db : Database) :
    (Task.resume u (db.perform (Task.call u) none).1).Satisfies
      (fun v => v.Races table key ∧
        (v.stage.phase = .ended ∨ (v.stage.phase = .within ∧
          (u.Fresh table key db → v.Fresh table key (db.perform (Task.call u) none).2) ∧
            v.stage.left < u.stage.left) ∨
        v.stage.phase = .begins ∧ ¬ u.Fresh table key db)) fun _ => True := by
  obtain ⟨c, inner⟩ := races.writing w writing
  have fresh_iff : u.Fresh table key db ↔
      (db.backend.store table.documents).liveCounter? (Utf8.encode key) = some c := by
    rw [Fresh, writing, ← inner.ofExpected]
  have call : Task.call u = Task.call w := by
    simp only [Task.call, writing]
  rw [resume_writing writing, call, fresh_iff]
  -- the write reads once more and makes one attempt, and fails at another counter either way
  cases stage : w.raceStage with
  | reading =>
      rw [DocumentWrite.call_of_reading inner stage, db.perform_get]
      have goes := DocumentWrite.races_read inner stage
        ((db.backend.store table.documents).get? (Utf8.encode key))
      refine (satisfies_written races (goes.imp (fun _ h => h) fun _ h _ => h)).imp ?_ fun _ h => h
      rintro v ⟨races, ⟨w', now, expects, write, planned, -⟩ | ⟨begins, other, same, changed⟩⟩
      · refine ⟨races, Or.inr (Or.inl ⟨?_, fun live => ?_, ?_⟩)⟩
        · simp only [now, Stage.phase, planned]
        · simp only [Fresh, now, expects, live]
        · simp only [Stage.left, now, planned, writing, stage, Nat.lt_succ_self]
      · exact ⟨races, Or.inr (Or.inr ⟨begins, Option.some.inj same ▸ changed⟩)⟩
  | writing write =>
      have goes := DocumentWrite.satisfies_writing_expecting inner stage db
      refine (satisfies_written races goes).imp ?_ fun _ h => h
      rintro v ⟨races, ⟨w', now, -, ended⟩ | again⟩
      · exact ⟨races, Or.inl (by simp only [now, Stage.phase, ended])⟩
      · exact ⟨races, Or.inr (Or.inr again)⟩
  | ended =>
      simp only [writing, Stage.phase, stage] at within
      cases within

/-- An update reads its document and writes it over what it has read, round after round. -/
def loop (table : Table) (key : String) : Loop DocumentUpdate (Except UpdateError Counter) where
  store := table.documents
  key := Utf8.encode key
  phase u := u.stage.phase
  rest := 3
  extra _ _ _ := 0
  kind := Races table key
  fresh := Fresh table key
  left _ u := u.stage.left
  begin_step := by
    intro db u races phase
    have reading := Stage.of_phase_eq_begins phase
    exact (satisfies_reading races reading db).imp (fun _ h => ⟨h.1, Or.inr h.2⟩) fun _ h => h
  within_step := by
    intro db u races phase
    refine ⟨Stage.left_pos phase, ?_⟩
    cases stage : u.stage with
    | reading =>
        rw [stage] at phase
        cases phase
    | modifying current =>
        have call : Task.call u = .modify := by
          simp only [Task.call, stage]
        rw [call]
        refine (satisfies_modifying races stage).imp ?_ fun _ h => h
        rintro v ⟨races, w, now, expects, reading⟩
        refine ⟨races, Or.inr (Or.inl ⟨?_, fun live => ?_, ?_⟩)⟩
        · simp only [now, Stage.phase, reading]
        · simp only [Fresh, stage] at live
          simp only [Fresh, now, expects]
          exact live
        · simp only [Stage.left, now, reading, Nat.lt_succ_self]
    | writing w =>
        rw [← stage]
        exact satisfies_writing races stage phase db
  ended_step := by
    intro db u races phase
    obtain ⟨w, writing, ended⟩ := Stage.of_phase_eq_ended phase
    obtain ⟨c, inner⟩ := races.writing w writing
    have goes := DocumentWrite.races_past inner ended (db.perform (Task.call u) none).1
    rw [resume_writing writing]
    refine (satisfies_written races (Q := False) (goes.imp (fun _ h => h) ?_)).imp ?_ fun _ h => h
    · rintro result ⟨counter, rfl⟩ ⟨⟩
    · rintro v ⟨races, ⟨w', now, -, ended⟩ | ⟨-, none⟩⟩
      · exact ⟨races, by simp only [now, Stage.phase, ended]⟩
      · exact none.elim
  fresh_other := by
    intro db u call fault races phase spares fresh
    unfold Fresh at fresh ⊢
    simp only [Store.liveCounter?, db.get?_perform_of_not_mutates spares]
    exact fresh
  left_other _ _ := Nat.le_refl _

end DocumentUpdate

/-! ### Every loop -/

/-- **No operation starts over unless somebody else has written the key of its loop in the
meantime**, be it the document that it writes, deletes, updates or settles, or the bucket that it
changes; and so it begins at most one round more than others write that key, and ends its loop if it
gets its turns.  This holds whatever calls others make between its own, and so among any operations
of a run (`Run.exists_turns`). -/
theorem loops_lockFree (db : Database) :
    (∀ (table : Table) (key : String) (value : Value),
      (DocumentWrite.race table key).loop.LockFree ⟨db, table.set key value⟩) ∧
    (∀ (table : Table) (key : String),
      (DocumentDelete.race table key).loop.LockFree ⟨db, table.delete key⟩) ∧
    (∀ (table : Table) (key : String) (modifier : Modifier),
      (DocumentUpdate.loop table key).LockFree ⟨db, table.update key modifier⟩) ∧
    (∀ (index : Index) (indexKey : Bytes) (change : Bucket.Change) (document : String),
      (BucketEdit.race index indexKey).loop.LockFree
        ⟨db, BucketEdit.start index indexKey change document⟩) ∧
    ∀ (m : Membership) (apart : m.index.buckets ≠ m.index.documents),
      (Settling.loop m apart).LockFree ⟨db, Settling.start m⟩ := by
  refine ⟨fun table key value => ?_, fun table key => ?_, fun table key modifier => ?_,
    BucketEdit.lockFree_start db, fun m apart => Settling.lockFree_start db apart⟩
  · exact (DocumentWrite.race table key).lockFree
      ((DocumentWrite.races_start table key value none).imp (fun _ h => h) fun _ _ => trivial)
  · exact (DocumentDelete.race table key).lockFree (DocumentDelete.races_start table key)
  · exact (DocumentUpdate.loop table key).lockFree_of_begins
      (DocumentUpdate.races_start table key modifier)

/-- A document is written while it is settled for the first time, which takes a second round. -/
theorem loops_lockFree_of_disturbed :
    ∃ (db : Database) (m : Membership) (apart : m.index.buckets ≠ m.index.documents)
      (turns : List Turn),
      (Settling.loop m apart).rounds ⟨db, Settling.start m⟩ turns = 2 ∧
      (Settling.loop m apart).foreign ⟨db, Settling.start m⟩ turns = 1 ∧
      (Settling.loop m apart).LockFree ⟨db, Settling.start m⟩ := by
  let table : Table := ⟨0, "t", 0, Config.default.retry⟩
  let index : Index := ⟨"t", "i", .root, 1, 0, Config.default.retry⟩
  let db : Database :=
    ((((Database.empty .default).perform (.registerTable "t") none).2).perform
      (.registerIndex table "i" .root) none).2
  let m : Membership := ⟨index, (Json.bool true).indexKey, "x"⟩
  let written : Turn := .other (.create 0 (Utf8.encode "x") (Value.bool true).encoding) none
  refine ⟨db, m, by decide, [.own, .own, written, .own, .own, .own, .own, .own], ?_, ?_,
    (loops_lockFree db).2.2.2.2 m (by decide)⟩
  · decide +kernel
  · decide +kernel

end DocStore
