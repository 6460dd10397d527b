/-
How often the upkeep of an index may be tried.

A change of a bucket asks its policy before each reading of the bucket, and a settling before each
first reading of its document.  The two budgets are apart: the change of the bucket within a round
of a settling has one of its own, of the same size and on the same key.  So a settling gives up in
two ways that its error does not tell from each other.  Either all its own rounds are lost, to
writes of the document; or one change of the bucket has lost all of its rounds, to writes of the
bucket.

* `BucketEdit.asks`, `BucketEdit.budget_exact` — a change of a bucket asks for every round;
* `BucketEdit.resume_stands` — one call of such a change, within another operation;
* `Settling.ration` — a settling asks for every round, and drains the change within it;
* `Settling.exists_begun` — the change of the bucket that is under way has begun in this round;
* `Settling.Drained`, `Settling.budget_exact` — **the budget of a settling is exact.**
-/

import DocStore.Proofs.Index.Rounds
import DocStore.Proofs.Index.Settling
import DocStore.Proofs.Run.Budgets

set_option autoImplicit false

namespace DocStore

/-! ### One bucket -/

namespace BucketEdit

variable {edit : BucketEdit}

theorem asked_again (edit : BucketEdit) :
    edit.again.Asked edit.attempts .error
      fun next e => e = { edit with attempts := next, write := none } := by
  unfold again Progress.Asked
  cases edit.attempts.begin with
  | ok next => exact rfl
  | error e => rfl

/-- There is no plan only for a bucket that cannot be decoded. -/
theorem eq_decode_of_plan {change : Bucket.Change} {document : String}
    {stored : Option (Versioned Bytes)} {e : Error}
    (h : Bucket.plan change document stored = .error e) : e = .decode := by
  cases read : Bucket.documents? stored with
  | none => exact Except.error.inj (h.symm.trans (Bucket.plan_of_documents?_eq_none read))
  | some list =>
      rw [Bucket.plan_eq read] at h
      cases h

/-- A change of a bucket asks for every round. -/
def asks (index : Index) (indexKey : Bytes) : (race index indexKey).Asks where
  attempts := BucketEdit.attempts
  report := .error
  reports same := Except.error.inj same
  read := by
    intro edit stored kind reading
    simp only [Task.resume, stage_eq_reading_iff.1 reading]
    cases planned : Bucket.plan edit.change edit.document stored with
    | error e =>
        obtain rfl := eq_decode_of_plan planned
        exact nofun
    | ok write? =>
        cases write? with
        | none => exact nofun
        | some write => exact rfl
  won := by
    intro edit write counter kind writing
    rw [resume_reply (stage_eq_writing_iff.1 writing)]
    exact nofun
  lost := by
    intro edit write kind writing
    rw [resume_reply (stage_eq_writing_iff.1 writing)]
    refine edit.asked_again.imp ?_
    rintro next e - rfl
    exact ⟨kind, rfl, rfl⟩
  past := by
    intro edit reply kind ended
    exact absurd (congrArg Race.Stage.phase ended) edit.phase_ne_ended

theorem asked_start (index : Index) (indexKey : Bytes) (change : Bucket.Change)
    (document : String) :
    (start index indexKey change document).Asked (index.retry.attempts indexKey) .error
      fun next e => (race index indexKey).kind e ∧ (race index indexKey).stage e = .reading ∧
        e.attempts = next := by
  refine (asked_again ⟨index, indexKey, change, document, index.retry.attempts indexKey,
    none⟩).imp ?_
  rintro next e - rfl
  exact ⟨⟨rfl, rfl⟩, rfl, rfl⟩

/-- **The budget of a change of a bucket is exact.** -/
theorem budget_exact (db : Database) {index : Index} {m : UInt32}
    (limited : index.retry.maxAttempts = some m) (indexKey : Bytes) (change : Bucket.Change)
    (document : String) :
    (asks index indexKey).ration.Exact m (Utf8.lossy indexKey) (fun _ => False)
      ⟨db, start index indexKey change document⟩ :=
  (asks index indexKey).exact limited (asked_start index indexKey change document)

/-- The next call finds the race lost, and there is no other round. -/
def drains (db : Database) (edit : BucketEdit) : Bool :=
  (race edit.index edit.indexKey).loses db edit && !edit.attempts.begin.isOk

variable {limit : Option UInt32} {key : Bytes}

/-- One call of a change of a bucket: it has given up, or it goes on with no more attempts than
there may be, or it has ended in another way. -/
theorem resume_stands (stands : edit.attempts.Stands limit key) (db : Database) :
    edit.drains db = true ∧ (∃ l, limit = some l ∧
        Task.resume edit (db.perform (Task.call edit) none).1
          = .finished (.error (.retryLimitExceeded (Utf8.lossy key) l))) ∨
      edit.drains db = false ∧
        (Task.resume edit (db.perform (Task.call edit) none).1).Satisfies
          (fun e => e.attempts.Stands limit key) (Unrefused .error) := by
  let ration := (asks edit.index edit.indexKey).ration
  have kind : ration.sound edit := ⟨rfl, rfl⟩
  have stays : ∀ e : BucketEdit, ration.attempts e = edit.attempts →
      e.attempts.Stands limit key := fun e same => (show e.attempts = _ from same) ▸ stands
  unfold drains
  cases loses : (race edit.index edit.indexKey).loses db edit with
  | true =>
      have asked := ration.lost_step kind loses
      rcases Attempts.begin_of_stands stands with ⟨l, limited, -, refused⟩ | ⟨begun, next, -⟩
      · refine Or.inl ⟨by rw [refused]; rfl, l, limited, ?_⟩
        unfold Progress.Asked at asked
        rw [show (ration.attempts edit).begin = _ from refused] at asked
        exact asked
      · refine Or.inr ⟨by rw [begun]; rfl, ?_⟩
        unfold Progress.Asked at asked
        rw [show (ration.attempts edit).begin = _ from begun] at asked
        exact asked.imp (fun e h => (show e.attempts = _ from h.2.2) ▸ next) fun _ none => none.elim
  | false =>
      refine Or.inr ⟨rfl, ?_⟩
      cases phase : (race edit.index edit.indexKey).loop.phase edit with
      | begins =>
          exact (ration.begin_step db kind phase).imp (fun e h => stays e h.2.2) fun _ h => h
      | within =>
          exact (ration.within_step kind phase loses rfl).imp (fun e h => stays e h.2.2)
            fun _ h => h
      | ended => exact absurd phase edit.phase_ne_ended

end BucketEdit

/-! ### Settling -/

namespace Settling

variable {m : Membership} {s : Settling} {db : Database}

theorem asked_again (s : Settling) :
    s.again.Asked s.attempts .error
      fun next t => t = { s with attempts := next, stage := .before } := by
  unfold again Progress.Asked
  cases s.attempts.begin with
  | ok next => exact rfl
  | error e => rfl

/-- A settling of this membership that may make attempts, and has made no more than it may; nor has
its change of the bucket. -/
structure Asks (m : Membership) (s : Settling) : Prop where
  concerns : s.Concerns (· = m) fun e =>
    e.attempts.Stands m.index.retry.maxAttempts m.indexKey
  stands : s.attempts.Stands m.index.retry.maxAttempts m.indexKey
  tries : m.index.retry.maxAttempts ≠ some 0

theorem Asks.settles (h : s.Asks m) : s.Settles m :=
  h.concerns.imp (fun _ h => h) fun _ _ _ => trivial

/-- The document is at another counter than the one that the settling has seen. -/
def loses (m : Membership) (db : Database) (s : Settling) : Bool :=
  match s.stage with
  | .after seen => m.counter? db != seen
  | _ => false

/-- The change of the bucket has lost its last round. -/
def drains (db : Database) (s : Settling) : Bool :=
  match s.stage with
  | .editing _ edit => edit.drains db
  | _ => false

theorem of_loses (h : loses m db s = true) :
    ∃ seen, s.stage = .after seen ∧ m.counter? db ≠ seen := by
  unfold loses at h
  split at h
  · exact ⟨_, by assumption, by simpa using h⟩
  · cases h

theorem of_drains (h : s.drains db = true) :
    ∃ seen edit, s.stage = .editing seen edit ∧ edit.drains db = true := by
  unfold drains at h
  split at h
  · exact ⟨_, _, by assumption, h⟩
  · cases h

/-- A settling goes on with its bucket. -/
theorem Asks.edited (h : s.Asks m) (seen : Option Counter)
    {progress : Progress BucketEdit (Except Error Unit)}
    (goes : progress.Satisfies
      (fun e => e.membership = s.membership ∧
        e.attempts.Stands m.index.retry.maxAttempts m.indexKey) (Unrefused .error)) :
    (s.edited seen progress).Satisfies
      (fun t => t.Asks m ∧ t.stage.phase ≠ .begins ∧ t.attempts = s.attempts)
      (Unrefused .error) := by
  match progress with
  | .waiting edit =>
      refine ⟨⟨⟨h.concerns.1, ?_⟩, h.stands, h.tries⟩, nofun, rfl⟩
      rintro _ _ ⟨⟩
      exact goes
  | .finished (.ok ()) => exact ⟨⟨⟨h.concerns.1, nofun⟩, h.stands, h.tries⟩, nofun, rfl⟩
  | .finished (.error e) =>
      intro name made same
      cases same
      exact goes name made rfl

/-- A settling that has read its document begins to change the bucket. -/
theorem resume_before (h : s.Settles m) (before : s.stage = .before) (db : Database) :
    Task.resume s (db.perform (Task.call s) none).1
        = s.edited (m.counter? db)
          (BucketEdit.start m.index m.indexKey (m.demand db) m.document) ∧
      (db.perform (Task.call s) none).2 = db := by
  obtain ⟨n, attempts, stage⟩ := s
  obtain rfl : n = m := h.1
  obtain rfl : stage = .before := before
  exact ⟨rfl, rfl⟩

/-- A settling that changes its bucket does what that change does. -/
theorem resume_editing {seen : Option Counter} {edit : BucketEdit}
    (editing : s.stage = .editing seen edit) :
    Task.resume s (db.perform (Task.call s) none).1
      = s.edited seen (Task.resume edit (db.perform (Task.call edit) none).1) := by
  obtain ⟨n, attempts, stage⟩ := s
  obtain rfl : stage = .editing seen edit := editing
  rfl

/-- A settling that has changed its bucket is done, or begins again. -/
theorem resume_after (h : s.Settles m) {seen : Option Counter} (after : s.stage = .after seen) :
    Task.resume s (db.perform (Task.call s) none).1
      = if m.counter? db = seen then .finished (.ok ()) else s.again := by
  obtain ⟨n, attempts, stage⟩ := s
  obtain rfl : n = m := h.1
  obtain rfl : stage = .after seen := after
  rfl

/-- A settling that has read its document begins to change the bucket, as that change may make as
many attempts as the settling. -/
theorem Asks.begins (h : s.Asks m) (before : s.stage = .before) (db : Database) :
    (Task.resume s (db.perform (Task.call s) none).1).Satisfies
      (fun t => t.Asks m ∧ t.stage.phase ≠ .begins ∧ t.attempts = s.attempts)
      (Unrefused .error) := by
  rw [(resume_before h.settles before db).1]
  refine h.edited _ ?_
  have stands := Attempts.stands_attempts m.index.retry m.indexKey
  rcases (BucketEdit.asked_again ⟨m.index, m.indexKey, m.demand db, m.document,
      m.index.retry.attempts m.indexKey, none⟩).cases stands with
    ⟨_, limited, none, -⟩ | ⟨e, begun, rfl, next, -⟩
  · exact absurd (limited.trans (congrArg some none.symm)) h.tries
  · rw [show BucketEdit.start m.index m.indexKey (m.demand db) m.document = .waiting _ from begun]
    exact ⟨h.concerns.1.symm, next⟩

/-- A settling whose change of the bucket has lost its last round reports this. -/
theorem Asks.refuses (h : s.Asks m) (drained : s.drains db = true) :
    s.stage.phase = .within ∧ loses m db s = false ∧ ∃ l, s.attempts.limit = some l ∧
      Task.resume s (db.perform (Task.call s) none).1
        = .finished (.error (.retryLimitExceeded (Utf8.lossy s.attempts.key) l)) := by
  obtain ⟨seen, edit, editing, drained⟩ := of_drains drained
  refine ⟨congrArg Stage.phase editing, by simp only [loses, editing], ?_⟩
  rcases BucketEdit.resume_stands (h.concerns.2 seen edit editing).2 db with
    ⟨-, l, limited, refused⟩ | ⟨going, -⟩
  · refine ⟨l, h.stands.limit_eq.trans limited, ?_⟩
    rw [resume_editing editing, refused, h.stands.key_eq]
    rfl
  · rw [drained] at going
    cases going

/-- A settling whose change of the bucket has not lost its last round goes on with it. -/
theorem Asks.edits (h : s.Asks m) {seen : Option Counter} {edit : BucketEdit}
    (editing : s.stage = .editing seen edit) (undrained : s.drains db = false) :
    (Task.resume s (db.perform (Task.call s) none).1).Satisfies
      (fun t => t.Asks m ∧ t.stage.phase ≠ .begins ∧ t.attempts = s.attempts)
      (Unrefused .error) := by
  rw [resume_editing editing]
  obtain ⟨same, stands⟩ := h.concerns.2 seen edit editing
  refine h.edited seen ?_
  rcases BucketEdit.resume_stands stands db with ⟨drains, -⟩ | ⟨-, goes⟩
  · simp only [Settling.drains, editing, drains] at undrained
    cases undrained
  · exact ((edit.membership_resume _).and goes).imp (fun e h => ⟨h.1.trans same, h.2⟩)
      fun _ h => h.2

/-- A settling asks for every round; the change of the bucket within a round asks, too. -/
noncomputable def ration (m : Membership) (apart : m.index.buckets ≠ m.index.documents) :
    Ration (loop m apart) where
  attempts := Settling.attempts
  report := .error
  loses := loses m
  drains := drains
  sound := Asks m
  reports same := Except.error.inj same
  kind sound := sound.settles
  stale := by
    intro db s sound lost
    obtain ⟨seen, after, changed⟩ := of_loses lost
    refine ⟨congrArg Stage.phase after, ?_⟩
    simp only [loop, Fresh, after]
    exact changed
  begin_step db _ sound phase := sound.begins (Stage.of_phase_eq_begins phase) db
  lost_step := by
    intro db s sound lost
    obtain ⟨seen, after, changed⟩ := of_loses lost
    rw [resume_after sound.settles after, if_neg changed]
    refine s.asked_again.imp ?_
    rintro next t begun rfl
    exact ⟨⟨⟨sound.concerns.1, nofun⟩, sound.stands.of_begin begun, sound.tries⟩, rfl, rfl⟩
  drained_step sound drained := sound.refuses drained
  within_step := by
    intro db s sound phase kept undrained
    cases stage : s.stage with
    | before => simp [loop, stage, Stage.phase] at phase
    | editing seen edit => exact sound.edits stage undrained
    | after seen =>
        have unchanged : m.counter? db = seen := by
          simpa [loses, stage] using kept
        rw [resume_after sound.settles stage, if_pos unchanged]
        nofun
  ended_step := by
    intro db s sound phase
    exact absurd phase s.stage.phase_ne_ended

theorem asked_start (m : Membership) (apart : m.index.buckets ≠ m.index.documents) :
    (start m).Asked (m.index.retry.attempts m.indexKey) .error
      fun next t => (ration m apart).sound t ∧ (loop m apart).phase t = .begins ∧
        (ration m apart).attempts t = next := by
  refine (asked_again ⟨m, m.index.retry.attempts m.indexKey, .before⟩).imp ?_
  rintro next t begun rfl
  have stands := Attempts.stands_attempts m.index.retry m.indexKey
  exact ⟨⟨⟨rfl, nofun⟩, stands.of_begin begun, RetryPolicy.tries_of_begin begun⟩, rfl, rfl⟩

/-! ### Drained rounds -/

section Drained

variable {apart : m.index.buckets ≠ m.index.documents} {a : Amid Settling (Except Error Unit)}
  {turns : List Turn}

/-- The change of the bucket that begins when a settling reads its document. -/
def within (m : Membership) (db : Database) : Amid BucketEdit (Except Error Unit) :=
  ⟨db, BucketEdit.start m.index m.indexKey (m.demand db) m.document⟩

/-- A settling that begins a round goes on with the change of its bucket. -/
theorem turn_own_of_begins (keeps : (loop m apart).Keeps a)
    (begins : (loop m apart).now a = .begins) :
    ∃ t : Settling,
      a.turn .own = ⟨a.db, t.edited (m.counter? a.db) (within m a.db).progress⟩ := by
  obtain ⟨db, progress⟩ := a
  cases progress with
  | finished result => cases begins
  | waiting t =>
      obtain ⟨goes, same⟩ := resume_before keeps (Stage.of_phase_eq_begins begins) db
      refine ⟨t, ?_⟩
      simp only [Amid.turn, goes, same]
      rfl

/-- A settling that changes its bucket has gone on with a change that is under way. -/
theorem eq_waiting_of_edited {t : Settling} {seen seen' : Option Counter} {edit : BucketEdit}
    {progress : Progress BucketEdit (Except Error Unit)}
    (goes : s.edited seen progress = .waiting t) (editing : t.stage = .editing seen' edit) :
    progress = .waiting edit := by
  match progress with
  | .waiting e =>
      cases goes
      cases editing
      rfl
  | .finished (.ok ()) =>
      cases goes
      cases editing
  | .finished (.error e) => cases goes

/-- A settling changes its bucket because it has just read its document, or because it has been
changing it. -/
theorem of_resume_editing {u t : Settling} (settles : u.Settles m)
    (goes : Task.resume u (db.perform (Task.call u) none).1 = .waiting t)
    {seen : Option Counter} {edit : BucketEdit} (editing : t.stage = .editing seen edit) :
    (u.stage = .before ∧ within m db = ⟨(db.perform (Task.call u) none).2, .waiting edit⟩) ∨
      ∃ seen' edit', u.stage = .editing seen' edit' ∧ Task.call u = Task.call edit' ∧
        Task.resume edit' (db.perform (Task.call edit') none).1 = .waiting edit := by
  cases stage : u.stage with
  | before =>
      obtain ⟨start, same⟩ := resume_before settles stage db
      refine Or.inl ⟨rfl, ?_⟩
      rw [same, ← eq_waiting_of_edited (start.symm.trans goes) editing]
      rfl
  | editing seen' edit' =>
      exact Or.inr ⟨seen', edit', rfl, by simp only [Task.call, stage],
        eq_waiting_of_edited ((resume_editing stage).symm.trans goes) editing⟩
  | after seen' =>
      have next := (resume_after settles stage).symm.trans goes
      split at next
      · cases next
      · unfold again at next
        split at next
        · cases next
          cases editing
        · cases next

/-- **A change of the bucket that is under way has begun in some round**, and has been under way in
all the turns since then. -/
theorem exists_begun (keeps : (loop m apart).Keeps a)
    (start : a.progress.Satisfies (fun t => t.stage = .before) fun _ => True) {t : Settling}
    {seen : Option Counter} {edit : BucketEdit} (waits : (a.run turns).progress = .waiting t)
    (editing : t.stage = .editing seen edit) :
    ∃ early during, turns = early ++ .own :: during ∧ (loop m apart).now (a.run early) = .begins ∧
      (within m (a.run early).db).run during = ⟨(a.run turns).db, .waiting edit⟩ := by
  induction turns using List.reverseRecOn generalizing t seen edit with
  | nil =>
      have waits : a.progress = .waiting t := waits
      rw [waits] at start
      cases start.symm.trans editing
  | append_singleton turns turn ih =>
      rw [Amid.run_concat] at waits ⊢
      cases turn with
      | other call fault =>
          obtain ⟨early, during, rfl, begins, inner⟩ := ih waits editing
          refine ⟨early, during ++ [.other call fault], by simp, begins, ?_⟩
          rw [Amid.run_concat, inner]
          rfl
      | own =>
          have kept := (loop m apart).keeps_run keeps turns
          cases before : (a.run turns).progress with
          | finished result =>
              cases (Amid.progress_run_of_finished before [.own]).symm.trans waits
          | waiting u =>
              rw [Loop.Keeps, before] at kept
              rw [Amid.turn_own before] at waits ⊢
              rcases of_resume_editing kept waits editing with
                ⟨stage, starts⟩ | ⟨seen', edit', stage, same, goes⟩
              · refine ⟨turns, [], rfl, ?_, starts⟩
                simp only [Loop.now, before]
                exact congrArg Stage.phase stage
              · obtain ⟨early, during, rfl, begins, inner⟩ := ih before stage
                refine ⟨early, during ++ [.own], by simp, begins, ?_⟩
                rw [Amid.run_concat, inner, Amid.turn_own rfl, goes, same]

/-- In some round of the settling the change of the bucket has lost all the rounds that it may
have. -/
def Drained (m : Membership) (apart : m.index.buckets ≠ m.index.documents) (limit : UInt32)
    (a : Amid Settling (Except Error Unit)) (turns : List Turn) : Prop :=
  ∃ early during later, turns = early ++ .own :: (during ++ later) ∧
    (loop m apart).now (a.run early) = .begins ∧
      (BucketEdit.asks m.index m.indexKey).ration.lost (within m (a.run early).db) during
        = limit.toNat

variable {db : Database} {limit : UInt32}

theorem within_exact (limited : m.index.retry.maxAttempts = some limit) (db : Database) :
    (BucketEdit.asks m.index m.indexKey).ration.Exact limit (Utf8.lossy m.indexKey)
      (fun _ => False) (within m db) :=
  BucketEdit.budget_exact db limited m.indexKey (m.demand db) m.document

/-- The change of the bucket that has lost its last round has lost them all. -/
theorem lost_of_drains (limited : m.index.retry.maxAttempts = some limit) {db after : Database}
    {during : List Turn} {edit : BucketEdit}
    (waits : (within m db).run during = ⟨after, .waiting edit⟩)
    (drains : edit.drains after = true) :
    (BucketEdit.asks m.index m.indexKey).ration.lost (within m db) (during ++ [.own])
      = limit.toNat := by
  let ration := (BucketEdit.asks m.index m.indexKey).ration
  have start : ration.Reached limit m.indexKey 0 0 0 (within m db).progress :=
    ration.reached_asked limited <| (BucketEdit.asked_start m.index m.indexKey (m.demand db)
      m.document).imp fun _ _ _ h => ⟨h.1, congrArg Race.Stage.phase h.2.1, h.2.2⟩
  have reached := ration.reached_run start during
  rw [waits] at reached
  have stands : edit.attempts.Stands (some limit) m.indexKey :=
    (reached.2.2.2.2 edit.phase_ne_ended).1
  rcases BucketEdit.resume_stands stands after with ⟨-, _, ⟨⟩, refused⟩ | ⟨going, -⟩
  · have ended : ((within m db).run (during ++ [.own])).progress
        = .finished (.error (.retryLimitExceeded (Utf8.lossy m.indexKey) limit)) := by
      rw [Amid.run_concat, waits]
      exact refused
    rcases ((within_exact limited db).gives_up_iff _ _ _).1 ended with ⟨-, -, all | none⟩
    · exact all
    · exact none.elim
  · rw [drains] at going
    cases going

theorem keeps_start (db : Database) : (loop m apart).Keeps ⟨db, start m⟩ :=
  (satisfies_start m).imp (fun _ h => h.1) fun _ h => h

/-- A settling whose change of the bucket has run out of rounds has given up. -/
theorem gives_up_of_drained (limited : m.index.retry.maxAttempts = some limit)
    (drained : Drained m apart limit ⟨db, start m⟩ turns) :
    ((⟨db, start m⟩ : Amid Settling (Except Error Unit)).run turns).progress
      = .finished (.error (.retryLimitExceeded (Utf8.lossy m.indexKey) limit)) := by
  obtain ⟨early, during, later, rfl, begins, all⟩ := drained
  have ended := ((within_exact limited _).gives_up_iff during _ _).2 ⟨rfl, rfl, Or.inl all⟩
  obtain ⟨t, goes⟩ := turn_own_of_begins ((loop m apart).keeps_run (keeps_start db) early) begins
  rw [Amid.run_append, ← List.cons_append, Amid.run_append]
  refine Amid.progress_run_of_finished ?_ later
  generalize m.counter? _ = seen at goes
  rw [edited_eq_andThen] at goes
  refine (congrArg (fun u : Amid Settling (Except Error Unit) => (u.run during).progress)
    goes).trans ?_
  refine Amid.progress_run_andThen (s := within m _)
    (fun edit => { t with stage := .editing seen edit }) _ (fun _ => rfl) ?_ ended ?_
  · exact fun edit reply => edited_eq_andThen t seen (Task.resume edit reply)
  · rfl

/-- A change of the bucket that has run out of rounds within a settling has lost them all. -/
theorem drained_of_counted (limited : m.index.retry.maxAttempts = some limit)
    (drained : (ration m apart).drained ⟨db, start m⟩ turns ≠ 0) :
    Drained m apart limit ⟨db, start m⟩ turns := by
  obtain ⟨before, later, t, rfl, waits, drains⟩ := Amid.exists_of_times_ne_zero drained
  obtain ⟨seen, edit, editing, drains⟩ := of_drains drains
  obtain ⟨early, during, rfl, begins, inner⟩ := exists_begun (keeps_start db)
    ((satisfies_start m).imp (fun _ h => h.2) fun _ h => h) waits editing
  refine ⟨early, during ++ [.own], later, by simp, begins, ?_⟩
  exact lost_of_drains limited inner drains

/-- **The budget of a settling is exact.** -/
theorem budget_exact (db : Database) (limited : m.index.retry.maxAttempts = some limit)
    (apart : m.index.buckets ≠ m.index.documents) :
    (ration m apart).Exact limit (Utf8.lossy m.indexKey)
      (Drained m apart limit ⟨db, start m⟩) ⟨db, start m⟩ :=
  ((ration m apart).exact limited (asked_start m apart)).congr _
    (fun _ drained => gives_up_of_drained limited drained)
    fun _ drained => drained_of_counted limited drained

end Drained

end Settling

end DocStore
