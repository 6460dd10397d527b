/-
How often the upkeep of an index is tried.

A change of a bucket is a race for the bucket.  A settling reads its document, changes the bucket,
and begins another round if the document is another one by then; its rounds are longer than those of
a race, as the change of the bucket may take several, and it is the writes of others to the bucket
that make them longer.

* `BucketEdit.race`, `BucketEdit.lockFree_start` — **a change of a bucket that starts over has been
  disturbed at the bucket;**
* `Settling.loop`, `Settling.lockFree_start` — **a settling that starts over has been disturbed at
  the document;**
* `IndexSync.run_edit`, `SettleQueue.run_start` — **in the upkeep of a document either one runs as
  if it were by itself.**
-/

import DocStore.Proofs.Index.Edits
import DocStore.Proofs.Run.Loops

set_option autoImplicit false

namespace DocStore

/-! ### One bucket -/

namespace BucketEdit

/-- What a change of a bucket is about to do. -/
def stage (edit : BucketEdit) : Race.Stage :=
  match edit.write with
  | none => .reading
  | some write => .writing write

theorem stage_eq_reading_iff {edit : BucketEdit} : edit.stage = .reading ↔ edit.write = none := by
  unfold stage
  cases edit.write <;> simp

theorem stage_eq_writing_iff {edit : BucketEdit} {write : SlotWrite} :
    edit.stage = .writing write ↔ edit.write = some write := by
  unfold stage
  cases edit.write <;> simp

theorem of_membership {edit : BucketEdit} {m : Membership} (same : edit.membership = m) :
    edit.index = m.index ∧ edit.indexKey = m.indexKey :=
  ⟨congrArg Membership.index same, congrArg Membership.indexKey same⟩

/-- A change of a bucket races for it. -/
def race (index : Index) (indexKey : Bytes) : Race BucketEdit (Except Error Unit) where
  store := index.buckets
  key := indexKey
  stage := stage
  kind edit := edit.index = index ∧ edit.indexKey = indexKey
  call_reading := by
    rintro edit ⟨rfl, rfl⟩ reading
    simp only [Task.call, stage_eq_reading_iff.1 reading]
  read := by
    rintro edit stored kind reading
    simp only [Task.resume, stage_eq_reading_iff.1 reading]
    cases planned : Bucket.plan edit.change edit.document stored with
    | error e => trivial
    | ok write? =>
        cases write? with
        | none => trivial
        | some write =>
            obtain ⟨list, -, -, rfl⟩ := Bucket.eq_rewrite_of_plan planned
            exact ⟨kind, Or.inr ⟨_, rfl, Bucket.accepts_rewrite stored _⟩⟩
  call_writing := by
    rintro edit write ⟨rfl, rfl⟩ writing
    simp only [Task.call, stage_eq_writing_iff.1 writing]
  won := by
    intro edit write counter kind writing
    rw [resume_reply (stage_eq_writing_iff.1 writing)]
    trivial
  lost := by
    rintro edit write ⟨rfl, rfl⟩ writing
    rw [resume_reply (stage_eq_writing_iff.1 writing)]
    refine edit.satisfies_again.imp ?_ fun _ h => h
    rintro e ⟨same, -, unread⟩
    exact ⟨of_membership same, stage_eq_reading_iff.2 unread⟩
  past := by
    intro edit reply kind ended
    unfold stage at ended
    split at ended <;> cases ended

theorem satisfies_start_race (index : Index) (indexKey : Bytes) (change : Bucket.Change)
    (document : String) :
    (start index indexKey change document).Satisfies
      (fun e => (race index indexKey).kind e ∧ e.stage = .reading) fun _ => True := by
  refine (satisfies_start index indexKey change document).imp ?_ fun _ h => h
  rintro e ⟨same, -, unread⟩
  exact ⟨of_membership same, stage_eq_reading_iff.2 unread⟩

/-- A change of a bucket is in the race until it has ended. -/
theorem phase_ne_ended (edit : BucketEdit) : edit.stage.phase ≠ .ended := by
  unfold stage
  cases edit.write <;> nofun

/-- It writes no other store. -/
theorem not_mutates {edit : BucketEdit} {id : StoreId} (apart : edit.index.buckets ≠ id)
    (db : Database) (key : Bytes) (fault : Option Error) :
    db.mutates id key (Task.call edit) fault = false := by
  refine Database.not_mutates_of_target? ?_
  rcases edit.call_cases with ⟨-, hc⟩ | ⟨write, -, hc⟩
  · rw [hc]
    nofun
  · rw [hc, Database.target?_write]
    exact fun same => apart (congrArg Prod.fst (Option.some.inj same))

/-- **A change of a bucket that starts over has been disturbed at the bucket.** -/
theorem lockFree_start (db : Database) (index : Index) (indexKey : Bytes) (change : Bucket.Change)
    (document : String) :
    (race index indexKey).loop.LockFree ⟨db, start index indexKey change document⟩ :=
  (race index indexKey).lockFree (satisfies_start_race index indexKey change document)

end BucketEdit

/-! ### Settling -/

/-- The counter of the document, if it is there. -/
def Membership.counter? (m : Membership) (db : Database) : Option Counter :=
  ((db.backend.store m.index.documents).get? (Utf8.encode m.document)).map Versioned.counter

namespace Settling

variable {m : Membership}

/-- Where in its loop a settling is. -/
def Stage.phase : Stage → Phase
  | .before => .begins
  | .editing _ _ => .within
  | .after _ => .within

theorem Stage.of_phase_eq_begins {stage : Stage} (h : stage.phase = .begins) :
    stage = .before := by
  cases stage with
  | before => rfl
  | editing seen edit => cases h
  | after seen => cases h

theorem Stage.phase_ne_ended (stage : Stage) : stage.phase ≠ .ended := by
  cases stage <;> nofun

/-- The document is at the counter at which the settling has read it. -/
def Fresh (m : Membership) (db : Database) (s : Settling) : Prop :=
  match s.stage with
  | .before => True
  | .editing seen _ | .after seen => m.counter? db = seen

/-- How many calls a settling has left in its round, if nobody else writes the bucket: those for the
bucket, and the last reading of the document. -/
noncomputable def left (m : Membership) (db : Database) (s : Settling) : Nat :=
  match s.stage with
  | .before => 0
  | .editing _ edit =>
      (BucketEdit.race m.index m.indexKey).loop.savings 2 1 ⟨db, .waiting edit⟩ + 1
  | .after _ => 1

/-- The settling is about this membership, and so is its change of the bucket. -/
abbrev Settles (m : Membership) : Settling → Prop :=
  Concerns (· = m) fun _ => True

theorem settles_resume {s : Settling} (h : s.Settles m) (reply : Reply) :
    (Task.resume s reply).Satisfies (Settles m) fun _ => True :=
  concerns_resume h reply (fun _ _ _ => trivial) fun _ _ _ _ => Progress.satisfies_true _

/-- The change of the bucket is in the race for the bucket. -/
theorem Settles.kind {s : Settling} (h : s.Settles m) {seen : Option Counter} {edit : BucketEdit}
    (editing : s.stage = .editing seen edit) : (BucketEdit.race m.index m.indexKey).kind edit := by
  obtain ⟨same, -⟩ := h.2 seen edit editing
  exact BucketEdit.of_membership (same.trans h.1)

/-- With the change of the bucket a round goes on, as long as that has calls left. -/
theorem satisfies_edited (s : Settling) {seen : Option Counter} {db : Database} {most : Nat}
    {progress : Progress BucketEdit (Except Error Unit)}
    (few : (BucketEdit.race m.index m.indexKey).loop.savings 2 1 ⟨db, progress⟩ < most) :
    (s.edited seen progress).Satisfies
      (fun t => t.stage.phase = .within ∧ (m.counter? db = seen → t.Fresh m db) ∧
        t.left m db ≤ most) fun _ => True := by
  match progress with
  | .waiting edit => exact ⟨rfl, id, few⟩
  | .finished (.ok ()) => exact ⟨rfl, id, Nat.lt_of_le_of_lt (Nat.zero_le _) few⟩
  | .finished (.error e) => trivial

/-- A settling that has read its document begins to change the bucket. -/
theorem satisfies_before {s : Settling} (settles : s.Settles m) (before : s.stage = .before)
    (db : Database) :
    (Task.resume s (db.perform (Task.call s) none).1).Satisfies
      (fun t => t.stage.phase = .within ∧ t.Fresh m (db.perform (Task.call s) none).2 ∧
        t.left m (db.perform (Task.call s) none).2 ≤ 3) fun _ => True := by
  obtain ⟨n, attempts, stage⟩ := s
  obtain rfl : n = m := settles.1
  obtain rfl : stage = .before := before
  let change : Bucket.Change :=
    if n.wanted ((db.backend.store n.index.documents).get? (Utf8.encode n.document)) then .add
    else .remove
  have start := BucketEdit.satisfies_start_race n.index n.indexKey change n.document
  have few : (BucketEdit.race n.index n.indexKey).loop.savings 2 1
      ⟨db, BucketEdit.start n.index n.indexKey change n.document⟩ < 3 :=
    Nat.lt_succ_of_le (Loop.savings_le_of_ne_within _ 2 1 (Loop.now_ne_within _
      (start.imp (fun _ h => congrArg Race.Stage.phase h.2) fun _ h => h)))
  refine (satisfies_edited ⟨n, attempts, .before⟩ few).imp ?_ fun _ h => h
  rintro t ⟨within, fresh, few⟩
  -- the counter that was seen is the one of the moment
  exact ⟨within, fresh rfl, few⟩

/-- A settling that changes its bucket has a call less afterwards, and does not write its
document. -/
theorem satisfies_editing (apart : m.index.buckets ≠ m.index.documents) {s : Settling}
    (settles : s.Settles m) {seen : Option Counter} {edit : BucketEdit}
    (editing : s.stage = .editing seen edit) (db : Database) :
    (Task.resume s (db.perform (Task.call s) none).1).Satisfies
      (fun t => t.stage.phase = .within ∧
        (s.Fresh m db → t.Fresh m (db.perform (Task.call s) none).2) ∧
          t.left m (db.perform (Task.call s) none).2 < s.left m db) fun _ => True := by
  have kind := settles.kind editing
  obtain ⟨n, attempts, stage⟩ := s
  obtain rfl : n = m := settles.1
  obtain rfl : stage = .editing seen edit := editing
  have few := (BucketEdit.race n.index n.indexKey).loop.succ_savings_own_le
    (s := ⟨db, .waiting edit⟩) kind edit.phase_ne_ended
  -- the bucket is kept in another store than the document
  have same : n.counter? (db.perform (Task.call edit) none).2 = n.counter? db := by
    have elsewhere : edit.index.buckets ≠ n.index.documents := kind.1 ▸ apart
    rw [Membership.counter?,
      db.get?_perform_of_not_mutates (BucketEdit.not_mutates elsewhere db _ none),
      Membership.counter?]
  refine (satisfies_edited ⟨n, attempts, .editing seen edit⟩ few).imp ?_ fun _ h => h
  rintro t ⟨within, fresh, few⟩
  exact ⟨within, fun old => fresh (same.trans old), Nat.lt_succ_of_le few⟩

/-- A settling that has changed its bucket is done, unless its document is another one. -/
theorem satisfies_after {s : Settling} (settles : s.Settles m) {seen : Option Counter}
    (after : s.stage = .after seen) (db : Database) :
    (Task.resume s (db.perform (Task.call s) none).1).Satisfies
      (fun t => t.stage.phase = .begins ∧ ¬ s.Fresh m db) fun _ => True := by
  obtain ⟨n, attempts, stage⟩ := s
  obtain rfl : n = m := settles.1
  obtain rfl : stage = .after seen := after
  change Progress.Satisfies _ _ (if n.counter? db = seen then _ else _)
  split
  · trivial
  · rename_i stale
    unfold again
    split
    · exact ⟨rfl, stale⟩
    · trivial

/-- A settling reads its document and changes the bucket, round after round; the two are kept in
different stores, as those of a registered index are (`Database.Registered.apart`). -/
noncomputable def loop (m : Membership) (apart : m.index.buckets ≠ m.index.documents) :
    Loop Settling (Except Error Unit) where
  store := m.index.documents
  key := Utf8.encode m.document
  phase s := s.stage.phase
  rest := 3
  extra db call fault :=
    2 * if db.mutates m.index.buckets m.indexKey call fault then 1 else 0
  kind := Settles m
  fresh := Fresh m
  left := left m
  begin_step := by
    intro db s settles phase
    have goes := satisfies_before settles (Stage.of_phase_eq_begins phase) db
    refine ((settles_resume settles _).and goes).imp ?_ fun _ _ => trivial
    exact fun t h => ⟨h.1, Or.inr h.2⟩
  within_step := by
    intro db s settles phase
    have kept := settles_resume settles (db.perform (Task.call s) none).1
    cases stage : s.stage with
    | before =>
        rw [stage] at phase
        cases phase
    | editing seen edit =>
        have goes := satisfies_editing apart settles stage db
        refine ⟨by simp only [left, stage]; exact Nat.succ_pos _, ?_⟩
        refine (kept.and goes).imp ?_ fun _ _ => trivial
        exact fun t h => ⟨h.1, Or.inr (Or.inl h.2)⟩
    | after seen =>
        have goes := satisfies_after settles stage db
        refine ⟨by simp only [left, stage]; exact Nat.succ_pos 0, ?_⟩
        refine (kept.and goes).imp ?_ fun _ _ => trivial
        exact fun t h => ⟨h.1, Or.inr (Or.inr h.2)⟩
  ended_step := by
    intro db s settles phase
    exact absurd phase s.stage.phase_ne_ended
  fresh_other := by
    intro db s call fault settles phase spares fresh
    have same : m.counter? (db.perform call fault).2 = m.counter? db := by
      rw [Membership.counter?, db.get?_perform_of_not_mutates spares, Membership.counter?]
    unfold Fresh at fresh ⊢
    rw [same]
    exact fresh
  left_other := by
    intro db s call fault settles phase
    unfold left
    split
    · exact Nat.zero_le _
    · rename_i seen edit editing
      have more := (BucketEdit.race m.index m.indexKey).loop.savings_other_le
        (s := ⟨db, .waiting edit⟩) (settles.kind editing) call fault
      exact Nat.add_right_comm _ _ _ ▸ Nat.succ_le_succ more
    · exact Nat.le_add_right _ _

theorem satisfies_start (m : Membership) :
    (start m).Satisfies (fun s => s.Settles m ∧ s.stage = .before) fun _ => True := by
  unfold start again
  split
  · exact ⟨⟨rfl, nofun⟩, rfl⟩
  · trivial

/-- **A settling that starts over has been disturbed at the document.** -/
theorem lockFree_start (db : Database) (apart : m.index.buckets ≠ m.index.documents) :
    (loop m apart).LockFree ⟨db, start m⟩ :=
  (loop m apart).lockFree_of_begins <| (satisfies_start m).imp
    (fun _ h => ⟨h.1, congrArg Stage.phase h.2⟩) fun _ h => h

end Settling

/-! ### Loops of an operation that consists of several -/

/-- **The upkeep of a document changes a bucket as if it did nothing else**, as long as that change
is under way. -/
theorem IndexSync.run_edit {db : Database} {sync : IndexSync} {touched : List Membership}
    {m : Membership} {change : Bucket.Change} {rest : List (Membership × Bucket.Change)}
    {turns : List Turn} {edit : BucketEdit}
    (waits : ((⟨db, BucketEdit.start m.index m.indexKey change m.document⟩ :
      Amid BucketEdit (Except Error Unit)).run turns).progress = .waiting edit) :
    (⟨db, .waiting (sync.edit touched ((m, change) :: rest))⟩ : Amid IndexSync Unit).run turns
      = ⟨((⟨db, BucketEdit.start m.index m.indexKey change m.document⟩ :
          Amid BucketEdit (Except Error Unit)).run turns).db,
        .waiting { sync with stage := .editing edit rest touched }⟩ := by
  rw [IndexSync.edit_cons]
  exact Amid.run_andThen (fun edit => { sync with stage := .editing edit rest touched }) _
    (fun _ => rfl) (fun edit reply => IndexSync.resume_editing sync edit rest touched reply) waits

/-- **A queue settles as if it did nothing else.** -/
theorem SettleQueue.run_start {db : Database} {m : Membership} {rest : List Membership}
    {turns : List Turn} {current : Settling}
    (waits : ((⟨db, Settling.start m⟩ : Amid Settling (Except Error Unit)).run turns).progress
      = .waiting current) :
    (⟨db, SettleQueue.start (m :: rest)⟩ : Amid SettleQueue Unit).run turns
      = ⟨((⟨db, Settling.start m⟩ : Amid Settling (Except Error Unit)).run turns).db,
        .waiting ⟨current, rest⟩⟩ := by
  rw [SettleQueue.start_cons]
  exact Amid.run_andThen (fun current => (⟨current, rest⟩ : SettleQueue)) _ (fun _ => rfl)
    (fun current reply => SettleQueue.resume_eq_andThen ⟨current, rest⟩ reply) waits

end DocStore
