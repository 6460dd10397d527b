/-
Loops that another writer can disturb.

An operation that changes a key reads it first and then writes it, on condition that it finds what
it has read; else it begins another round.  The obvious measure for such a loop, the attempts that
are left, does not exist where an operation may try as often as it takes.  What bounds the rounds is
what the others do: a round that finds what it has read ends the loop, and it does find it unless
somebody else has written the key in between.  So every round after the first one is paid for by a
write of somebody else.

* `Phase`, `Loop` — a loop: where a round begins, what a round has read, and how many calls it has
  left;
* `Loop.rounds`, `Loop.calls`, `Loop.foreign` — the rounds and calls of an operation, and the
  successful writes of others to its key;
* `Loop.rounds_le`, `Loop.calls_le` — **rounds and calls are paid for by the writes of others;**
* `Loop.LockFree`, `Loop.lockFree` — **a round that does not end the loop has been disturbed**, so
  that the loop ends when it is left alone;
* `Race`, `Race.loop`, `Race.lockFree` — the loops that consist in reading a key and writing it.
-/

import DocStore.Proofs.Run.Turns

set_option autoImplicit false

namespace DocStore

/-- Where in a loop an operation is. -/
inductive Phase
  /-- A round is about to begin, with its first reading. -/
  | begins
  /-- A round has read its key. -/
  | within
  /-- The loop is over. -/
  | ended
  deriving DecidableEq

/-- A loop of an operation that changes a key. -/
structure Loop (τ α : Type) [Task τ α] where
  /-- The store of the key. -/
  store : StoreId
  /-- The key. -/
  key : Bytes
  /-- Where the operation is. -/
  phase : τ → Phase
  /-- How many calls a round has after its first reading, at most, apart from further ones. -/
  rest : Nat
  /-- How many further calls somebody else can cause. -/
  extra : Database → Call → Option Error → Nat
  /-- What is always so. -/
  kind : τ → Prop
  /-- A round that finds the key as it has read it. -/
  fresh : Database → τ → Prop
  /-- How many calls the round has left, at most. -/
  left : Database → τ → Nat
  /-- A round begins with reading the key. -/
  begin_step : ∀ (db : Database) {task : τ}, kind task → phase task = .begins →
    (Task.resume task (db.perform (Task.call task) none).1).Satisfies
      (fun t => kind t ∧ (phase t = .ended ∨ phase t = .within ∧
        fresh (db.perform (Task.call task) none).2 t ∧
          left (db.perform (Task.call task) none).2 t ≤ rest))
      fun _ => True
  /-- A round goes on, or the loop ends, or another round begins; but none does if the key is as it
  was read. -/
  within_step : ∀ (db : Database) {task : τ}, kind task → phase task = .within →
    0 < left db task ∧
      (Task.resume task (db.perform (Task.call task) none).1).Satisfies
        (fun t => kind t ∧ (phase t = .ended ∨ (phase t = .within ∧
          (fresh db task → fresh (db.perform (Task.call task) none).2 t) ∧
            left (db.perform (Task.call task) none).2 t < left db task) ∨
          phase t = .begins ∧ ¬ fresh db task))
        fun _ => True
  /-- What is over stays so. -/
  ended_step : ∀ (db : Database) {task : τ}, kind task → phase task = .ended →
    (Task.resume task (db.perform (Task.call task) none).1).Satisfies
      (fun t => kind t ∧ phase t = .ended) fun _ => True
  /-- Who does not write the key leaves it as it was read. -/
  fresh_other : ∀ {db : Database} {task : τ} {call : Call} {fault : Option Error},
    kind task → phase task = .within → db.mutates store key call fault = false → fresh db task →
      fresh (db.perform call fault).2 task
  /-- Somebody else causes so many further calls. -/
  left_other : ∀ {db : Database} {task : τ} {call : Call} {fault : Option Error},
    kind task → phase task = .within →
      left (db.perform call fault).2 task ≤ left db task + extra db call fault

namespace Loop

variable {τ α : Type} [Task τ α] (ℓ : Loop τ α) {s : Amid τ α}

/-! ### What is counted -/

/-- Where the operation is; the loop of one that has ended is over. -/
def now (s : Amid τ α) : Phase :=
  match s.progress with
  | .waiting task => ℓ.phase task
  | .finished _ => .ended

/-- What a turn costs, if the first call of a round costs so much and every further one so much. -/
def cost (first later : Nat) (s : Amid τ α) : Turn → Nat
  | .own =>
      match ℓ.now s with
      | .begins => first
      | .within => later
      | .ended => 0
  | .other _ _ => 0

/-- The rounds that begin in some turns, each by its first reading. -/
def rounds : Amid τ α → List Turn → Nat :=
  Amid.tally (ℓ.cost 1 0)

/-- The calls that the operation makes in the loop. -/
def calls : Amid τ α → List Turn → Nat :=
  Amid.tally (ℓ.cost 1 1)

/-- A turn of somebody else that is a successful write to the key. -/
def disturbance (s : Amid τ α) : Turn → Nat
  | .own => 0
  | .other call fault => if s.db.mutates ℓ.store ℓ.key call fault then 1 else 0

/-- The further calls that a turn of somebody else causes. -/
def further (s : Amid τ α) : Turn → Nat
  | .own => 0
  | .other call fault => ℓ.extra s.db call fault

/-- The successful writes of others to the key. -/
def foreign : Amid τ α → List Turn → Nat :=
  Amid.tally ℓ.disturbance

/-! ### What is paid for -/

/-- The operation is of its kind. -/
def Keeps (s : Amid τ α) : Prop :=
  s.progress.Satisfies ℓ.kind fun _ => True

theorem keeps_turn (keeps : ℓ.Keeps s) (turn : Turn) : ℓ.Keeps (s.turn turn) := by
  obtain ⟨db, progress⟩ := s
  cases turn with
  | other call fault => exact keeps
  | own =>
      cases progress with
      | finished result => trivial
      | waiting task =>
          have kind : ℓ.kind task := keeps
          cases phase : ℓ.phase task with
          | begins => exact (ℓ.begin_step db kind phase).imp (fun _ h => h.1) fun _ h => h
          | within => exact (ℓ.within_step db kind phase).2.imp (fun _ h => h.1) fun _ h => h
          | ended => exact (ℓ.ended_step db kind phase).imp (fun _ h => h.1) fun _ h => h

theorem keeps_run (keeps : ℓ.Keeps s) (turns : List Turn) : ℓ.Keeps (s.run turns) := by
  induction turns generalizing s with
  | nil => exact keeps
  | cons turn rest ih => exact ih (ℓ.keeps_turn keeps turn)

open Classical in
/-- What is saved up: a round is paid for that is about to begin, or that must come because the
present one does not find what it has read; and so are the calls that the present one has left. -/
noncomputable def savings (round later : Nat) (s : Amid τ α) : Nat :=
  match s.progress with
  | .finished _ => 0
  | .waiting task =>
      match ℓ.phase task with
      | .begins => round
      | .within => later * ℓ.left s.db task + if ℓ.fresh s.db task then 0 else round
      | .ended => 0

section Savings

variable {db : Database} {task : τ} {round later first : Nat}

theorem savings_begins (phase : ℓ.phase task = .begins) :
    ℓ.savings round later ⟨db, .waiting task⟩ = round := by
  simp only [savings, phase]

theorem savings_ended (phase : ℓ.phase task = .ended) :
    ℓ.savings round later ⟨db, .waiting task⟩ = 0 := by
  simp only [savings, phase]

theorem savings_fresh (phase : ℓ.phase task = .within) (fresh : ℓ.fresh db task) :
    ℓ.savings round later ⟨db, .waiting task⟩ = later * ℓ.left db task := by
  simp only [savings, phase, fresh, if_true, Nat.add_zero]

theorem savings_stale (phase : ℓ.phase task = .within) (stale : ¬ ℓ.fresh db task) :
    ℓ.savings round later ⟨db, .waiting task⟩ = later * ℓ.left db task + round := by
  simp only [savings, phase, stale, if_false]

/-- In a round no more is saved up than for its calls and for another round. -/
theorem savings_within_le (db : Database) (round later : Nat) (phase : ℓ.phase task = .within) :
    ℓ.savings round later ⟨db, .waiting task⟩ ≤ later * ℓ.left db task + round := by
  by_cases fresh : ℓ.fresh db task
  · rw [ℓ.savings_fresh phase fresh]
    exact Nat.le_add_right _ _
  · exact Nat.le_of_eq (ℓ.savings_stale phase fresh)

/-- After its first reading a round has enough for its calls. -/
theorem savings_begin_step (kind : ℓ.kind task) (phase : ℓ.phase task = .begins)
    (covers : first + later * ℓ.rest ≤ round) :
    first + ℓ.savings round later ((⟨db, .waiting task⟩ : Amid τ α).turn .own) ≤ round := by
  have goes := ℓ.begin_step db kind phase
  have enough : first ≤ round := Nat.le_trans (Nat.le_add_right _ _) covers
  simp only [Amid.turn]
  cases next : Task.resume task (db.perform (Task.call task) none).1 with
  | finished result => exact enough
  | waiting t =>
      rw [next] at goes
      obtain ⟨-, ended | ⟨within, fresh, few⟩⟩ := goes
      · rw [ℓ.savings_ended ended]
        exact enough
      · rw [ℓ.savings_fresh within fresh]
        exact Nat.le_trans (Nat.add_le_add_left (Nat.mul_le_mul_left later few) first) covers

/-- Each further call of a round takes its share. -/
theorem savings_within_step (kind : ℓ.kind task) (phase : ℓ.phase task = .within) :
    later + ℓ.savings round later ((⟨db, .waiting task⟩ : Amid τ α).turn .own)
      ≤ ℓ.savings round later ⟨db, .waiting task⟩ := by
  obtain ⟨some, goes⟩ := ℓ.within_step db kind phase
  have share : ∀ n, n < ℓ.left db task → later + later * n ≤ later * ℓ.left db task := by
    intro n less
    rw [Nat.add_comm, ← Nat.mul_succ]
    exact Nat.mul_le_mul_left later less
  have least : later * ℓ.left db task ≤ ℓ.savings round later ⟨db, .waiting task⟩ := by
    by_cases fresh : ℓ.fresh db task
    · exact Nat.le_of_eq (ℓ.savings_fresh phase fresh).symm
    · rw [ℓ.savings_stale phase fresh]
      exact Nat.le_add_right _ _
  simp only [Amid.turn]
  cases next : Task.resume task (db.perform (Task.call task) none).1 with
  | finished result => exact Nat.le_trans (share 0 some) least
  | waiting t =>
      rw [next] at goes
      obtain ⟨-, ended | ⟨within, still, less⟩ | ⟨begins, stale⟩⟩ := goes
      · rw [ℓ.savings_ended ended]
        exact Nat.le_trans (share 0 some) least
      · by_cases fresh : ℓ.fresh db task
        · rw [ℓ.savings_fresh phase fresh, ℓ.savings_fresh within (still fresh)]
          exact share _ less
        · have more := ℓ.savings_within_le (db.perform (Task.call task) none).2 round later within
          have paid := share _ less
          rw [ℓ.savings_stale phase fresh]
          omega
      · have paid := share 0 some
        rw [ℓ.savings_begins begins, ℓ.savings_stale phase stale]
        omega

/-- A turn of somebody else takes nothing, but may make another round necessary. -/
theorem savings_other (kind : ℓ.kind task) (phase : ℓ.phase task = .within) (call : Call)
    (fault : Option Error) :
    ℓ.savings round later ⟨(db.perform call fault).2, .waiting task⟩
      ≤ ℓ.savings round later ⟨db, .waiting task⟩
        + (round * (if db.mutates ℓ.store ℓ.key call fault then 1 else 0)
          + later * ℓ.extra db call fault) := by
  have left : later * ℓ.left (db.perform call fault).2 task
      ≤ later * ℓ.left db task + later * ℓ.extra db call fault := by
    rw [← Nat.mul_add]
    exact Nat.mul_le_mul_left later (ℓ.left_other kind phase)
  have more := ℓ.savings_within_le (db.perform call fault).2 round later phase
  by_cases fresh : ℓ.fresh db task
  · rw [ℓ.savings_fresh phase fresh]
    cases disturbed : db.mutates ℓ.store ℓ.key call fault with
    | true =>
        rw [if_pos rfl]
        omega
    | false =>
        rw [ℓ.savings_fresh phase (ℓ.fresh_other kind phase disturbed fresh)]
        omega
  · rw [ℓ.savings_stale phase fresh]
    omega

/-- **Every turn is paid for**, a call of the operation from what is saved up, and another round by
the write that makes it necessary. -/
theorem pays (covers : first + later * ℓ.rest ≤ round) (keeps : ℓ.Keeps s) (turn : Turn) :
    ℓ.cost first later s turn + ℓ.savings round later (s.turn turn)
      ≤ ℓ.savings round later s + (round * ℓ.disturbance s turn + later * ℓ.further s turn) := by
  obtain ⟨db, progress⟩ := s
  cases progress with
  | finished result => cases turn <;> simp [cost, now, savings, Amid.turn]
  | waiting task =>
      have kind : ℓ.kind task := keeps
      cases turn with
      | own =>
          refine Nat.le_trans ?_ (Nat.le_add_right _ _)
          cases phase : ℓ.phase task with
          | begins =>
              simp only [cost, now, phase]
              rw [ℓ.savings_begins phase]
              exact ℓ.savings_begin_step kind phase covers
          | within =>
              simp only [cost, now, phase]
              exact ℓ.savings_within_step kind phase
          | ended =>
              have goes := ℓ.ended_step db kind phase
              simp only [cost, now, phase, Amid.turn, Nat.zero_add]
              cases next : Task.resume task (db.perform (Task.call task) none).1 with
              | finished result => exact Nat.zero_le _
              | waiting t =>
                  rw [next] at goes
                  rw [ℓ.savings_ended goes.2]
                  exact Nat.zero_le _
      | other call fault =>
          simp only [cost, Nat.zero_add, Amid.turn, disturbance, further]
          cases phase : ℓ.phase task with
          | begins =>
              rw [ℓ.savings_begins phase, ℓ.savings_begins phase]
              exact Nat.le_add_right _ _
          | within => exact ℓ.savings_other kind phase call fault
          | ended =>
              rw [ℓ.savings_ended phase]
              exact Nat.zero_le _

end Savings

/-- How many calls a round has, at most, apart from further ones. -/
def most : Nat :=
  ℓ.rest + 1

theorem covers : 1 + 1 * ℓ.rest ≤ ℓ.most := by
  rw [Nat.one_mul, Nat.add_comm]
  exact Nat.le_refl _

/-! ### What comes of it -/

/-- A call takes its share of what is saved up. -/
theorem succ_savings_own_le (keeps : ℓ.Keeps s) (goes : ℓ.now s ≠ .ended) :
    ℓ.savings ℓ.most 1 (s.turn .own) + 1 ≤ ℓ.savings ℓ.most 1 s := by
  have paid := ℓ.pays ℓ.covers keeps .own
  have call : ℓ.cost 1 1 s .own = 1 := by
    cases phase : ℓ.now s with
    | begins => simp only [cost, phase]
    | within => simp only [cost, phase]
    | ended => exact absurd phase goes
  rw [call] at paid
  rw [Nat.add_comm]
  exact paid

/-- Somebody else adds to what is saved up. -/
theorem savings_other_le (keeps : ℓ.Keeps s) (call : Call) (fault : Option Error) :
    ℓ.savings ℓ.most 1 (s.turn (.other call fault)) ≤ ℓ.savings ℓ.most 1 s
      + (ℓ.most * (if s.db.mutates ℓ.store ℓ.key call fault then 1 else 0)
        + ℓ.extra s.db call fault) := by
  have paid := ℓ.pays ℓ.covers keeps (.other call fault)
  rw [Nat.one_mul] at paid
  exact Nat.le_trans (Nat.le_add_left _ _) paid

/-- **All turns are paid for**, if every single one is. -/
theorem paid_le {first round later : Nat} (covers : first + later * ℓ.rest ≤ round)
    (keeps : ℓ.Keeps s) (turns : List Turn) :
    Amid.tally (ℓ.cost first later) s turns + ℓ.savings round later (s.run turns)
      ≤ ℓ.savings round later s
        + (round * ℓ.foreign s turns + later * Amid.tally ℓ.further s turns) := by
  have paid := Amid.tally_le (fun _ turn keeps => ℓ.keeps_turn keeps turn)
    (fun _ turn keeps => ℓ.pays covers keeps turn) keeps turns
  rwa [Amid.tally_add_mul] at paid

/-- **Every round is paid for** by the write that has made it necessary. -/
theorem rounds_le (keeps : ℓ.Keeps s) (turns : List Turn) :
    ℓ.rounds s turns + ℓ.savings 1 0 (s.run turns) ≤ ℓ.savings 1 0 s + ℓ.foreign s turns := by
  have covers : 1 + 0 * ℓ.rest ≤ 1 := Nat.le_of_eq (by rw [Nat.zero_mul])
  have paid := ℓ.paid_le covers keeps turns
  rwa [Nat.one_mul, Nat.zero_mul, Nat.add_zero] at paid

/-- **Every call is paid for**, with its round. -/
theorem calls_le (keeps : ℓ.Keeps s) (turns : List Turn) :
    ℓ.calls s turns + ℓ.savings ℓ.most 1 (s.run turns)
      ≤ ℓ.savings ℓ.most 1 s + (ℓ.most * ℓ.foreign s turns + Amid.tally ℓ.further s turns) := by
  have paid := ℓ.paid_le ℓ.covers keeps turns
  rwa [Nat.one_mul] at paid

/-- If calls cost nothing, there is at most one round saved up. -/
theorem savings_zero_le (round : Nat) : ℓ.savings round 0 s ≤ round := by
  unfold savings
  split
  · exact Nat.zero_le _
  · split
    · exact Nat.le_refl _
    · rw [Nat.zero_mul, Nat.zero_add]
      split
      · exact Nat.zero_le _
      · exact Nat.le_refl _
    · exact Nat.zero_le _

/-- Before a loop there is at most one round saved up. -/
theorem savings_le_of_ne_within (round later : Nat) (start : ℓ.now s ≠ .within) :
    ℓ.savings round later s ≤ round := by
  unfold now at start
  unfold savings
  split
  · exact Nat.zero_le _
  · rename_i task waits
    rw [waits] at start
    split
    · exact Nat.le_refl _
    · rename_i within
      exact absurd within start
    · exact Nat.zero_le _

/-- A round is saved up that is about to begin. -/
theorem savings_of_now_eq_begins (round later : Nat) (begins : ℓ.now s = .begins) :
    ℓ.savings round later s = round := by
  obtain ⟨db, progress⟩ := s
  cases progress with
  | finished result => cases begins
  | waiting task => exact ℓ.savings_begins begins

/-- As long as the loop is not over, something is saved up. -/
theorem savings_pos (keeps : ℓ.Keeps s) (goes : ℓ.now s ≠ .ended) : 0 < ℓ.savings ℓ.most 1 s := by
  obtain ⟨db, progress⟩ := s
  cases progress with
  | finished result => exact absurd rfl goes
  | waiting task =>
      cases phase : ℓ.phase task with
      | begins =>
          rw [ℓ.savings_begins phase]
          exact Nat.succ_pos ℓ.rest
      | within =>
          have some := (ℓ.within_step db keeps phase).1
          by_cases fresh : ℓ.fresh db task
          · rw [ℓ.savings_fresh phase fresh]
            omega
          · rw [ℓ.savings_stale phase fresh]
            omega
      | ended => exact absurd phase goes

/-- A loop that is over stays so. -/
theorem now_run_of_ended (keeps : ℓ.Keeps s) (ended : ℓ.now s = .ended) (turns : List Turn) :
    ℓ.now (s.run turns) = .ended := by
  induction turns generalizing s with
  | nil => exact ended
  | cons turn rest ih =>
      refine ih (ℓ.keeps_turn keeps turn) ?_
      obtain ⟨db, progress⟩ := s
      cases turn with
      | other call fault => exact ended
      | own =>
          cases progress with
          | finished result => rfl
          | waiting task =>
              have goes := ℓ.ended_step db keeps ended
              simp only [now, Amid.turn]
              cases next : Task.resume task (db.perform (Task.call task) none).1 with
              | finished result => rfl
              | waiting t =>
                  rw [next] at goes
                  exact goes.2

/-- As long as the loop is not over, every turn of the operation is a call in it. -/
theorem calls_eq (keeps : ℓ.Keeps s) {turns : List Turn} (goes : ℓ.now (s.run turns) ≠ .ended) :
    ℓ.calls s turns = turns.countP Turn.isOwn := by
  induction turns generalizing s with
  | nil => rfl
  | cons turn rest ih =>
      have later : ℓ.calls (s.turn turn) rest = _ := ih (ℓ.keeps_turn keeps turn) goes
      have now : ℓ.now s ≠ .ended := fun ended =>
        goes (ℓ.now_run_of_ended keeps ended (turn :: rest))
      have here : ℓ.cost 1 1 s turn = if turn.isOwn then 1 else 0 := by
        cases turn with
        | other call fault => rfl
        | own =>
            cases phase : ℓ.now s with
            | begins => simp [cost, phase, Turn.isOwn]
            | within => simp [cost, phase, Turn.isOwn]
            | ended => exact absurd phase now
      rw [List.countP_cons, ← later, calls, Amid.tally, here, Nat.add_comm]

/-- A loop in which the operation makes progress whatever others do, or somebody else does. -/
structure LockFree (s : Amid τ α) : Prop where
  /-- Between the first reading of a round and the call that begins another one, somebody else has
  written the key. -/
  disturbed : ∀ early between, ℓ.now (s.run early) = .begins →
    ℓ.now (s.run (early ++ .own :: (between ++ [.own]))) = .begins →
      ∃ before call fault later, between = before ++ .other call fault :: later ∧
        (s.run (early ++ .own :: before)).db.mutates ℓ.store ℓ.key call fault = true
  /-- Over any turns there is at most one round more than others have written the key. -/
  rounds_le : ∀ early turns, ℓ.rounds (s.run early) turns ≤ ℓ.foreign (s.run early) turns + 1
  /-- With so many turns the operation leaves the loop. -/
  leaves : ∀ turns,
    ℓ.most * (ℓ.foreign s turns + 1) + Amid.tally ℓ.further s turns ≤ turns.countP Turn.isOwn →
      ℓ.now (s.run turns) = .ended

/-- Only somebody else disturbs. -/
theorem exists_mutates_of_foreign_ne_zero {turns : List Turn} (h : ℓ.foreign s turns ≠ 0) :
    ∃ before call fault later, turns = before ++ .other call fault :: later ∧
      (s.run before).db.mutates ℓ.store ℓ.key call fault = true := by
  obtain ⟨before, turn, later, rfl, counted⟩ := Amid.exists_of_tally_ne_zero h
  cases turn with
  | own => exact absurd rfl counted
  | other call fault =>
      refine ⟨before, call, fault, later, rfl, ?_⟩
      by_contra not
      exact counted (if_neg not)

/-- **A round that does not end the loop has been disturbed**, and the loop ends when it is left
alone. -/
theorem lockFree (keeps : ℓ.Keeps s) (start : ℓ.now s ≠ .within) : ℓ.LockFree s where
  disturbed := by
    intro early between begins again
    -- the first reading takes a round, so that another one at the end is somebody else's
    have paid := ℓ.rounds_le (ℓ.keeps_run keeps early) (.own :: (between ++ [.own]))
    have took : ℓ.cost 1 0 (s.run early) .own = 1 := by
      simp only [cost, begins]
    rw [Amid.run_append] at again
    rw [ℓ.savings_of_now_eq_begins 1 0 begins, ℓ.savings_of_now_eq_begins 1 0 again, rounds,
      Amid.tally, took, foreign, Amid.tally, Amid.tally_append ℓ.disturbance] at paid
    have foreign : ℓ.foreign ((s.run early).turn .own) between ≠ 0 := by
      intro none
      simp only [foreign] at none
      simp only [none, disturbance, Amid.tally] at paid
      omega
    obtain ⟨before, call, fault, later, rfl, mutates⟩ :=
      ℓ.exists_mutates_of_foreign_ne_zero foreign
    refine ⟨before, call, fault, later, rfl, ?_⟩
    rw [Amid.run_append]
    exact mutates
  rounds_le := by
    intro early turns
    have paid := ℓ.rounds_le (ℓ.keeps_run keeps early) turns
    have least := ℓ.savings_zero_le 1 (s := s.run early)
    omega
  leaves := by
    intro turns enough
    by_contra goes
    have paid := ℓ.calls_le keeps turns
    have least := ℓ.savings_le_of_ne_within ℓ.most 1 start
    have left := ℓ.savings_pos (ℓ.keeps_run keeps turns) goes
    rw [ℓ.calls_eq keeps goes] at paid
    rw [Nat.mul_add, Nat.mul_one] at enough
    omega

/-- Before its first reading an operation is not within a round. -/
theorem now_ne_within {db : Database} {progress : Progress τ α}
    (start : progress.Satisfies (fun t => ℓ.phase t = .begins) fun _ => True) :
    ℓ.now ⟨db, progress⟩ ≠ .within := by
  cases progress with
  | finished result => nofun
  | waiting task =>
      have phase : ℓ.phase task = .begins := start
      simp only [now, phase]
      nofun

theorem lockFree_of_begins {db : Database} {progress : Progress τ α}
    (start : progress.Satisfies (fun t => ℓ.kind t ∧ ℓ.phase t = .begins) fun _ => True) :
    ℓ.LockFree ⟨db, progress⟩ :=
  ℓ.lockFree (start.imp (fun _ h => h.1) fun _ h => h)
    (ℓ.now_ne_within (start.imp (fun _ h => h.2) fun _ h => h))

end Loop

/-! ### Races -/

/-- What an operation in a race is about to do. -/
inductive Race.Stage
  /-- It reads the key. -/
  | reading
  /-- It makes this write, which it has planned for what it has read. -/
  | writing (write : SlotWrite)
  /-- The race is over. -/
  | ended

/-- A loop that consists in reading a key and writing it. -/
structure Race (τ α : Type) [Task τ α] where
  /-- The store of the key. -/
  store : StoreId
  /-- The key. -/
  key : Bytes
  /-- What the operation is about to do. -/
  stage : τ → Race.Stage
  /-- What is always so. -/
  kind : τ → Prop
  call_reading : ∀ {task : τ}, kind task → stage task = .reading →
    Task.call task = .get store key
  /-- What is planned goes through if the key is as it was read. -/
  read : ∀ {task : τ} (stored : Option (Versioned Bytes)), kind task → stage task = .reading →
    (Task.resume task (.document (.ok stored))).Satisfies
      (fun t => kind t ∧
        (stage t = .ended ∨ ∃ write, stage t = .writing write ∧ write.Accepts stored))
      fun _ => True
  call_writing : ∀ {task : τ} {write : SlotWrite}, kind task → stage task = .writing write →
    Task.call task = write.call store key
  /-- Who has written is done. -/
  won : ∀ {task : τ} {write : SlotWrite} (counter : Counter), kind task →
    stage task = .writing write →
      (Task.resume task (write.reply (.ok counter))).Satisfies
        (fun t => kind t ∧ stage t = .ended) fun _ => True
  /-- Who has lost begins again. -/
  lost : ∀ {task : τ} {write : SlotWrite}, kind task → stage task = .writing write →
    (Task.resume task (write.reply (.error .swapMismatch))).Satisfies
      (fun t => kind t ∧ stage t = .reading) fun _ => True
  past : ∀ {task : τ} (reply : Reply), kind task → stage task = .ended →
    (Task.resume task reply).Satisfies (fun t => kind t ∧ stage t = .ended) fun _ => True

namespace Race

/-- Where in its loop an operation is. -/
def Stage.phase : Stage → Phase
  | .reading => .begins
  | .writing _ => .within
  | .ended => .ended

theorem Stage.of_phase_eq_begins {stage : Stage} (h : stage.phase = .begins) :
    stage = .reading := by
  cases stage with
  | reading => rfl
  | writing write => cases h
  | ended => cases h

theorem Stage.of_phase_eq_within {stage : Stage} (h : stage.phase = .within) :
    ∃ write, stage = .writing write := by
  cases stage with
  | reading => cases h
  | writing write => exact ⟨write, rfl⟩
  | ended => cases h

theorem Stage.of_phase_eq_ended {stage : Stage} (h : stage.phase = .ended) : stage = .ended := by
  cases stage with
  | reading => cases h
  | writing write => cases h
  | ended => rfl

variable {τ α : Type} [Task τ α]

/-- **A race is a loop**: a round reads the key and writes it, and the write goes through unless
somebody else has written the key. -/
def loop (race : Race τ α) : Loop τ α where
  store := race.store
  key := race.key
  phase task := (race.stage task).phase
  rest := 1
  extra _ _ _ := 0
  kind := race.kind
  fresh db task := ∀ write, race.stage task = .writing write →
    write.Accepts ((db.backend.store race.store).get? race.key)
  left _ _ := 1
  begin_step := by
    intro db task kind phase
    have reading := Stage.of_phase_eq_begins phase
    rw [race.call_reading kind reading, db.perform_get]
    refine (race.read _ kind reading).imp ?_ fun _ h => h
    rintro t ⟨kind, ended | ⟨write, writing, accepts⟩⟩
    · exact ⟨kind, Or.inl (congrArg Stage.phase ended)⟩
    · refine ⟨kind, Or.inr ⟨congrArg Stage.phase writing, ?_, Nat.le_refl 1⟩⟩
      intro other same
      cases writing.symm.trans same
      exact accepts
  within_step := by
    intro db task kind phase
    obtain ⟨write, writing⟩ := Stage.of_phase_eq_within phase
    refine ⟨Nat.succ_pos 0, ?_⟩
    rw [race.call_writing kind writing]
    by_cases accepts : write.Accepts ((db.backend.store race.store).get? race.key)
    · rw [db.perform_write accepts]
      refine (race.won _ kind writing).imp ?_ fun _ h => h
      rintro t ⟨kind, ended⟩
      exact ⟨kind, Or.inl (congrArg Stage.phase ended)⟩
    · rw [db.perform_write_of_not accepts]
      refine (race.lost kind writing).imp ?_ fun _ h => h
      rintro t ⟨kind, reading⟩
      exact ⟨kind, Or.inr (Or.inr ⟨congrArg Stage.phase reading, fun fresh =>
        accepts (fresh write writing)⟩)⟩
  ended_step := by
    intro db task kind phase
    refine (race.past _ kind (Stage.of_phase_eq_ended phase)).imp ?_ fun _ h => h
    rintro t ⟨kind, ended⟩
    exact ⟨kind, congrArg Stage.phase ended⟩
  fresh_other := by
    intro db task call fault kind phase spares fresh write writing
    rw [db.get?_perform_of_not_mutates spares]
    exact fresh write writing
  left_other _ _ := Nat.le_refl 1

/-- A race that begins with reading is one in which somebody makes progress. -/
theorem lockFree (race : Race τ α) {db : Database} {progress : Progress τ α}
    (start : progress.Satisfies (fun t => race.kind t ∧ race.stage t = .reading) fun _ => True) :
    race.loop.LockFree ⟨db, progress⟩ :=
  race.loop.lockFree_of_begins <| start.imp (fun _ h => ⟨h.1, congrArg Stage.phase h.2⟩)
    fun _ h => h

end Race

end DocStore
