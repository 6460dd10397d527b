/-
The number of attempts.

An operation counts its attempts in 32 bits and adds to the number without looking whether there is
another one.  A limit sees to it that there is, because it has 32 bits itself and nobody counts past
it.  Without a limit nothing does: each of the first 4294967295 calls finds the number of those
before it, and the next one brings the number round to zero, with which the count starts over.

* `Attempts.called` — the attempts after so many calls, refused ones included;
* `Attempts.Overflows` — a call that counts out of range;
* `Attempts.toNat_made_called`, `Attempts.begin_called` — **up to its limit an operation counts its
  calls, and past it every call is refused;**
* `Attempts.toNat_made_called_of_none`, `Attempts.begin_called_of_none` — **without a limit every
  call goes through, and the number is that of the calls up to multiples of 2³²;**
* `Attempts.overflows_called_iff` — the calls that count out of range;
* `Ration.Counts`, `Ration.counts` — **a loop that asks for every round has called once more than it
  has lost rounds.**
-/

import DocStore.Proofs.Run.Budgets

set_option autoImplicit false

namespace DocStore

/-! ### Calls one after the other -/

namespace Attempts

/-- The attempts after so many calls; who is refused has made none. -/
def called (attempts : Attempts) : Nat → Attempts
  | 0 => attempts
  | n + 1 =>
      match (attempts.called n).begin with
      | .ok next => next
      | .error _ => attempts.called n

/-- The next call goes through, and there is no number for it. -/
def Overflows (attempts : Attempts) : Prop :=
  attempts.begin = .ok attempts.counted ∧ UInt32.size ≤ attempts.made.toNat + 1

variable {attempts next : Attempts} {n : Nat}

theorem begin_of_none (unlimited : attempts.limit = none) :
    attempts.begin = .ok attempts.counted := by
  rw [begin, unlimited]

theorem called_succ (begun : (attempts.called n).begin = .ok next) :
    attempts.called (n + 1) = next := by
  rw [called, begun]

theorem called_succ_of_refused {e : Error} (refused : (attempts.called n).begin = .error e) :
    attempts.called (n + 1) = attempts.called n := by
  rw [called, refused]

theorem stands_called {limit : Option UInt32} {key : Bytes} (stands : attempts.Stands limit key)
    (n : Nat) : (attempts.called n).Stands limit key := by
  induction n with
  | zero => exact stands
  | succ n ih =>
      rcases begin_of_stands ih with ⟨_, -, -, refused⟩ | ⟨begun, counted, -⟩
      · rw [called_succ_of_refused refused]
        exact ih
      · rw [called_succ begun]
        exact counted

/-! ### With a limit -/

section Policy

variable {policy : RetryPolicy} {m : UInt32} (key : Bytes) (n : Nat)

theorem stands_called_attempts (limited : policy.maxAttempts = some m) :
    ((policy.attempts key).called n).Stands (some m) key :=
  limited ▸ stands_called (stands_attempts policy key) n

/-- **Calls are counted up to the limit.** -/
theorem toNat_made_called (limited : policy.maxAttempts = some m) :
    ((policy.attempts key).called n).made.toNat = min n m.toNat := by
  induction n with
  | zero => exact (Nat.zero_min _).symm
  | succ n ih =>
      rcases begin_of_stands (stands_called_attempts key n limited) with
        ⟨_, ⟨⟩, all, refused⟩ | ⟨begun, -, less⟩
      · rw [all] at ih
        rw [called_succ_of_refused refused, all]
        omega
      · have less := less m rfl
        rw [called_succ begun, toNat_made_counted less, ih]
        rw [UInt32.lt_iff_toNat_lt, ih] at less
        omega

/-- **A call goes through below the limit, and is refused at it.** -/
theorem begin_called (limited : policy.maxAttempts = some m) :
    ((policy.attempts key).called n).begin
      = if n < m.toNat then .ok ((policy.attempts key).called (n + 1))
        else .error (.retryLimitExceeded (Utf8.lossy key) m) := by
  have made := toNat_made_called key n limited
  rcases begin_of_stands (stands_called_attempts key n limited) with
    ⟨_, ⟨⟩, all, refused⟩ | ⟨begun, -, less⟩
  · rw [all] at made
    rw [if_neg (by omega), refused]
  · have less := UInt32.lt_iff_toNat_lt.1 (less m rfl)
    rw [if_pos (by omega), begun, called_succ begun]

/-! ### Without a limit -/

/-- **Without a limit every call goes through.** -/
theorem begin_called_of_none (unlimited : policy.maxAttempts = none) :
    ((policy.attempts key).called n).begin = .ok ((policy.attempts key).called n).counted :=
  begin_of_none ((stands_called (stands_attempts policy key) n).limit_eq.trans unlimited)

/-- **Without a limit the number comes round to zero.** -/
theorem toNat_made_called_of_none (unlimited : policy.maxAttempts = none) :
    ((policy.attempts key).called n).made.toNat = n % UInt32.size := by
  induction n with
  | zero => rfl
  | succ n ih =>
      rw [called_succ (begin_called_of_none key n unlimited)]
      simp only [counted, UInt32.toNat_add, ih, UInt32.reduceToNat]
      exact Nat.mod_add_mod n UInt32.size 1

/-! ### Out of range -/

/-- **Only without a limit does a call count out of range**, each that makes a multiple of 2³². -/
theorem overflows_called_iff :
    ((policy.attempts key).called n).Overflows
      ↔ policy.maxAttempts = none ∧ (n + 1) % UInt32.size = 0 := by
  cases limit : policy.maxAttempts with
  | some m =>
      refine ⟨?_, nofun⟩
      rintro ⟨begun, beyond⟩
      -- what goes through is below the limit, which is a number itself
      have made := toNat_made_called key n limit
      have small := m.toNat_lt
      rcases begin_of_stands (stands_called_attempts key n limit) with
        ⟨_, -, -, refused⟩ | ⟨-, -, less⟩
      · rw [refused] at begun
        cases begun
      · have less := UInt32.lt_iff_toNat_lt.1 (less m rfl)
        simp only [UInt32.size] at beyond
        omega
  | none =>
      rw [Overflows, begin_called_of_none key n limit, toNat_made_called_of_none key n limit]
      simp only [UInt32.size, true_and]
      omega

/-- So many calls count within range, unless there is no limit and no number for them. -/
theorem not_overflows_iff :
    (∀ k < n, ¬ ((policy.attempts key).called k).Overflows)
      ↔ policy.maxAttempts = none → n < UInt32.size := by
  simp only [overflows_called_iff, not_and]
  constructor
  · intro within unlimited
    by_contra many
    have last := within (UInt32.size - 1) (by simp only [UInt32.size] at *; omega) unlimited
    exact last rfl
  · intro few k less unlimited
    have few := few unlimited
    simp only [UInt32.size] at *
    omega

end Policy

end Attempts

/-- Who asks without a limit begins another attempt. -/
theorem Progress.Asked.of_none {τ α : Type} {progress : Progress τ α} {attempts : Attempts}
    {report : Error → α} {waits : Attempts → τ → Prop}
    (asked : progress.Asked attempts report waits) (unlimited : attempts.limit = none) :
    ∃ task, progress = .waiting task ∧ waits attempts.counted task := by
  unfold Progress.Asked at asked
  rw [Attempts.begin_of_none unlimited] at asked
  cases progress with
  | finished result => exact asked.elim
  | waiting task => exact ⟨task, rfl, asked⟩

/-! ### Calls of a loop -/

namespace Ration

variable {τ α : Type} [Task τ α] {ℓ : Loop τ α} (r : Ration ℓ) {policy : RetryPolicy} {key : Bytes}
  {s : Amid τ α}

/-- What an operation that has lost so many rounds has counted; without a limit it has not given
up. -/
def Counted (policy : RetryPolicy) (key : Bytes) (lost : Nat) : Progress τ α → Prop
  | .waiting task => r.sound task ∧
      (ℓ.phase task ≠ .ended → r.attempts task = (policy.attempts key).called (lost + 1))
  | .finished result => policy.maxAttempts = none → Unrefused r.report result

section Steps

variable {db : Database} {task : τ} {lost : Nat} {progress : Progress τ α}

/-- Who asks makes one call more, and is not refused without a limit. -/
theorem counted_of_asked
    (asked : progress.Asked ((policy.attempts key).called lost) r.report
      fun next t => r.sound t ∧ ℓ.phase t = .begins ∧ r.attempts t = next) :
    r.Counted policy key lost progress := by
  unfold Progress.Asked at asked
  split at asked
  · rename_i next begun
    cases progress with
    | finished result => exact asked.elim
    | waiting t =>
        obtain ⟨sound, -, same⟩ := asked
        exact ⟨sound, fun _ => same.trans (Attempts.called_succ begun).symm⟩
  · rename_i e refused
    rw [asked]
    intro unlimited
    rw [Attempts.begin_called_of_none key lost unlimited] at refused
    cases refused

/-- A call after which the operation goes on without asking. -/
theorem counted_of_satisfies (counted : r.Counted policy key lost (.waiting task))
    (going : ℓ.phase task ≠ .ended)
    (goes : progress.Satisfies
      (fun t => r.sound t ∧ ℓ.phase t ≠ .begins ∧ r.attempts t = r.attempts task)
      (Unrefused r.report)) :
    r.Counted policy key lost progress := by
  cases progress with
  | finished result => exact fun _ => goes
  | waiting t =>
      obtain ⟨sound, -, same⟩ := goes
      exact ⟨sound, fun _ => same.trans (counted.2 going)⟩

/-- A call that loses the round. -/
theorem counted_of_loses (counted : r.Counted policy key lost (.waiting task))
    (loses : r.loses db task = true) :
    r.Counted policy key (lost + 1) (Task.resume task (db.perform (Task.call task) none).1) := by
  obtain ⟨sound, same⟩ := counted
  have within := (r.stale sound loses).1
  have asked := r.lost_step sound loses
  rw [same (by simp [within])] at asked
  exact r.counted_of_asked asked

/-- A call that drains a loop within the round, which has a limit then. -/
theorem counted_of_drains (counted : r.Counted policy key lost (.waiting task))
    (drains : r.drains db task = true) :
    r.Counted policy key lost (Task.resume task (db.perform (Task.call task) none).1) := by
  obtain ⟨sound, same⟩ := counted
  obtain ⟨within, -, l, limited, refused⟩ := r.drained_step sound drains
  rw [refused]
  intro unlimited
  have stands := Attempts.stands_called (Attempts.stands_attempts policy key) (lost + 1)
  rw [same (by simp [within]), stands.limit_eq, unlimited] at limited
  cases limited

/-- A call after the loop. -/
theorem counted_of_ended
    (goes : progress.Satisfies (fun t => r.sound t ∧ ℓ.phase t = .ended) (Unrefused r.report)) :
    r.Counted policy key lost progress := by
  cases progress with
  | finished result => exact fun _ => goes
  | waiting t => exact ⟨goes.1, fun going => absurd goes.2 going⟩

/-- **One turn loses a round and calls again, or leaves the attempts as they are.** -/
theorem counted_turn (counted : r.Counted policy key lost s.progress) (turn : Turn) :
    r.Counted policy key (lost + Amid.finds r.loses s turn) (s.turn turn).progress := by
  obtain ⟨db, progress⟩ := s
  cases turn with
  | other call fault => exact counted
  | own =>
      cases progress with
      | finished result => exact counted
      | waiting task =>
          have sound : r.sound task := counted.1
          simp only [Amid.finds, Amid.turn]
          cases loses : r.loses db task with
          | true => exact r.counted_of_loses counted loses
          | false =>
              simp only [Bool.false_eq_true, if_false, Nat.add_zero]
              cases drains : r.drains db task with
              | true => exact r.counted_of_drains counted drains
              | false =>
                  cases phase : ℓ.phase task with
                  | begins =>
                      exact r.counted_of_satisfies counted (by simp [phase])
                        (r.begin_step db sound phase)
                  | within =>
                      exact r.counted_of_satisfies counted (by simp [phase])
                        (r.within_step sound phase loses drains)
                  | ended => exact r.counted_of_ended (r.ended_step db sound phase)

/-- **All turns do what each of them does.** -/
theorem counted_run (counted : r.Counted policy key lost s.progress) (turns : List Turn) :
    r.Counted policy key (lost + r.lost s turns) (s.run turns).progress := by
  induction turns generalizing s lost with
  | nil => exact counted
  | cons turn rest ih =>
      have later := ih (r.counted_turn counted turn)
      rw [Nat.add_assoc] at later
      exact later

end Steps

/-- An operation that calls for every round, under a policy and on a key. -/
structure Counts (policy : RetryPolicy) (key : Bytes) (s : Amid τ α) : Prop where
  /-- In its loop it has called once more than it has lost rounds. -/
  attempts_eq : ∀ turns task, (s.run turns).progress = .waiting task → ℓ.phase task ≠ .ended →
    r.attempts task = (policy.attempts key).called (r.lost s turns + 1)
  /-- Without a limit it never gives up. -/
  unrefused : policy.maxAttempts = none → ∀ turns result,
    (s.run turns).progress = .finished result → Unrefused r.report result

/-- **A loop that asks for every round calls for every round.** -/
theorem counts {db : Database} {progress : Progress τ α}
    (asked : progress.Asked (policy.attempts key) r.report
      fun next t => r.sound t ∧ ℓ.phase t = .begins ∧ r.attempts t = next) :
    r.Counts policy key ⟨db, progress⟩ := by
  have counted : ∀ turns, r.Counted policy key (r.lost ⟨db, progress⟩ turns)
      ((⟨db, progress⟩ : Amid τ α).run turns).progress := by
    intro turns
    have start : r.Counted policy key 0 (⟨db, progress⟩ : Amid τ α).progress :=
      r.counted_of_asked asked
    have later := r.counted_run start turns
    rwa [Nat.zero_add] at later
  constructor
  · intro turns task waits going
    have now := counted turns
    rw [waits] at now
    exact now.2 going
  · intro unlimited turns result ended
    have now := counted turns
    rw [ended] at now
    exact now unlimited

end Ration

/-- So does a race that asks. -/
theorem Race.Asks.counts {τ α : Type} [Task τ α] {race : Race τ α} (asks : race.Asks)
    {policy : RetryPolicy} {key : Bytes} {db : Database} {progress : Progress τ α}
    (asked : progress.Asked (policy.attempts key) asks.report
      fun next t => race.kind t ∧ race.stage t = .reading ∧ asks.attempts t = next) :
    asks.ration.Counts policy key ⟨db, progress⟩ :=
  asks.ration.counts <| asked.imp fun _ _ _ h => ⟨h.1, congrArg Race.Stage.phase h.2.1, h.2.2⟩

end DocStore
