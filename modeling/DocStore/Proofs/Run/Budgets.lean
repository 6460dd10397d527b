/-
Loops that may begin only so many rounds.

An operation asks its policy before each round of its loop, and gives up when the policy refuses.
To count the rounds that begin is not enough to say when that happens: the last one is lost like
those before it, but no other round begins after it.  So it is the losses that are counted, each at
the call that finds that somebody else was there.  Between two losses exactly one round has begun,
and with so many losses as there may be rounds the operation has given up.

* `Attempts.Stands`, `Attempts.begin_of_stands` — attempts on a key, and when another one begins;
* `Progress.Asked` — an operation that has asked for another attempt;
* `Amid.times` — how often an operation is found like this at its own turns;
* `Ration` — a loop that asks for every round, and the calls that lose one;
* `Ration.reached_turn`, `Ration.reached_run` — **what has become of an operation is told by the
  rounds that it has begun and lost**, after one turn and after all;
* `Ration.Exact`, `Ration.exact` — **a budget is exact: rounds begin as long as they are lost and
  there are any left, and who has lost them all has given up**;
* `Race.Asks`, `Race.Asks.ration` — races that ask for every round;
* `Race.Once`, `Race.Once.single` — **races of one round, which a lost race ends.**
-/

import DocStore.Proofs.Run.Loops

set_option autoImplicit false

namespace DocStore

/-! ### Attempts -/

namespace Attempts

/-- Attempts on a key, of which no more were made than there may be. -/
structure Stands (attempts : Attempts) (limit : Option UInt32) (key : Bytes) : Prop where
  limit_eq : attempts.limit = limit
  key_eq : attempts.key = key
  made_le : ∀ l, limit = some l → attempts.made ≤ l

variable {attempts : Attempts} {limit : Option UInt32} {key : Bytes}

theorem stands_attempts (policy : RetryPolicy) (key : Bytes) :
    (policy.attempts key).Stands policy.maxAttempts key :=
  ⟨rfl, rfl, fun _ _ => UInt32.zero_le⟩

/-- An attempt fewer than there may be is one more than none. -/
theorem toNat_made_counted {l : UInt32} (less : attempts.made < l) :
    attempts.counted.made.toNat = attempts.made.toNat + 1 := by
  rw [UInt32.lt_iff_toNat_lt] at less
  have := l.toNat_lt
  simp only [counted, UInt32.toNat_add, UInt32.reduceToNat]
  omega

/-- **Another attempt begins, unless all have been made.** -/
theorem begin_of_stands (h : attempts.Stands limit key) :
    (∃ l, limit = some l ∧ attempts.made = l ∧
        attempts.begin = .error (.retryLimitExceeded (Utf8.lossy key) l)) ∨
      attempts.begin = .ok attempts.counted ∧ attempts.counted.Stands limit key ∧
        ∀ l, limit = some l → attempts.made < l := by
  obtain ⟨rfl, rfl, made_le⟩ := h
  unfold begin
  cases limited : attempts.limit with
  | none => exact Or.inr ⟨rfl, ⟨limited, rfl, nofun⟩, nofun⟩
  | some l =>
      have most := made_le l limited
      by_cases all : l ≤ attempts.made
      · have same := UInt32.le_antisymm most all
        exact Or.inl ⟨l, rfl, same, (if_pos all).trans (by rw [same])⟩
      · have less := UInt32.not_le.1 all
        refine Or.inr ⟨if_neg all, ⟨limited, rfl, ?_⟩, ?_⟩
        · rintro _ ⟨⟩
          rw [UInt32.le_iff_toNat_le, toNat_made_counted less]
          exact UInt32.lt_iff_toNat_lt.1 less
        · rintro _ ⟨⟩
          exact less

theorem Stands.of_begin (h : attempts.Stands limit key) {next : Attempts}
    (begun : attempts.begin = .ok next) : next.Stands limit key := by
  rcases attempts.begin_of_stands h with ⟨_, -, -, refused⟩ | ⟨begins, stands, -⟩
  · rw [refused] at begun
    cases begun
  · rw [begins] at begun
    cases begun
    exact stands

end Attempts

/-! ### Asking for an attempt -/

section Asking

variable {τ α : Type} {progress : Progress τ α} {attempts : Attempts} {report : Error → α}
  {waits waits' : Attempts → τ → Prop}

/-- An operation that has asked for another attempt: it waits with it like this, or it reports that
there is none. -/
def Progress.Asked (progress : Progress τ α) (attempts : Attempts) (report : Error → α)
    (waits : Attempts → τ → Prop) : Prop :=
  match attempts.begin with
  | .ok next => progress.Satisfies (waits next) fun _ => False
  | .error e => progress = .finished (report e)

theorem Progress.Asked.imp (h : progress.Asked attempts report waits)
    (more : ∀ next task, attempts.begin = .ok next → waits next task → waits' next task) :
    progress.Asked attempts report waits' := by
  unfold Progress.Asked at h ⊢
  split at h
  · rename_i next begun
    exact h.imp (fun task => more next task begun) fun _ none => none
  · exact h

theorem Progress.Asked.cases {limit : Option UInt32} {key : Bytes}
    (h : progress.Asked attempts report waits) (stands : attempts.Stands limit key) :
    (∃ l, limit = some l ∧ attempts.made = l ∧
        progress = .finished (report (.retryLimitExceeded (Utf8.lossy key) l))) ∨
      ∃ task, progress = .waiting task ∧ waits attempts.counted task ∧
        attempts.counted.Stands limit key ∧ ∀ l, limit = some l → attempts.made < l := by
  unfold Progress.Asked at h
  rcases attempts.begin_of_stands stands with ⟨l, limited, all, refused⟩ | ⟨begun, next, less⟩
  · rw [refused] at h
    exact Or.inl ⟨l, limited, all, h⟩
  · rw [begun] at h
    cases progress with
    | finished result => exact h.elim
    | waiting task => exact Or.inr ⟨task, rfl, h, next, less⟩

section Policy

variable {policy : RetryPolicy} {key : Bytes} {m : UInt32}

/-- There is none where there may be none. -/
theorem Progress.Asked.of_zero (asked : progress.Asked (policy.attempts key) report waits)
    (limited : policy.maxAttempts = some 0) :
    progress = .finished (report (.retryLimitExceeded (Utf8.lossy key) 0)) := by
  have stands := Attempts.stands_attempts policy key
  rw [limited] at stands
  rcases asked.cases stands with ⟨_, ⟨⟩, -, refused⟩ | ⟨_, -, -, -, less⟩
  · exact refused
  · exact absurd (less 0 rfl) (UInt32.not_lt.2 UInt32.zero_le)

/-- There is a first one where there may be some. -/
theorem Progress.Asked.of_ne_zero (asked : progress.Asked (policy.attempts key) report waits)
    (limited : policy.maxAttempts = some m) (some : m ≠ 0) :
    ∃ task, progress = .waiting task ∧ waits (policy.attempts key).counted task := by
  have stands := Attempts.stands_attempts policy key
  rw [limited] at stands
  rcases asked.cases stands with ⟨_, ⟨⟩, zero, -⟩ | ⟨task, begins, waits, -⟩
  · exact absurd (show m = 0 from zero.symm) some
  · exact ⟨task, begins, waits⟩

end Policy

/-- A result that reports no limit of attempts. -/
def Unrefused (report : Error → α) (result : α) : Prop :=
  ∀ name made, result ≠ report (.retryLimitExceeded name made)

end Asking

/-! ### Counting turns of the operation -/

namespace Amid

variable {τ α : Type} [Task τ α]

/-- A turn of the operation that finds it like this. -/
def finds (test : Database → τ → Bool) (s : Amid τ α) : Turn → Nat
  | .own =>
      match s.progress with
      | .waiting task => if test s.db task then 1 else 0
      | .finished _ => 0
  | .other _ _ => 0

/-- How often the operation is found like this at its own turns. -/
def times (test : Database → τ → Bool) : Amid τ α → List Turn → Nat :=
  tally (finds test)

variable {test : Database → τ → Bool} {s : Amid τ α} {turns : List Turn}

/-- If it is, it is so at some turn. -/
theorem exists_of_times_ne_zero (h : times test s turns ≠ 0) :
    ∃ before later task, turns = before ++ .own :: later ∧
      (s.run before).progress = .waiting task ∧ test (s.run before).db task = true := by
  obtain ⟨before, turn, later, rfl, found⟩ := exists_of_tally_ne_zero h
  cases turn with
  | other call fault => exact absurd rfl found
  | own =>
      simp only [finds] at found
      split at found
      · rename_i task waits
        refine ⟨before, later, task, rfl, waits, ?_⟩
        by_contra not
        exact found (if_neg not)
      · exact absurd rfl found

end Amid

theorem Amid.run_concat {τ α : Type} [Task τ α] (s : Amid τ α) (turns : List Turn) (turn : Turn) :
    s.run (turns ++ [turn]) = (s.run turns).turn turn :=
  s.run_append turns [turn]

theorem Amid.turn_own {τ α : Type} [Task τ α] {s : Amid τ α} {task : τ}
    (waits : s.progress = .waiting task) :
    s.turn .own = ⟨(s.db.perform (Task.call task) none).2,
      Task.resume task (s.db.perform (Task.call task) none).1⟩ := by
  simp only [turn, waits]

/-- An operation that stands for another one has ended with it, where there is nothing to go on
with. -/
theorem Amid.progress_run_andThen {τ σ α β : Type} [Task τ α] [Task σ β] (wrap : τ → σ)
    (next : α → Progress σ β) (call : ∀ t, Task.call (wrap t) = Task.call t)
    (resume : ∀ t reply, Task.resume (wrap t) reply = (Task.resume t reply).andThen wrap next)
    {s : Amid τ α} {turns : List Turn} {result : α} {last : β}
    (ended : (s.run turns).progress = .finished result) (stops : next result = .finished last) :
    ((⟨s.db, s.progress.andThen wrap next⟩ : Amid σ β).run turns).progress = .finished last := by
  induction turns generalizing s with
  | nil =>
      have now : s.progress = .finished result := ended
      rw [now]
      exact stops
  | cons t rest ih =>
      cases progress : s.progress with
      | finished first =>
          have same := progress_run_of_finished progress (t :: rest)
          obtain rfl := Progress.finished.inj (same.symm.trans ended)
          exact progress_run_of_finished stops (t :: rest)
      | waiting first =>
          have later := ih (s := s.turn t) ended
          have step : (⟨s.db, .waiting (wrap first)⟩ : Amid σ β).turn t
              = ⟨(s.turn t).db, (s.turn t).progress.andThen wrap next⟩ := by
            cases t with
            | own => simp only [turn, progress, call, resume]
            | other call fault =>
                simp only [turn, progress]
                rfl
          exact (congrArg (fun u : Amid σ β => (u.run rest).progress) step).trans later

/-! ### Loops that ask -/

/-- A loop whose operation asks for every round. -/
structure Ration {τ α : Type} [Task τ α] (ℓ : Loop τ α) where
  /-- The attempts so far. -/
  attempts : τ → Attempts
  /-- How the operation reports an error. -/
  report : Error → α
  /-- The next call finds that the round is lost. -/
  loses : Database → τ → Bool
  /-- The next call finds that a loop within the round has no rounds left. -/
  drains : Database → τ → Bool
  /-- What is always so. -/
  sound : τ → Prop
  reports : ∀ {e e' : Error}, report e = report e' → e = e'
  kind : ∀ {task : τ}, sound task → ℓ.kind task
  stale : ∀ {db : Database} {task : τ}, sound task → loses db task = true →
    ℓ.phase task = .within ∧ ¬ ℓ.fresh db task
  begin_step : ∀ (db : Database) {task : τ}, sound task → ℓ.phase task = .begins →
    (Task.resume task (db.perform (Task.call task) none).1).Satisfies
      (fun t => sound t ∧ ℓ.phase t ≠ .begins ∧ attempts t = attempts task) (Unrefused report)
  /-- Who loses a round asks for another one. -/
  lost_step : ∀ {db : Database} {task : τ}, sound task → loses db task = true →
    (Task.resume task (db.perform (Task.call task) none).1).Asked (attempts task) report
      fun next t => sound t ∧ ℓ.phase t = .begins ∧ attempts t = next
  /-- A loop within the round reports what the operation would report itself. -/
  drained_step : ∀ {db : Database} {task : τ}, sound task → drains db task = true →
    ℓ.phase task = .within ∧ loses db task = false ∧
      ∃ l, (attempts task).limit = some l ∧
        Task.resume task (db.perform (Task.call task) none).1
          = .finished (report (.retryLimitExceeded (Utf8.lossy (attempts task).key) l))
  /-- Every other call goes on with the round, or ends the loop. -/
  within_step : ∀ {db : Database} {task : τ}, sound task → ℓ.phase task = .within →
    loses db task = false → drains db task = false →
      (Task.resume task (db.perform (Task.call task) none).1).Satisfies
        (fun t => sound t ∧ ℓ.phase t ≠ .begins ∧ attempts t = attempts task) (Unrefused report)
  ended_step : ∀ (db : Database) {task : τ}, sound task → ℓ.phase task = .ended →
    (Task.resume task (db.perform (Task.call task) none).1).Satisfies
      (fun t => sound t ∧ ℓ.phase t = .ended) (Unrefused report)

namespace Ration

variable {τ α : Type} [Task τ α] {ℓ : Loop τ α} (r : Ration ℓ) {m : UInt32} {key : Bytes}
  {s : Amid τ α}

/-- The rounds that are lost in some turns. -/
def lost : Amid τ α → List Turn → Nat :=
  Amid.times r.loses

/-- The loops within a round that run out of rounds. -/
def drained : Amid τ α → List Turn → Nat :=
  Amid.times r.drains

/-- What has become of an operation that may begin so many rounds, with those that it has begun and
lost and the loops within that have run out of theirs. -/
def Reached (m : UInt32) (key : Bytes) (rounds lost drained : Nat) : Progress τ α → Prop
  | .waiting task => r.sound task ∧ drained = 0 ∧ lost < m.toNat ∧
      (rounds = if ℓ.phase task = .begins then lost else lost + 1) ∧
      (ℓ.phase task ≠ .ended →
        (r.attempts task).Stands (some m) key ∧ (r.attempts task).made.toNat = lost + 1)
  | .finished result => lost ≤ rounds ∧ rounds ≤ lost + 1 ∧ rounds ≤ m.toNat ∧
      (result = r.report (.retryLimitExceeded (Utf8.lossy key) m) ∧
          (lost = m.toNat ∨ drained ≠ 0) ∨
        Unrefused r.report result ∧ lost < m.toNat ∧ drained = 0)

/-- The operation that asks first has begun nothing yet. -/
theorem reached_asked {policy : RetryPolicy} (limited : policy.maxAttempts = some m)
    {progress : Progress τ α}
    (asked : progress.Asked (policy.attempts key) r.report
      fun next t => r.sound t ∧ ℓ.phase t = .begins ∧ r.attempts t = next) :
    r.Reached m key 0 0 0 progress := by
  have stands := Attempts.stands_attempts policy key
  rw [limited] at stands
  rcases asked.cases stands with ⟨_, ⟨⟩, none, rfl⟩ | ⟨task, rfl, ⟨sound, begins, same⟩, next, less⟩
  · obtain rfl : 0 = m := none
    exact ⟨Nat.le_refl 0, Nat.zero_le 1, Nat.zero_le _, Or.inl ⟨rfl, Or.inl rfl⟩⟩
  · have some := less m rfl
    refine ⟨sound, rfl, UInt32.lt_iff_toNat_lt.1 some, (if_pos begins).symm, fun _ => ?_⟩
    rw [same]
    exact ⟨next, Attempts.toNat_made_counted some⟩

section Steps

variable {db : Database} {task : τ} {rounds lost drained : Nat}

/-- A call after which the operation goes on without asking. -/
theorem reached_of_satisfies {begun : Nat}
    (reached : r.Reached m key rounds lost drained (.waiting task))
    (begins : (if ℓ.phase task = .begins then rounds + 1 else rounds) = begun)
    (going : ℓ.phase task ≠ .ended) {progress : Progress τ α}
    (goes : progress.Satisfies
      (fun t => r.sound t ∧ ℓ.phase t ≠ .begins ∧ r.attempts t = r.attempts task)
      (Unrefused r.report)) :
    r.Reached m key begun lost drained progress := by
  obtain ⟨-, none, less, count, stands⟩ := reached
  have rounds_eq : begun = lost + 1 := by
    rw [← begins, count]
    split <;> rfl
  cases progress with
  | waiting t =>
      obtain ⟨sound, within, same⟩ := goes
      refine ⟨sound, none, less, ?_, fun _ => same ▸ stands going⟩
      rw [rounds_eq, if_neg within]
  | finished result =>
      refine ⟨?_, ?_, ?_, Or.inr ⟨goes, less, none⟩⟩ <;> omega

/-- A call that loses the round. -/
theorem reached_of_loses (reached : r.Reached m key rounds lost drained (.waiting task))
    (loses : r.loses db task = true) :
    r.Reached m key rounds (lost + 1) drained
      (Task.resume task (db.perform (Task.call task) none).1) := by
  obtain ⟨sound, none, less, count, stands⟩ := reached
  obtain ⟨within, -⟩ := r.stale sound loses
  obtain ⟨stands, made⟩ := stands (by simp [within])
  rw [if_neg (by simp [within])] at count
  rcases (r.lost_step sound loses).cases stands with
    ⟨_, ⟨⟩, all, refused⟩ | ⟨t, waits, ⟨sound', begins, same⟩, next, left⟩
  · rw [refused]
    have lost_all : lost + 1 = m.toNat := made.symm.trans (congrArg UInt32.toNat all)
    refine ⟨?_, ?_, ?_, Or.inl ⟨rfl, Or.inl lost_all⟩⟩ <;> omega
  · rw [waits]
    have left := left m rfl
    refine ⟨sound', none, ?_, ?_, fun _ => ⟨same ▸ next, ?_⟩⟩
    · rw [← made]
      exact UInt32.lt_iff_toNat_lt.1 left
    · rw [if_pos begins, count]
    · rw [same, Attempts.toNat_made_counted left, made]

/-- A call that drains a loop within the round. -/
theorem reached_of_drains (reached : r.Reached m key rounds lost drained (.waiting task))
    (drains : r.drains db task = true) :
    r.Reached m key rounds lost (drained + 1)
      (Task.resume task (db.perform (Task.call task) none).1) := by
  obtain ⟨sound, none, less, count, stands⟩ := reached
  obtain ⟨within, -, l, limit, refused⟩ := r.drained_step sound drains
  obtain ⟨stands, -⟩ := stands (by simp [within])
  rw [if_neg (by simp [within])] at count
  obtain rfl : l = m := Option.some.inj (limit.symm.trans stands.limit_eq)
  rw [refused, stands.key_eq]
  refine ⟨?_, ?_, ?_, Or.inl ⟨rfl, Or.inr (Nat.succ_ne_zero drained)⟩⟩ <;> omega

/-- A call after the loop. -/
theorem reached_of_ended (reached : r.Reached m key rounds lost drained (.waiting task))
    (ended : ℓ.phase task = .ended) {progress : Progress τ α}
    (goes : progress.Satisfies (fun t => r.sound t ∧ ℓ.phase t = .ended) (Unrefused r.report)) :
    r.Reached m key rounds lost drained progress := by
  obtain ⟨-, none, less, count, -⟩ := reached
  rw [if_neg (by simp [ended])] at count
  cases progress with
  | waiting t =>
      obtain ⟨sound, ended⟩ := goes
      refine ⟨sound, none, less, ?_, fun going => absurd ended going⟩
      rw [if_neg (by simp [ended])]
      exact count
  | finished result =>
      refine ⟨?_, ?_, ?_, Or.inr ⟨goes, less, none⟩⟩ <;> omega

/-- **One turn begins a round, loses one, drains a loop within, or goes on.** -/
theorem reached_turn (reached : r.Reached m key rounds lost drained s.progress) (turn : Turn) :
    r.Reached m key (rounds + ℓ.cost 1 0 s turn) (lost + Amid.finds r.loses s turn)
      (drained + Amid.finds r.drains s turn) (s.turn turn).progress := by
  obtain ⟨db, progress⟩ := s
  cases turn with
  | other call fault => exact reached
  | own =>
      cases progress with
      | finished result => exact reached
      | waiting task =>
          have sound : r.sound task := reached.1
          simp only [Amid.finds, Amid.turn, Loop.cost, Loop.now]
          cases loses : r.loses db task with
          | true =>
              have within := (r.stale sound loses).1
              have undrained : r.drains db task = false := by
                refine Bool.eq_false_iff.2 fun drains => ?_
                have kept := (r.drained_step sound drains).2.1
                rw [loses] at kept
                cases kept
              simp only [within, undrained]
              exact r.reached_of_loses reached loses
          | false =>
              cases drains : r.drains db task with
              | true =>
                  have within := (r.drained_step sound drains).1
                  simp only [within]
                  exact r.reached_of_drains reached drains
              | false =>
                  simp only [Bool.false_eq_true, if_false, Nat.add_zero]
                  cases phase : ℓ.phase task with
                  | begins =>
                      exact r.reached_of_satisfies reached (if_pos phase) (by simp [phase])
                        (r.begin_step db sound phase)
                  | within =>
                      exact r.reached_of_satisfies reached (if_neg (by simp [phase]))
                        (by simp [phase]) (r.within_step sound phase loses drains)
                  | ended => exact r.reached_of_ended reached phase (r.ended_step db sound phase)

/-- **All turns do what each of them does.** -/
theorem reached_run (reached : r.Reached m key rounds lost drained s.progress)
    (turns : List Turn) :
    r.Reached m key (rounds + ℓ.rounds s turns) (lost + r.lost s turns)
      (drained + r.drained s turns) (s.run turns).progress := by
  induction turns generalizing s rounds lost drained with
  | nil => exact reached
  | cons turn rest ih =>
      have later := ih (r.reached_turn reached turn)
      rw [Nat.add_assoc, Nat.add_assoc, Nat.add_assoc] at later
      exact later

end Steps

/-! ### Exact budgets -/

/-- An operation that may begin so many rounds on a key, and does begin that many if it loses them;
it gives up when it has lost them all, or when a loop within one of them was drained. -/
structure Exact (m : UInt32) (key : String) (drained : List Turn → Prop) (s : Amid τ α) :
    Prop where
  /-- No more rounds begin than there may be. -/
  rounds_le : ∀ turns, ℓ.rounds s turns ≤ m.toNat
  /-- Each of them is lost once at most, and another one begins only if it is. -/
  lost_le : ∀ turns, r.lost s turns ≤ ℓ.rounds s turns ∧ ℓ.rounds s turns ≤ r.lost s turns + 1
  /-- The operation has given up if and only if all rounds are lost, or a loop within was drained;
  it names the key and the number of rounds, and no others. -/
  gives_up_iff : ∀ turns name made,
    (s.run turns).progress = .finished (r.report (.retryLimitExceeded name made))
      ↔ name = key ∧ made = m ∧ (r.lost s turns = m.toNat ∨ drained turns)
  /-- Who loses a round has been disturbed since it began: somebody else has written the key. -/
  disturbed : ∀ early between task, ℓ.now (s.run early) = .begins →
    (s.run (early ++ .own :: between)).progress = .waiting task →
      r.loses (s.run (early ++ .own :: between)).db task = true →
        ∃ before call fault later, between = before ++ .other call fault :: later ∧
          (s.run (early ++ .own :: before)).db.mutates ℓ.store ℓ.key call fault = true
  /-- Where there may be no round, the operation has given up before its first call. -/
  at_once : m = 0 → s.progress = .finished (r.report (.retryLimitExceeded key 0))

variable {policy : RetryPolicy} {progress : Progress τ α} {db : Database}

/-- An operation stays as it should be. -/
theorem keeps_of_reached {rounds lost drained : Nat}
    (reached : r.Reached m key rounds lost drained s.progress) : ℓ.Keeps s := by
  obtain ⟨db, progress⟩ := s
  cases progress with
  | finished result => trivial
  | waiting task => exact r.kind reached.1

/-- Who loses a round has been disturbed since it began. -/
theorem exists_mutates_of_loses {rounds lost drained : Nat}
    (reached : r.Reached m key rounds lost drained s.progress) {early between : List Turn}
    {task : τ} (begins : ℓ.now (s.run early) = .begins)
    (waits : (s.run (early ++ .own :: between)).progress = .waiting task)
    (loses : r.loses (s.run (early ++ .own :: between)).db task = true) :
    ∃ before call fault later, between = before ++ .other call fault :: later ∧
      (s.run (early ++ .own :: before)).db.mutates ℓ.store ℓ.key call fault = true := by
  have keeps := ℓ.keeps_run (r.keeps_of_reached reached) early
  have then_reached := r.reached_run reached (early ++ .own :: between)
  -- the round that began is paid for, and the lost one has another one saved up
  have paid := ℓ.rounds_le keeps (.own :: between)
  have took : ℓ.cost 1 0 (s.run early) .own = 1 := by
    simp only [Loop.cost, begins]
  have owed : ℓ.savings 1 0 ((s.run early).run (.own :: between)) = 1 := by
    rw [← Amid.run_append]
    rw [waits] at then_reached
    obtain ⟨within, stale⟩ := r.stale then_reached.1 loses
    have form : s.run (early ++ .own :: between)
        = ⟨(s.run (early ++ .own :: between)).db, .waiting task⟩ := by
      rw [← waits]
    rw [form, ℓ.savings_stale within stale, Nat.zero_mul]
  rw [ℓ.savings_of_now_eq_begins 1 0 begins, owed, Loop.rounds, Amid.tally, took, Loop.foreign,
    Amid.tally] at paid
  have foreign : ℓ.foreign ((s.run early).turn .own) between ≠ 0 := by
    intro none
    simp only [Loop.foreign] at none
    simp only [none, Loop.disturbance] at paid
    omega
  obtain ⟨before, call, fault, later, rfl, mutates⟩ := ℓ.exists_mutates_of_foreign_ne_zero foreign
  refine ⟨before, call, fault, later, rfl, ?_⟩
  rw [Amid.run_append]
  exact mutates

section Reached

variable {rounds lost drained : Nat}

/-- The rounds that have begun, by those that have been lost. -/
theorem counts_of_reached (reached : r.Reached m key rounds lost drained progress) :
    rounds ≤ m.toNat ∧ lost ≤ rounds ∧ rounds ≤ lost + 1 := by
  cases progress with
  | finished result => exact ⟨reached.2.2.1, reached.1, reached.2.1⟩
  | waiting task =>
      obtain ⟨-, -, less, count, -⟩ := reached
      split at count <;> omega

/-- An operation gives up when it has lost all its rounds, or when a loop within one of them was
drained. -/
theorem gives_up_iff_of_reached (reached : r.Reached m key rounds lost drained progress)
    (name : String) (made : UInt32) :
    progress = .finished (r.report (.retryLimitExceeded name made))
      ↔ name = Utf8.lossy key ∧ made = m ∧ (lost = m.toNat ∨ drained ≠ 0) := by
  cases progress with
  | waiting task =>
      obtain ⟨-, none, less, -⟩ := reached
      refine ⟨nofun, ?_⟩
      rintro ⟨-, -, all | drains⟩
      · omega
      · exact absurd none drains
  | finished result =>
      obtain ⟨-, -, -, ⟨rfl, spent⟩ | ⟨unrefused, less, none⟩⟩ := reached
      · refine ⟨fun same => ?_, ?_⟩
        · cases r.reports (Progress.finished.inj same)
          exact ⟨rfl, rfl, spent⟩
        · rintro ⟨rfl, rfl, -⟩
          rfl
      · refine ⟨fun same => absurd (Progress.finished.inj same) (unrefused name made), ?_⟩
        rintro ⟨-, -, all | drains⟩
        · omega
        · exact absurd none drains

end Reached

/-- **A budget is exact.** -/
theorem exact (limited : policy.maxAttempts = some m)
    (asked : progress.Asked (policy.attempts key) r.report
      fun next t => r.sound t ∧ ℓ.phase t = .begins ∧ r.attempts t = next) :
    r.Exact m (Utf8.lossy key) (fun turns => r.drained ⟨db, progress⟩ turns ≠ 0)
      ⟨db, progress⟩ := by
  have start : r.Reached m key 0 0 0 (⟨db, progress⟩ : Amid τ α).progress :=
    r.reached_asked limited asked
  have reached : ∀ turns, r.Reached m key (ℓ.rounds ⟨db, progress⟩ turns)
      (r.lost ⟨db, progress⟩ turns) (r.drained ⟨db, progress⟩ turns)
      ((⟨db, progress⟩ : Amid τ α).run turns).progress := by
    intro turns
    have later := r.reached_run start turns
    rwa [Nat.zero_add, Nat.zero_add, Nat.zero_add] at later
  exact {
    rounds_le := fun turns => (r.counts_of_reached (reached turns)).1
    lost_le := fun turns => (r.counts_of_reached (reached turns)).2
    gives_up_iff := fun turns => r.gives_up_iff_of_reached (reached turns)
    disturbed := fun _ _ _ begins waits loses => r.exists_mutates_of_loses start begins waits loses
    at_once := fun zero => asked.of_zero (zero ▸ limited) }

/-- What it means for a loop within to be drained may be said in other words. -/
theorem Exact.congr {name : String} {drained drained' : List Turn → Prop}
    (h : r.Exact m name drained s)
    (gives_up : ∀ turns, drained' turns → (s.run turns).progress
      = .finished (r.report (.retryLimitExceeded name m)))
    (means : ∀ turns, drained turns → drained' turns) : r.Exact m name drained' s where
  rounds_le := h.rounds_le
  lost_le := h.lost_le
  disturbed := h.disturbed
  at_once := h.at_once
  gives_up_iff := by
    intro turns other made
    constructor
    · intro ended
      obtain ⟨same, all, spent⟩ := (h.gives_up_iff turns other made).1 ended
      exact ⟨same, all, spent.imp_right (means turns)⟩
    · rintro ⟨rfl, rfl, all | drains⟩
      · exact (h.gives_up_iff turns _ _).2 ⟨rfl, rfl, Or.inl all⟩
      · exact gives_up turns drains

/-- **A budget is exact** also where there are no loops within the rounds. -/
theorem exact_of_undrained (undrained : ∀ db task, r.drains db task = false)
    (limited : policy.maxAttempts = some m)
    (asked : progress.Asked (policy.attempts key) r.report
      fun next t => r.sound t ∧ ℓ.phase t = .begins ∧ r.attempts t = next) :
    r.Exact m (Utf8.lossy key) (fun _ => False) ⟨db, progress⟩ := by
  refine Exact.congr _ (r.exact limited asked) (fun _ none => none.elim) ?_
  intro turns drained
  obtain ⟨_, _, task, _, _, drains⟩ := Amid.exists_of_times_ne_zero drained
  rw [undrained] at drains
  cases drains

end Ration

/-! ### Races that ask -/

namespace Race

variable {τ α : Type} [Task τ α]

/-- A race whose operation asks for every round. -/
structure Asks (race : Race τ α) where
  /-- The attempts so far. -/
  attempts : τ → Attempts
  /-- How the operation reports an error. -/
  report : Error → α
  reports : ∀ {e e' : Error}, report e = report e' → e = e'
  read : ∀ {task : τ} (stored : Option (Versioned Bytes)), race.kind task →
    race.stage task = .reading →
      (Task.resume task (.document (.ok stored))).Satisfies
        (fun t => attempts t = attempts task) (Unrefused report)
  won : ∀ {task : τ} {write : SlotWrite} (counter : Counter), race.kind task →
    race.stage task = .writing write →
      (Task.resume task (write.reply (.ok counter))).Satisfies
        (fun t => attempts t = attempts task) (Unrefused report)
  lost : ∀ {task : τ} {write : SlotWrite}, race.kind task → race.stage task = .writing write →
    (Task.resume task (write.reply (.error .swapMismatch))).Asked (attempts task) report
      fun next t => race.kind t ∧ race.stage t = .reading ∧ attempts t = next
  past : ∀ {task : τ} (reply : Reply), race.kind task → race.stage task = .ended →
    (Task.resume task reply).Satisfies (fun _ => True) (Unrefused report)

variable {race : Race τ α}

/-- Whether an operation in a race makes a write that does not go through. -/
def loses (race : Race τ α) (db : Database) (task : τ) : Bool :=
  match race.stage task with
  | .writing _ => !(db.perform (Task.call task) none).1.succeeded
  | _ => false

theorem loses_iff {db : Database} {task : τ} (kind : race.kind task) :
    race.loses db task = true ↔ ∃ write, race.stage task = .writing write ∧
      ¬ write.Accepts ((db.backend.store race.store).get? race.key) := by
  unfold loses
  cases stage : race.stage task with
  | reading => exact ⟨nofun, nofun⟩
  | ended => exact ⟨nofun, nofun⟩
  | writing write =>
      simp only [race.call_writing kind stage]
      by_cases accepts : write.Accepts ((db.backend.store race.store).get? race.key)
      · rw [db.perform_write accepts, SlotWrite.succeeded_reply]
        refine ⟨nofun, ?_⟩
        rintro ⟨_, ⟨⟩, not⟩
        exact absurd accepts not
      · rw [db.perform_write_of_not accepts, SlotWrite.succeeded_reply]
        exact ⟨fun _ => ⟨write, rfl, accepts⟩, fun _ => rfl⟩

/-- **A race that asks is a loop that asks**: a round is lost by the write that does not go
through. -/
def Asks.ration (asks : race.Asks) : Ration race.loop where
  attempts := asks.attempts
  report := asks.report
  loses := race.loses
  drains _ _ := false
  sound := race.kind
  reports := asks.reports
  kind sound := sound
  stale := by
    intro db task kind loses
    obtain ⟨write, writing, refused⟩ := (loses_iff kind).1 loses
    exact ⟨congrArg Stage.phase writing, fun fresh => refused (fresh write writing)⟩
  begin_step := by
    intro db task kind phase
    have reading := Stage.of_phase_eq_begins phase
    rw [race.call_reading kind reading, db.perform_get]
    refine ((race.read _ kind reading).and (asks.read _ kind reading)).imp ?_ fun _ h => h.2
    rintro t ⟨⟨kind, goes⟩, same⟩
    refine ⟨kind, ?_, same⟩
    rcases goes with ended | ⟨write, writing, -⟩
    · simp only [loop, ended, Stage.phase]
      nofun
    · simp only [loop, writing, Stage.phase]
      nofun
  lost_step := by
    intro db task kind loses
    obtain ⟨write, writing, refused⟩ := (loses_iff kind).1 loses
    rw [race.call_writing kind writing, db.perform_write_of_not refused]
    exact (asks.lost kind writing).imp fun _ _ _ h => ⟨h.1, congrArg Stage.phase h.2.1, h.2.2⟩
  drained_step := nofun
  within_step := by
    intro db task kind phase keeps _
    obtain ⟨write, writing⟩ := Stage.of_phase_eq_within phase
    have accepts : write.Accepts ((db.backend.store race.store).get? race.key) := by
      by_contra refused
      rw [(loses_iff kind).2 ⟨write, writing, refused⟩] at keeps
      cases keeps
    rw [race.call_writing kind writing, db.perform_write accepts]
    refine ((race.won _ kind writing).and (asks.won _ kind writing)).imp ?_ fun _ h => h.2
    rintro t ⟨⟨kind, ended⟩, same⟩
    refine ⟨kind, ?_, same⟩
    simp only [loop, ended, Stage.phase]
    nofun
  ended_step := by
    intro db task kind phase
    have ended := Stage.of_phase_eq_ended phase
    refine ((race.past _ kind ended).and (asks.past _ kind ended)).imp ?_ fun _ h => h.2
    exact fun t h => ⟨h.1.1, congrArg Stage.phase h.1.2⟩

/-- The budget of a race is exact, and there are no loops within its rounds. -/
theorem Asks.exact (asks : race.Asks) {policy : RetryPolicy} {m : UInt32} {key : Bytes}
    (limited : policy.maxAttempts = some m) {db : Database} {progress : Progress τ α}
    (asked : progress.Asked (policy.attempts key) asks.report
      fun next t => race.kind t ∧ race.stage t = .reading ∧ asks.attempts t = next) :
    asks.ration.Exact m (Utf8.lossy key) (fun _ => False) ⟨db, progress⟩ :=
  asks.ration.exact_of_undrained (fun _ _ => rfl) limited <| asked.imp fun _ _ _ h =>
    ⟨h.1, congrArg Stage.phase h.2.1, h.2.2⟩

/-! ### Races of one round -/

variable {β : Type} {υ : Type} [Task υ (Except Error β)]

/-- A race of one round: who finds that somebody else was there has lost it, and fails. -/
structure Once (race : Race υ (Except Error β)) where
  /-- The next call finds that somebody else was there. -/
  misses : Database → υ → Bool
  missed_step : ∀ {db : Database} {task : υ}, race.kind task → misses db task = true →
    Task.resume task (db.perform (Task.call task) none).1 = .finished (.error .counterChanged)
  other_step : ∀ {db : Database} {task : υ}, race.kind task → misses db task = false →
    (Task.resume task (db.perform (Task.call task) none).1).Satisfies
      (fun t => race.kind t ∧ race.stage t ≠ .reading)
      fun result => Unrefused .error result ∧ result ≠ .error .counterChanged

namespace Once

variable {race : Race υ (Except Error β)} (once : race.Once) {m : UInt32}

/-- An operation that begins one round at most, and fails if it loses it. -/
structure Single (m : UInt32) (key : String) (s : Amid υ (Except Error β)) : Prop where
  /-- No second round begins. -/
  rounds_le : ∀ turns, race.loop.rounds s turns ≤ 1
  /-- The operation has failed at another counter if and only if it has found that somebody else
  was there. -/
  changed_iff : ∀ turns, (s.run turns).progress = .finished (.error .counterChanged)
    ↔ Amid.times once.misses s turns ≠ 0
  /-- It gives up only where there may be no round. -/
  gives_up_iff : ∀ turns name made,
    (s.run turns).progress = .finished (.error (.retryLimitExceeded name made))
      ↔ m = 0 ∧ name = key ∧ made = 0
  /-- Then it does so before its first call. -/
  at_once : m = 0 → s.progress = .finished (.error (.retryLimitExceeded key 0))

/-- What has become of an operation in a race of one round, with the rounds that it has begun and
the calls that have found somebody else. -/
def Reached (race : Race υ (Except Error β)) (rounds missed : Nat) :
    Progress υ (Except Error β) → Prop
  | .waiting task => race.kind task ∧ missed = 0 ∧
      (rounds = if race.loop.phase task = .begins then 0 else 1)
  | .finished result => rounds ≤ 1 ∧ Unrefused .error result ∧
      (result = .error .counterChanged ↔ missed ≠ 0)

variable {s : Amid υ (Except Error β)} {rounds missed : Nat}

/-- **One turn begins the round, misses, or goes on.** -/
theorem reached_turn (reached : Reached race rounds missed s.progress) (turn : Turn) :
    Reached race (rounds + race.loop.cost 1 0 s turn) (missed + Amid.finds once.misses s turn)
      (s.turn turn).progress := by
  obtain ⟨db, progress⟩ := s
  cases turn with
  | other call fault => exact reached
  | own =>
      cases progress with
      | finished result => exact reached
      | waiting task =>
          obtain ⟨kind, unmissed, count⟩ := reached
          have begun : rounds + race.loop.cost 1 0 ⟨db, .waiting task⟩ .own = 1 := by
            simp only [Loop.cost, Loop.now]
            cases phase : race.loop.phase task <;> simp [count, phase]
          rw [begun, unmissed]
          simp only [Amid.finds, Amid.turn]
          cases misses : once.misses db task with
          | true =>
              rw [once.missed_step kind misses]
              exact ⟨Nat.le_refl 1, fun _ _ => by simp, by simp⟩
          | false =>
              have goes := once.other_step kind misses
              cases next : Task.resume task (db.perform (Task.call task) none).1 with
              | finished result =>
                  rw [next] at goes
                  exact ⟨Nat.le_refl 1, goes.1, by simp [goes.2]⟩
              | waiting t =>
                  rw [next] at goes
                  refine ⟨goes.1, rfl, (if_neg fun begins => ?_).symm⟩
                  exact goes.2 (Stage.of_phase_eq_begins begins)

theorem reached_run (reached : Reached race rounds missed s.progress) (turns : List Turn) :
    Reached race (rounds + race.loop.rounds s turns) (missed + Amid.times once.misses s turns)
      (s.run turns).progress := by
  induction turns generalizing s rounds missed with
  | nil => exact reached
  | cons turn rest ih =>
      have later := ih (once.reached_turn reached turn)
      rw [Nat.add_assoc, Nat.add_assoc] at later
      exact later

/-- An operation that has ended begins nothing and misses nothing. -/
theorem counts_of_finished {result : Except Error β} (ended : s.progress = .finished result)
    (turns : List Turn) :
    race.loop.rounds s turns = 0 ∧ Amid.times once.misses s turns = 0 := by
  induction turns generalizing s with
  | nil => exact ⟨rfl, rfl⟩
  | cons turn rest ih =>
      obtain ⟨rounds, misses⟩ := ih (Amid.progress_run_of_finished ended [turn])
      rw [Loop.rounds, Amid.tally, Amid.times, Amid.tally]
      have here : race.loop.cost 1 0 s turn = 0 ∧ Amid.finds once.misses s turn = 0 := by
        cases turn with
        | other call fault => exact ⟨rfl, rfl⟩
        | own => simp only [Loop.cost, Loop.now, Amid.finds, ended, and_self]
      rw [here.1, here.2, Nat.zero_add, Nat.zero_add]
      exact ⟨rounds, misses⟩

section Reached

variable {progress : Progress υ (Except Error β)}

theorem rounds_le_of_reached (reached : Reached race rounds missed progress) : rounds ≤ 1 := by
  cases progress with
  | finished result => exact reached.1
  | waiting t =>
      rw [reached.2.2]
      split
      · exact Nat.zero_le 1
      · exact Nat.le_refl 1

theorem changed_iff_of_reached (reached : Reached race rounds missed progress) :
    progress = .finished (.error .counterChanged) ↔ missed ≠ 0 := by
  cases progress with
  | finished result => exact (Progress.finished.injEq _ _).to_iff.trans reached.2.2
  | waiting t => exact ⟨nofun, fun misses => absurd reached.2.1 misses⟩

theorem ne_refused_of_reached (reached : Reached race rounds missed progress) (name : String)
    (made : UInt32) : progress ≠ .finished (.error (.retryLimitExceeded name made)) := by
  rintro rfl
  exact reached.2.1 name made rfl

end Reached

/-- An operation that has given up before its first call begins nothing, and does not fail
otherwise. -/
theorem single_of_zero (name : String) (db : Database) :
    once.Single 0 name ⟨db, .finished (.error (.retryLimitExceeded name 0))⟩ := by
  have counts := fun turns => once.counts_of_finished
    (s := ⟨db, .finished (.error (.retryLimitExceeded name 0))⟩) rfl turns
  have stays := Amid.progress_run_of_finished
    (s := (⟨db, .finished (.error (.retryLimitExceeded name 0))⟩ : Amid υ (Except Error β))) rfl
  refine ⟨fun turns => ?_, fun turns => ?_, fun turns other made => ?_, fun _ => rfl⟩
  · rw [(counts turns).1]
    exact Nat.zero_le 1
  · rw [stays, (counts turns).2]
    simp
  · rw [stays]
    simp [eq_comm]

/-- **A race of one round is over when it is lost**, and gives up only where it may not begin. -/
theorem single {policy : RetryPolicy} {key : Bytes} (limited : policy.maxAttempts = some m)
    {db : Database} {progress : Progress υ (Except Error β)}
    (asked : progress.Asked (policy.attempts key) .error
      fun _ t => race.kind t ∧ race.stage t = .reading) :
    once.Single m (Utf8.lossy key) ⟨db, progress⟩ := by
  by_cases zero : m = 0
  · subst zero
    rw [asked.of_zero limited]
    exact once.single_of_zero _ db
  · obtain ⟨task, rfl, kind, reading⟩ := asked.of_ne_zero limited zero
    have start : Reached race 0 0 (⟨db, .waiting task⟩ : Amid υ (Except Error β)).progress :=
      ⟨kind, rfl, (if_pos (congrArg Stage.phase reading)).symm⟩
    have reached : ∀ turns, Reached race (race.loop.rounds ⟨db, .waiting task⟩ turns)
        (Amid.times once.misses ⟨db, .waiting task⟩ turns)
        ((⟨db, .waiting task⟩ : Amid υ (Except Error β)).run turns).progress := by
      intro turns
      have later := once.reached_run start turns
      rwa [Nat.zero_add, Nat.zero_add] at later
    exact {
      rounds_le := fun turns => rounds_le_of_reached (reached turns)
      changed_iff := fun turns => changed_iff_of_reached (reached turns)
      gives_up_iff := fun turns name made =>
        ⟨fun refused => absurd refused (ne_refused_of_reached (reached turns) name made),
          fun none => absurd none.1 zero⟩
      at_once := fun none => absurd none zero }

end Once

end Race

end DocStore
