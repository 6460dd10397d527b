/-
Operations on documents are linearizable.

However the calls of reading, writing, deleting and updating operations are interleaved, there is an
order of the operations, compatible with what returned before what was invoked, in which each of
them, made alone, has the outcome that it had, and which leads to the documents that are there.  The
order is that of the steps in which the operations take effect; an operation that is still under
way has its place in it once it has taken effect.

* `Database.linearRules` — operations on the documents of a table, in a storage that does not fail;
* `Linearization` — an order of operations that explains a state;
* `exists_linearization` — **every state that is reached has such an order.**

A storage call counts as failing when it would count a slot beyond the last counter
(`Database.HasRoom`): from there the counters would come round, and a value could return to a
counter at which it was read before.
-/

import DocStore.Proofs.Documents.Effects

set_option autoImplicit false

namespace DocStore

/-- Operations on the documents of a table, in a storage that does not fail. -/
def Database.linearRules (table : Table) : Rules DocumentRequest DocumentTask DocumentOutcome where
  start _ request := request.start table
  admits _ _ := True
  faults db call fault := fault = none ∧ db.HasRoom call
  outside _ _ := False

instance (table : Table) (s : System DocumentRequest DocumentTask DocumentOutcome)
    (request : DocumentRequest) : Decidable ((Database.linearRules table).admits s request) :=
  inferInstanceAs (Decidable True)

instance (table : Table) (db : Database) (call : Call) (fault : Option Error) :
    Decidable ((Database.linearRules table).faults db call fault) :=
  inferInstanceAs (Decidable (fault = none ∧ db.HasRoom call))

/-- An order of operations, with their outcomes, that explains a state: from the documents before,
they lead one after another to those that are there. -/
structure Linearization (table : Table) (before : Store)
    (s : System DocumentRequest DocumentTask DocumentOutcome)
    (order : List (Nat × DocumentOutcome)) : Prop where
  /-- No operation takes effect twice. -/
  once : (order.map Prod.fst).Nodup
  /-- Every operation that has returned has taken effect, with the outcome that it returned. -/
  complete : ∀ operation outcome, .returned operation outcome ∈ s.history →
    (operation, outcome) ∈ order
  /-- No other operation has taken effect than those that have returned and those under way. -/
  genuine : ∀ operation outcome, (operation, outcome) ∈ order →
    .returned operation outcome ∈ s.history ∨ (s.pending operation).isSome
  /-- An operation that returned before another one was invoked comes before it. -/
  realTime : order.Pairwise fun first second => ¬ Precedes s.history second.1 first.1
  /-- Each operation has the outcome that it would have alone at its place. -/
  sequential : Sequential table.retry s.history before order (s.db.backend.store table.documents)

/-! ### What holds of every operation -/

variable {table : Table} {db : Database}
  {s : System DocumentRequest DocumentTask DocumentOutcome}

/-- Every operation under way serves its request. -/
theorem Run.serves (holds : db.Holds table) (run : Run (Database.linearRules table) db s) :
    s.Keeps (fun db => db.Holds table)
      (fun db request task => task.Serves table (db.backend.store table.documents) request)
      fun _ _ _ => True := by
  refine run.keeps holds ?_ ?_ ?_
  · intro s request _ _
    exact (DocumentRequest.effective_start table request _).1
  · rintro db request task fault ⟨rfl, room⟩ holds serves
    refine ⟨holds.perform none task.call_isAccess, ?_, ?_, fun _ _ _ => trivial⟩
    · exact (DocumentTask.effective_resume holds serves room).1
    · exact fun other u hu => hu.mono fun key stored hr => Database.recalls_perform none room hr
  · intro _ _ possible
    cases possible

/-! ### Taking effect, in a run -/

/-- An operation has this outcome: it has returned it, or has taken effect with it. -/
def System.Tells (s : System DocumentRequest DocumentTask DocumentOutcome) (operation : Nat)
    (outcome : DocumentOutcome) : Prop :=
  .returned operation outcome ∈ s.history ∨
    ∃ task, s.pending operation = some task ∧ task.outcome? = some outcome

/-- An order of exactly the operations that have taken effect. -/
structure Effects (table : Table) (before : Store)
    (s : System DocumentRequest DocumentTask DocumentOutcome)
    (order : List (Nat × DocumentOutcome)) : Prop where
  once : (order.map Prod.fst).Nodup
  told : ∀ operation outcome, (operation, outcome) ∈ order ↔ s.Tells operation outcome
  realTime : order.Pairwise fun first second => ¬ Precedes s.history second.1 first.1
  sequential : Sequential table.retry s.history before order (s.db.backend.store table.documents)

theorem Effects.linearization {before : Store} {order : List (Nat × DocumentOutcome)}
    (h : Effects table before s order) : Linearization table before s order where
  once := h.once
  complete operation outcome hr := (h.told operation outcome).2 (Or.inl hr)
  genuine operation outcome hm := by
    rcases (h.told operation outcome).1 hm with hr | ⟨task, hp, -⟩
    · exact Or.inl hr
    · exact Or.inr (by rw [hp]; rfl)
  realTime := h.realTime
  sequential := h.sequential

/-- Nothing that returns in a step returned before something that was already invoked. -/
theorem precedes_of_proceed {operation first second : Nat}
    {progress : Progress DocumentTask DocumentOutcome}
    (h : Precedes (s.proceed operation progress).history first second)
    (invoked : second < s.history.length) : Precedes s.history first second := by
  obtain ⟨i, result, hi, lt⟩ := h
  refine ⟨i, result, ?_, lt⟩
  cases progress with
  | waiting task => exact hi
  | finished a =>
      rw [System.proceed, List.getElem?_append_left (by omega)] at hi
      exact hi

/-- Nothing returns where something is invoked. -/
theorem precedes_of_append_invoked {ρ α : Type} {history : List (Event ρ α)} {request : ρ}
    {first second : Nat} (h : Precedes (history ++ [.invoked request]) first second) :
    Precedes history first second := by
  obtain ⟨i, result, hi, lt⟩ := h
  refine ⟨i, result, ?_, lt⟩
  rcases Nat.lt_or_ge i history.length with old | new
  · rwa [List.getElem?_append_left old] at hi
  · rw [List.getElem?_append_right new, List.getElem?_singleton] at hi
    split at hi
    · cases hi
    · cases hi

/-- What is told after a step, of the operation that moves and of the others. -/
theorem tells_proceed (s : System DocumentRequest DocumentTask DocumentOutcome)
    {operation : Nat} (unreturned : ∀ outcome, .returned operation outcome ∉ s.history)
    (progress : Progress DocumentTask DocumentOutcome) (other : Nat) (outcome : DocumentOutcome) :
    (s.proceed operation progress).Tells other outcome
      ↔ if other = operation then progress.outcome? DocumentTask.outcome? = some outcome
        else s.Tells other outcome := by
  unfold System.Tells
  rw [System.returned_proceed]
  simp only [System.pending_proceed]
  by_cases same : other = operation
  · subst same
    simp only [if_true, true_and, unreturned outcome, false_or]
    cases progress with
    | waiting task => simp [Progress.outcome?]
    | finished a => simp [Progress.outcome?]
  · simp [same]

/-- A step of an operation puts nothing before what has taken effect. -/
theorem Effects.precedes_of_proceed {before : Store} {order : List (Nat × DocumentOutcome)}
    (h : Effects table before s order)
    (known : ∀ other a, s.Tells other a → other < s.history.length) {operation : Nat}
    {after : Database} {progress : Progress DocumentTask DocumentOutcome}
    {effect : Nat × DocumentOutcome} (hm : effect ∈ order) {other : Nat}
    (precedes : Precedes ({ s with db := after }.proceed operation progress).history
      other effect.1) : Precedes s.history other effect.1 :=
  DocStore.precedes_of_proceed (s := { s with db := after }) precedes
    (known effect.1 effect.2 ((h.told _ _).1 hm))

/-- An operation that goes on without taking effect leaves the order of the effects as it is. -/
theorem Effects.proceed_of_same {before : Store} {order : List (Nat × DocumentOutcome)}
    (h : Effects table before s order) {operation : Nat} {outcome : Option DocumentOutcome}
    (told : ∀ a, s.Tells operation a ↔ outcome = some a)
    (unreturned : ∀ a, .returned operation a ∉ s.history)
    (known : ∀ other a, s.Tells other a → other < s.history.length) {after : Database}
    {progress : Progress DocumentTask DocumentOutcome}
    (same : after.backend.store table.documents = s.db.backend.store table.documents)
    (later : progress.outcome? DocumentTask.outcome? = outcome) :
    Effects table before ({ s with db := after }.proceed operation progress) order where
  once := h.once
  told other a := by
    rw [h.told, tells_proceed { s with db := after } unreturned progress]
    split
    · rename_i moved
      rw [moved, told, later]
    · rfl
  realTime := h.realTime.imp_of_mem fun ha _ hn hp => hn (h.precedes_of_proceed known ha hp)
  sequential := by
    rw [System.db_proceed, same]
    exact h.sequential.mono (System.history_proceed { s with db := after } operation progress)

/-- An operation that takes effect comes last in the order. -/
theorem Effects.proceed_of_effect {before : Store} {order : List (Nat × DocumentOutcome)}
    (h : Effects table before s order) {operation : Nat} {request : DocumentRequest}
    (untold : ∀ a, ¬ s.Tells operation a) (unreturned : ∀ a, .returned operation a ∉ s.history)
    (known : ∀ other a, s.Tells other a → other < s.history.length)
    (invoked : s.history[operation]? = some (.invoked request)) {after : Database}
    {progress : Progress DocumentTask DocumentOutcome} {a : DocumentOutcome}
    (later : progress.outcome? DocumentTask.outcome? = some a)
    (allowed : request.Allows table.retry (s.db.backend.store table.documents) a
      (after.backend.store table.documents)) :
    Effects table before ({ s with db := after }.proceed operation progress)
      (order ++ [(operation, a)]) := by
  have extended : s.history <+: ({ s with db := after }.proceed operation progress).history :=
    System.history_proceed { s with db := after } operation progress
  have fresh : ∀ b, (operation, b) ∉ order := fun b hb => untold b ((h.told _ _).1 hb)
  refine ⟨?_, ?_, ?_, ?_⟩
  · rw [List.map_append, List.nodup_append]
    refine ⟨h.once, by simp, ?_⟩
    rintro other ho _ hm rfl
    obtain ⟨⟨_, b⟩, hb, rfl⟩ := List.mem_map.1 ho
    obtain rfl := List.mem_singleton.1 hm
    exact fresh b hb
  · intro other b
    rw [tells_proceed { s with db := after } unreturned progress, List.mem_append,
      List.mem_singleton, Prod.mk.injEq, later]
    by_cases moved : other = operation
    · subst moved
      simp [fresh b, eq_comm]
    · simp only [moved, false_and, or_false, if_false]
      exact h.told other b
  · have old : ∀ e ∈ order, ∀ other, Precedes
        ({ s with db := after }.proceed operation progress).history other e.1 →
          Precedes s.history other e.1 := fun e he other hp => h.precedes_of_proceed known he hp
    have inTime := h.realTime.imp_of_mem fun ha _ hn hp => hn (old _ ha _ hp)
    -- the operation has not returned before this step, so it precedes none of the others
    refine List.pairwise_append.2 ⟨inTime, List.pairwise_singleton _ _, ?_⟩
    rintro e he x hx precedes
    obtain rfl := List.mem_singleton.1 hx
    obtain ⟨i, result, hi, -⟩ := old e he operation precedes
    exact unreturned result (List.mem_of_getElem? hi)
  · rw [System.db_proceed]
    exact (h.sequential.mono extended).append (System.getElem?_of_prefix extended invoked) allowed

/-- **One operation goes on:** the order of the effects stays, or the operation comes last in it. -/
theorem Effects.proceed {before : Store} {order : List (Nat × DocumentOutcome)}
    (h : Effects table before s order) {operation : Nat} {request : DocumentRequest}
    {outcome : Option DocumentOutcome} (told : ∀ a, s.Tells operation a ↔ outcome = some a)
    (unreturned : ∀ a, .returned operation a ∉ s.history)
    (known : ∀ other a, s.Tells other a → other < s.history.length)
    (invoked : s.history[operation]? = some (.invoked request)) {after : Database}
    {progress : Progress DocumentTask DocumentOutcome}
    (step : request.Proceeds table (s.db.backend.store table.documents)
      (after.backend.store table.documents) outcome progress) :
    ∃ order, Effects table before ({ s with db := after }.proceed operation progress) order := by
  -- an operation takes effect in at most one of its steps
  rcases step.2 with ⟨same, later⟩ | ⟨rfl, a, later, allowed⟩
  · exact ⟨order, h.proceed_of_same told unreturned known same later⟩
  · have untold : ∀ b, ¬ s.Tells operation b := fun b hb =>
      Option.some_ne_none b ((told b).1 hb).symm
    exact ⟨_, h.proceed_of_effect untold unreturned known invoked later allowed⟩

/-- An operation that has an outcome was invoked. -/
theorem Run.lt_length_of_tells (run : Run (Database.linearRules table) db s) {operation : Nat}
    {outcome : DocumentOutcome} (h : s.Tells operation outcome) : operation < s.history.length := by
  rcases h with hr | ⟨task, hp, -⟩
  · obtain ⟨⟨request, hq⟩, -⟩ := run.of_returned hr
    exact (List.getElem?_eq_some_iff.1 hq).1
  · exact run.lt_length_of_pending hp

/-- In every run there is an order of the operations that have taken effect. -/
theorem Run.exists_effects (holds : db.Holds table)
    (run : Run (Database.linearRules table) db s) :
    ∃ order, Effects table (db.backend.store table.documents) s order := by
  induction run with
  | initial =>
      refine ⟨[], List.nodup_nil, ?_, .nil, .nil⟩
      intro operation outcome
      simp [System.Tells, System.initial]
  | @invoke s run request admitted ih =>
      obtain ⟨order, h⟩ := ih
      have same : ∀ other a, (.returned other a ∈ s.history ++ [.invoked request]
          ↔ .returned other a ∈ s.history) := by simp
      -- the request is noted first, and then the operation begins
      have noted : Effects table (db.backend.store table.documents)
          { s with history := s.history ++ [.invoked request] } order := by
        refine ⟨h.once, ?_, ?_, h.sequential.mono (List.prefix_append _ _)⟩
        · intro other a
          rw [h.told, System.Tells, System.Tells, same]
        · exact h.realTime.imp fun hn hp => hn (precedes_of_append_invoked hp)
      have unknown : ∀ a, ¬ s.Tells s.history.length a :=
        fun a ha => Nat.lt_irrefl _ (run.lt_length_of_tells ha)
      refine noted.proceed ?_ ?_ ?_ (by simp)
        (DocumentRequest.effective_start table request (s.db.backend.store table.documents))
      · intro a
        rw [System.Tells, same]
        exact iff_of_false (unknown a) (by simp)
      · intro a hr
        exact unknown a (Or.inl ((same _ a).1 hr))
      · intro other a ht
        rw [System.Tells, same] at ht
        have lt := run.lt_length_of_tells ht
        rw [List.length_append]
        exact Nat.lt_add_right _ lt
  | @advance s run operation task pending fault possible ih =>
      obtain ⟨order, h⟩ := ih
      obtain ⟨rfl, room⟩ := possible
      have kept := run.serves holds
      obtain ⟨request, invoked, serves⟩ := kept.pending operation task pending
      have unreturned := run.not_returned_of_pending pending
      refine h.proceed ?_ unreturned (fun other a ht => run.lt_length_of_tells ht) invoked
        (DocumentTask.effective_resume kept.base serves room)
      intro a
      -- an operation under way tells what its task tells, and nothing else
      simp [System.Tells, unreturned a, pending]
  | outside run after possible ih => cases possible

/-- **Every state that is reached has an order of its operations that explains it.** -/
theorem exists_linearization (holds : db.Holds table)
    (run : Run (Database.linearRules table) db s) :
    ∃ order, Linearization table (db.backend.store table.documents) s order := by
  obtain ⟨order, h⟩ := run.exists_effects holds
  exact ⟨order, h.linearization⟩

/-- Whether a write gave this counter. -/
def DocumentOutcome.wrote (counter : Counter) : DocumentOutcome → Bool
  | .written (.ok c) => c == counter
  | _ => false

/-- Whether a deletion succeeded. -/
def DocumentOutcome.erased : DocumentOutcome → Bool
  | .deleted (.ok ()) => true
  | _ => false

theorem DocumentOutcome.eq_written_of_wrote {outcome : DocumentOutcome} {counter : Counter}
    (h : outcome.wrote counter = true) : outcome = .written (.ok counter) := by
  unfold wrote at h
  split at h
  · rw [beq_iff_eq.1 h]
  · cases h

theorem DocumentOutcome.eq_deleted_of_erased {outcome : DocumentOutcome}
    (h : outcome.erased = true) : outcome = .deleted (.ok ()) := by
  unfold erased at h
  split at h
  · rfl
  · cases h

/-- Two writers and a deletion of one document: the second writer loses its first attempt, the
deletion takes effect between the two writes, and the first writer is still bringing indexes in
line. -/
theorem exists_linearization_of_race :
    (Database.fresh .default "t").2.Holds (Database.fresh .default "t").1 ∧
      ∃ s, Run (Database.linearRules (Database.fresh .default "t").1)
          (Database.fresh .default "t").2 s ∧
        .returned 1 (.written (.ok 3)) ∈ s.history ∧
        .returned 2 (.deleted (.ok ())) ∈ s.history ∧ (s.pending 0).isSome = true ∧
        ∃ order, Linearization (Database.fresh .default "t").1
          ((Database.fresh .default "t").2.backend.store (Database.fresh .default "t").1.documents)
          s order := by
  have holds := (Database.arranged_fresh .default "t").holds
  have played : (((System.initial (Database.fresh .default "t").2).play?
      (Database.linearRules (Database.fresh .default "t").1)
      [.invoke (.set "x" .null), .invoke (.set "x" (.bool true)), .invoke (.delete "x"),
        .advance 0 none, .advance 1 none, .advance 0 none, .advance 1 none, .advance 2 none,
        .advance 2 none, .advance 1 none, .advance 1 none, .advance 1 none, .advance 2 none]).any
      fun s => (s.results 1).any (·.wrote 3) && (s.results 2).any (·.erased) &&
        (s.pending 0).isSome) = true := by
    decide +kernel
  obtain ⟨s, run, hs⟩ := Run.exists_of_play? played
  rw [Bool.and_eq_true, Bool.and_eq_true] at hs
  obtain ⟨⟨wrote, erased⟩, pending⟩ := hs
  obtain ⟨first, hf, wrote⟩ := List.any_eq_true.1 wrote
  obtain ⟨second, he, erased⟩ := List.any_eq_true.1 erased
  refine ⟨holds, s, run, ?_, ?_, pending, exists_linearization holds run⟩
  · rw [← System.mem_results, ← DocumentOutcome.eq_written_of_wrote wrote]
    exact hf
  · rw [← System.mem_results, ← DocumentOutcome.eq_deleted_of_erased erased]
    exact he

end DocStore
