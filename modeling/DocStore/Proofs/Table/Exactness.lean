/-
Indexes are exact where nobody is at work.

Documents of a table are written, deleted and updated, and indexes are created, all at the same
time.  In every state of every such run, an index whose creation has returned has a document in the
bucket of a key if and only if the document yields the key, unless an operation on this document is
still under way.

* `Database.indexingRules` — operations on the table that drop no index, in a storage that does not
  fail;
* `Run.exact_or_repaired` — in every state, a membership is exact or an operation under way repairs
  it;
* `System.Owns`, `Run.eq_of_owns` — an index has one creation;
* `filed_iff_yields` — **where nobody is at work, a document is filed under the keys that it
  yields.**

The attempts of the operations are not limited, so that no operation gives up.  The documents that
are asked for are among some whose lists survive being written (`Bucket.Listable`), and a storage
call counts as failing when it would count a slot beyond the last counter (`Database.HasRoom`).
-/

import DocStore.Proofs.Table.Upkeep

set_option autoImplicit false

namespace DocStore

/-! ### Runs -/

/-- Operations on a table that drop no index, on some documents, in a storage that does not
fail. -/
def Database.indexingRules (table : Table) (documents : Set String) :
    Rules TableRequest TableTask TableOutcome where
  start _ request := request.start table
  admits _ request := request.Names documents ∧ request.drops = false
  faults db call fault := fault = none ∧ db.HasRoom call
  outside _ _ := False

instance (table : Table) (documents : Set String) [DecidablePred (· ∈ documents)]
    (s : System TableRequest TableTask TableOutcome) (request : TableRequest) :
    Decidable ((Database.indexingRules table documents).admits s request) :=
  inferInstanceAs (Decidable (request.Names documents ∧ request.drops = false))

instance (table : Table) (documents : Set String) (db : Database) (call : Call)
    (fault : Option Error) :
    Decidable ((Database.indexingRules table documents).faults db call fault) :=
  inferInstanceAs (Decidable (fault = none ∧ db.HasRoom call))

section Exactness

variable {db : Database} {table : Table} {documents : Set String}
  {s : System TableRequest TableTask TableOutcome}

/-- Such a run has a trace without faults. -/
theorem Run.exists_upkeep (run : Run (Database.indexingRules table documents) db s) :
    ∃ steps, Trace (Database.upkeepRules table documents) db steps s ∧
      ∀ step ∈ steps, step.fault = none := by
  obtain ⟨steps, trace⟩ := run.exists_trace
  exact ⟨steps, trace.imp rfl (fun _ _ h => h) (fun _ _ _ h _ => h.2) fun _ _ h => h,
    fun step mem => (trace.possible mem).1⟩

/-- The table is tended in every run, and an index whose creation has returned is registered. -/
theorem Run.tends (listable : Bucket.Listable documents) (blank : db.Blank table)
    (run : Run (Database.indexingRules table documents) db s) :
    s.Keeps (fun db => db.Tended table documents) (fun db _ task => task.Sound db table documents)
      fun db _ a => ∀ i, a = .created (.ok i) → db.Registered table i := by
  obtain ⟨steps, trace, -⟩ := run.exists_upkeep
  exact trace.run.tended listable blank

/-- **In every state, a membership is exact or an operation under way repairs it.** -/
theorem Run.exact_or_repaired (listable : Bucket.Listable documents)
    (unlimited : table.retry.maxAttempts = none) (blank : db.Blank table)
    (run : Run (Database.indexingRules table documents) db s) {m : Membership}
    (hm : s.db.Registered table m.index) :
    m.Exact s.db ∨ ∃ operation task, s.pending operation = some task ∧ task.Repairs s.db m := by
  obtain ⟨steps, trace, faultless⟩ := run.exists_upkeep
  by_cases repaired : ∃ operation task, s.pending operation = some task ∧ task.Repairs s.db m
  · exact Or.inr repaired
  · refine Or.inl (Membership.exact_of_agrees fun kind => ?_)
    rcases trace.agrees_or_repaired listable blank kind hm with agrees | now | ⟨step, hs, -, may⟩
    · exact agrees
    · exact absurd now repaired
    · -- without faults and limits nothing is given up
      exact absurd unlimited (may.resolve_left fun fault => fault (faultless step hs))

/-! ### The creation of an index -/

/-- An operation is creating an index that is registered already, or has created it. -/
def System.Owns (s : System TableRequest TableTask TableOutcome) (operation : Nat)
    (index : Index) : Prop :=
  (∃ task, s.pending operation = some task ∧ task.index? = some index) ∨
    .returned operation (.created (.ok index)) ∈ s.history

/-- An operation stays with its index, or gets one that nobody has had. -/
theorem TableTask.index?_step {task : TableTask} (tended : db.Tended table documents)
    (sound : task.Sound db table documents) :
    (Task.resume task (db.perform (Task.call task) none).1).Satisfies
      (fun t => ∀ i, t.index? = some i →
        task.index? = some i ∨ db.backend.stores.length ≤ i.buckets)
      fun a => ∀ i, a = .created (.ok i) → task.index? = some i := by
  match task, sound with
  | .document task, _ =>
      refine Progress.satisfies_map.2 ((Progress.satisfies_true _).imp ?_ ?_)
      · rintro _ - _ ⟨⟩
      · rintro _ - _ ⟨⟩
  | .creating task, sound =>
      refine Progress.satisfies_map.2 ((IndexCreation.index?_step tended sound).imp ?_ ?_)
      · exact fun _ h => h
      · rintro a h i ⟨⟩
        exact h i rfl

/-- An index that is being created or was created is registered. -/
theorem Run.registered_of_owns (listable : Bucket.Listable documents)
    (blank : db.Blank table)
    (run : Run (Database.indexingRules table documents) db s) {operation : Nat} {index : Index}
    (h : s.Owns operation index) : s.db.Registered table index := by
  have kept := run.tends listable blank
  rcases h with ⟨task, pending, hi⟩ | returned
  · obtain ⟨-, -, sound⟩ := kept.pending operation task pending
    cases task with
    | creating task => exact IndexCreation.Sound.registered sound hi
    | document task => cases hi
    | dropping task => cases hi
  · obtain ⟨-, -, registered⟩ := kept.returned operation _ returned
    exact registered index rfl

/-- An operation that begins is not about an index that exists. -/
theorem System.owns_of_owns_invoke {request : TableRequest} (names : request.Names documents)
    (stays : request.drops = false) {operation : Nat} {index : Index}
    (h : (s.invoke request (request.start table)).Owns operation index) :
    s.Owns operation index := by
  have started := @TableRequest.sound_start s.db table documents request names stays
  rcases h with ⟨task, pending, hi⟩ | returned
  · rw [System.invoke, System.pending_proceed] at pending
    split at pending
    · rw [pending] at started
      exact absurd (started.2.symm.trans hi) (Option.some_ne_none index).symm
    · exact Or.inl ⟨task, pending, hi⟩
  · rw [System.invoke, System.returned_proceed, List.mem_append, List.mem_singleton] at returned
    rcases returned with (before | no) | ⟨-, now⟩
    · exact Or.inr before
    · cases no
    · rw [now] at started
      exact absurd rfl (started index)

/-- An operation that goes on stays with its index, or it registers one with a store of its own. -/
theorem System.owns_of_owns_advance (kept : s.db.Tended table documents) {operation : Nat}
    {task : TableTask} (pending : s.pending operation = some task)
    (sound : task.Sound s.db table documents) {other : Nat} {index : Index}
    (h : (s.advance operation task none).Owns other index) :
    s.Owns other index ∨ other = operation ∧ s.db.backend.stores.length ≤ index.buckets := by
  have step := TableTask.index?_step kept sound
  rcases h with ⟨t, pending', hi⟩ | returned
  · rw [System.advance, System.pending_proceed] at pending'
    split at pending'
    · rename_i moved
      rw [pending'] at step
      rw [moved]
      exact (step index hi).imp (fun hi => Or.inl ⟨task, pending, hi⟩) fun new => ⟨rfl, new⟩
    · exact Or.inl (Or.inl ⟨t, pending', hi⟩)
  · rw [System.advance, System.returned_proceed] at returned
    rcases returned with before | ⟨moved, now⟩
    · exact Or.inl (Or.inr before)
    · rw [now] at step
      rw [moved]
      exact Or.inl (Or.inl ⟨task, pending, step index rfl⟩)

/-- **An index has one creation.** -/
theorem Run.eq_of_owns (listable : Bucket.Listable documents)
    (blank : db.Blank table)
    (run : Run (Database.indexingRules table documents) db s) {first second : Nat} {index : Index}
    (h : s.Owns first index) (h' : s.Owns second index) : first = second := by
  induction run with
  | initial => rcases h with ⟨_, no, -⟩ | no <;> cases no
  | invoke run request admitted ih =>
      obtain ⟨names, stays⟩ := admitted
      exact ih (System.owns_of_owns_invoke names stays h)
        (System.owns_of_owns_invoke names stays h')
  | @advance s run operation task pending fault possible ih =>
      obtain ⟨rfl, room⟩ := possible
      have kept := run.tends listable blank
      obtain ⟨-, -, sound⟩ := kept.pending operation task pending
      -- a store that has just been made is not yet the bucket store of any index
      have fresh : s.db.backend.stores.length ≤ index.buckets →
          ∀ {other}, ¬ s.Owns other index := by
        intro new other h
        have registered := run.registered_of_owns listable blank h
        exact absurd (registered.lt_length kept.base.arranged) (Nat.not_lt.2 new)
      rcases System.owns_of_owns_advance kept.base pending sound h with before | ⟨same, new⟩
      · rcases System.owns_of_owns_advance kept.base pending sound h' with before' | ⟨-, new⟩
        · exact ih before before'
        · exact absurd before (fresh new)
      · rcases System.owns_of_owns_advance kept.base pending sound h' with before' | ⟨same', -⟩
        · exact absurd before' (fresh new)
        · exact same.trans same'.symm
  | outside run after possible ih => cases possible

/-! ### Exactness -/

/-- **Where nobody is at work, a document is filed under the keys that it yields.** -/
theorem filed_iff_yields (listable : Bucket.Listable documents)
    (unlimited : table.retry.maxAttempts = none) (blank : db.Blank table)
    (run : Run (Database.indexingRules table documents) db s) {operation : Nat} {index : Index}
    (created : .returned operation (.created (.ok index)) ∈ s.history) {document : String}
    (idle : ∀ other task, s.pending other = some task → task.document? ≠ some document)
    (indexKey : Bytes) :
    (∃ list, (s.db.backend.store index.buckets).bucket? indexKey = some list ∧ document ∈ list) ↔
      ∃ stored, (s.db.backend.store table.documents).get? (Utf8.encode document) = some stored ∧
        index.path.Yields stored.value indexKey := by
  have kept := run.tends listable blank
  have registered := run.registered_of_owns listable blank (Or.inr created)
  have exact : Membership.Exact s.db ⟨index, indexKey, document⟩ := by
    rcases run.exact_or_repaired listable unlimited blank (m := ⟨index, indexKey, document⟩)
      registered with exact | ⟨other, task, pending, repairs⟩
    · exact exact
    · obtain ⟨-, -, sound⟩ := kept.pending other task pending
      -- nobody is at work on the document, and the creation of the index has returned
      rcases repairs.document?_or_index? sound with busy | creating
      · exact absurd busy (idle other task pending)
      · obtain rfl := run.eq_of_owns listable blank (Or.inr created)
          (Or.inl ⟨task, pending, creating⟩)
        exact absurd created (run.not_returned_of_pending pending _)
  refine exact.trans (Membership.wanted_iff_yields.trans ?_)
  rw [registered.documents kept.base.arranged]

end Exactness

/-- Whether no operation on a document is under way. -/
def System.isIdle (s : System TableRequest TableTask TableOutcome) (document : String) : Bool :=
  (List.range s.history.length).all fun operation =>
    (s.pending operation).all fun task => task.document? != some document

theorem Run.idle {rules : Rules TableRequest TableTask TableOutcome} {db : Database}
    {s : System TableRequest TableTask TableOutcome} (run : Run rules db s) {document : String}
    (h : s.isIdle document = true) (operation : Nat) (task : TableTask)
    (pending : s.pending operation = some task) : task.document? ≠ some document := by
  have mem := List.mem_range.2 (run.lt_length_of_pending pending)
  have idle := List.all_eq_true.1 h operation mem
  rw [pending, Option.all_some] at idle
  exact bne_iff_ne.1 idle

/-- The index that was created, if one was. -/
def TableOutcome.index? : TableOutcome → Option Index
  | .created (.ok index) => some index
  | _ => none

theorem TableOutcome.eq_created_of_index? {outcome : TableOutcome} {index : Index}
    (h : outcome.index? = some index) : outcome = .created (.ok index) := by
  unfold index? at h
  split at h
  · rw [Option.some.inj h]
  · cases h

/-- Two writers of one document, the second of which has filed it before the first looks for
indexes: the first files it under a value that it does not have any more, notices, and settles it.
Another document is still being written. -/
theorem filed_iff_yields_of_race :
    Bucket.Listable {"x", "y"} ∧ (Database.fresh .default "t").1.retry.maxAttempts = none ∧
      (Database.fresh .default "t").2.Blank (Database.fresh .default "t").1 ∧
      ∃ s index, Run (Database.indexingRules (Database.fresh .default "t").1 {"x", "y"})
          (Database.fresh .default "t").2 s ∧
        .returned 0 (.created (.ok index)) ∈ s.history ∧ (s.pending 6).isSome = true ∧
        (∀ operation task, s.pending operation = some task → task.document? ≠ some "x") ∧
        ∀ indexKey,
          (∃ list, (s.db.backend.store index.buckets).bucket? indexKey = some list ∧ "x" ∈ list) ↔
            ∃ stored, (s.db.backend.store (Database.fresh .default "t").1.documents).get?
                (Utf8.encode "x") = some stored ∧ index.path.Yields stored.value indexKey := by
  have listable : Bucket.Listable {"x", "y"} := Bucket.listable_pair (by decide) (by decide)
  have blank := Database.blank_fresh .default "t"
  have played : (((System.initial (Database.fresh .default "t").2).play?
      (Database.indexingRules (Database.fresh .default "t").1 {"x", "y"})
      [.invoke (.createIndex "i" "n"), .advance 0 none, .advance 0 none, .advance 0 none,
        .invoke (.document (.set "x" (.map [(.string "n", .bool false)]))),
        .invoke (.document (.set "x" (.map [(.string "n", .bool true)]))),
        .advance 2 none, .advance 2 none, .advance 3 none, .advance 3 none, .advance 3 none,
        .advance 3 none, .advance 3 none, .advance 3 none, .advance 3 none, .advance 2 none,
        .advance 2 none, .advance 2 none, .advance 2 none, .advance 2 none, .advance 2 none,
        .advance 2 none, .advance 2 none,
        .invoke (.document (.set "y" (.map [(.string "n", .bool true)]))),
        .advance 6 none, .advance 6 none]).any
      fun s => ((s.results 0).findSome? TableOutcome.index?).isSome && (s.pending 6).isSome &&
        s.isIdle "x") = true := by
    decide +kernel
  obtain ⟨s, run, hs⟩ := Run.exists_of_play? played
  rw [Bool.and_eq_true, Bool.and_eq_true] at hs
  obtain ⟨⟨results, pending⟩, idle⟩ := hs
  obtain ⟨index, found⟩ := Option.isSome_iff_exists.1 results
  obtain ⟨outcome, mem, made⟩ := List.exists_of_findSome?_eq_some found
  have created : .returned 0 (.created (.ok index)) ∈ s.history := by
    rw [← TableOutcome.eq_created_of_index? made, ← System.mem_results]
    exact mem
  exact ⟨listable, rfl, blank, s, index, run, created, pending, run.idle idle,
    filed_iff_yields listable rfl blank run created (run.idle idle)⟩

end DocStore
