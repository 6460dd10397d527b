/-
Operations on a table, and the memberships that they leave behind.

Documents of a table are written, deleted and updated, and indexes are created, all at the same
time, by operations whose attempts may be limited and in a storage that may fail.  A membership may
then be wrong for good.  In every state, nothing of a kind is left to be done to it, or an operation
under way will see to it, or one has given it up before.

* `TableTask.Sound`, `TableTask.Repairs`, `TableTask.GivesUp` — what an operation under way relies
  on, the memberships that it makes right, and those that it gives up at a reply;
* `TableTask.mends` — every call of an operation mends all memberships but those that it makes it
  give up;
* `Database.upkeepRules` — operations on the table that drop no index;
* `Run.tended` — the table is in order in every run;
* `Trace.agrees_or_repaired` — **what an index lacks, or has too much, is repaired by an operation
  under way, or has been given up.**

The documents that are asked for are among some whose lists survive being written
(`Bucket.Listable`), and a storage call has to fail when it would count a slot beyond the last
counter (`Database.HasRoom`).
-/

import DocStore.Proofs.Documents.Upkeep
import DocStore.Proofs.Index.Creation
import DocStore.Proofs.Run.Trace

set_option autoImplicit false

namespace DocStore

/-! ### Operations under way -/

namespace TableTask

/-- What an operation under way relies on. -/
def Sound (db : Database) (table : Table) (documents : Set String) : TableTask → Prop
  | .document (.reading _) => True
  | .document (.writing task) => task.Sound db table documents
  | .document (.deleting task) => task.Sound db table documents
  | .document (.updating task) => task.Sound db table documents
  | .creating task => task.Sound db table documents
  | .dropping _ => False

/-- The memberships that an operation under way makes right. -/
def Repairs (db : Database) (m : Membership) : TableTask → Prop
  | .document (.reading _) => False
  | .document (.writing task) => task.Repairs db m
  | .document (.deleting task) => task.Repairs db m
  | .document (.updating task) => task.Repairs db m
  | .creating task => task.Repairs db m
  | .dropping _ => False

/-- The memberships that an operation under way gives up at a reply, as far as changes of this kind
are due to them. -/
def GivesUp (kind : Bucket.Change) (reply : Reply) (m : Membership) : TableTask → Prop
  | .document (.reading _) => False
  | .document (.writing task) => task.GivesUp kind reply m
  | .document (.deleting task) => task.GivesUp kind reply m
  | .document (.updating task) => task.GivesUp kind reply m
  | .creating task => task.GivesUp kind reply m
  | .dropping _ => False

/-- The index that is being created, once it is registered. -/
def index? : TableTask → Option Index
  | .creating task => task.index?
  | _ => none

variable {db after : Database} {table : Table} {documents : Set String} {m : Membership}
  {kind : Bucket.Change} {fault : Option Error} {task : TableTask}

theorem Sound.mono (h : task.Sound db table documents) (later : db.Extends table after) :
    task.Sound after table documents := by
  match task, h with
  | .document (.reading _), _ => trivial
  | .document (.writing _), h => exact DocumentWrite.Sound.mono h later
  | .document (.deleting _), h => exact DocumentDelete.Sound.mono h later
  | .document (.updating _), h => exact DocumentUpdate.Sound.mono h later
  | .creating _, h => exact IndexCreation.Sound.mono h later

theorem Repairs.mono (h : task.Repairs db m) (later : db.Extends table after)
    (filed : m.Filed after → m.Filed db) : task.Repairs after m := by
  match task, h with
  | .document (.writing _), h => exact DocumentWrite.Repairs.mono h later filed
  | .document (.deleting _), h => exact DocumentDelete.Repairs.mono h later filed
  | .document (.updating _), h => exact DocumentUpdate.Repairs.mono h later filed
  | .creating _, h => exact IndexCreation.Repairs.mono h later filed

/-- An operation repairs memberships of its document, or of the index that it creates. -/
theorem Repairs.document?_or_index? (h : task.Repairs db m)
    (sound : task.Sound db table documents) :
    task.document? = some m.document ∨ task.index? = some m.index := by
  match task, h with
  | .document (.writing _), h => exact Or.inl (congrArg some (h.document sound).symm)
  | .document (.deleting _), h => exact Or.inl (congrArg some (h.document sound).symm)
  | .document (.updating _), h => exact Or.inl (congrArg some (h.document sound).symm)
  | .creating _, h => exact Or.inr (IndexCreation.Repairs.index?_eq h sound)

/-- Every call of an operation on a document mends all memberships but those that it makes it give
up. -/
theorem mends_document (listable : Bucket.Listable documents) (tended : db.Tended table documents)
    {task : DocumentTask} (h : (document task).Sound db table documents)
    (room : fault = none → db.HasRoom (Task.call task)) :
    let performed := db.perform (Task.call task) fault
    let progress := Task.resume task performed.1
    progress.Satisfies (fun t => (document t).Sound performed.2 table documents) (fun _ => True) ∧
      db.Mends table documents kind (fun m => (document task).Repairs db m) performed.2 fun m =>
        progress.Waits (fun t => (document t).Repairs performed.2 m) ∨
          (document task).GivesUp kind performed.1 m ∧ table.MayGiveUp fault := by
  match task, h with
  | .reading read, _ =>
      have quiet : ∀ {given : Membership → Prop}, db.Mends table documents kind (fun _ => False)
          (db.perform (Task.call read) fault).2 fun m =>
            (Task.resume read (db.perform (Task.call read) fault).1).Waits (fun _ => False) ∨
              given m := by
        cases fault <;> exact tended.mends_none
      exact Database.mends_map _ _ (Progress.satisfies_true _) quiet (fun _ _ => trivial)
        (fun _ _ => trivial) fun _ _ no => no
  | .writing w, h =>
      obtain ⟨sound, mends⟩ := DocumentWrite.mends listable tended h room
      exact Database.mends_map _ _ sound mends (fun _ h => h.1) (fun _ _ => trivial) fun _ _ h => h
  | .deleting d, h =>
      obtain ⟨sound, mends⟩ := DocumentDelete.mends listable tended h room
      exact Database.mends_map _ _ sound mends (fun _ h => h.1) (fun _ _ => trivial) fun _ _ h => h
  | .updating u, h =>
      obtain ⟨sound, mends⟩ := DocumentUpdate.mends listable tended h room
      exact Database.mends_map _ _ sound mends (fun _ h => h.1) (fun _ _ => trivial) fun _ _ h => h

/-- **Every call of an operation mends all memberships but those that it makes it give up.** -/
theorem mends (kind : Bucket.Change) (listable : Bucket.Listable documents)
    (tended : db.Tended table documents) (h : task.Sound db table documents)
    (room : fault = none → db.HasRoom (Task.call task)) :
    let performed := db.perform (Task.call task) fault
    let progress := Task.resume task performed.1
    progress.Satisfies (fun t => t.Sound performed.2 table documents)
        (fun a => ∀ i, a = .created (.ok i) → performed.2.Registered table i) ∧
      db.Mends table documents kind (fun m => task.Repairs db m) performed.2 fun m =>
        progress.Waits (fun t => t.Repairs performed.2 m) ∨
          task.GivesUp kind performed.1 m ∧ table.MayGiveUp fault := by
  match task, h with
  | .document _, h =>
      obtain ⟨sound, mends⟩ := mends_document listable tended h room
      exact Database.mends_map _ _ sound mends (fun _ h => h) (fun _ _ => nofun) fun _ _ h => h
  | .creating c, h =>
      obtain ⟨sound, mends⟩ := IndexCreation.mends listable tended h room
      refine Database.mends_map _ _ sound mends (fun _ h => h) ?_ fun _ _ h => h
      rintro a ha i ⟨⟩
      exact ha i rfl

end TableTask

/-! ### Requests -/

/-- An operation that begins has created nothing yet. -/
theorem TableRequest.sound_start {db : Database} {table : Table} {documents : Set String}
    {request : TableRequest} (names : request.Names documents) (stays : request.drops = false) :
    (request.start table).Satisfies
      (fun task => task.Sound db table documents ∧ task.index? = none)
      fun a => ∀ i, a ≠ .created (.ok i) := by
  match request, stays with
  | .document (.get key shape), _ => exact ⟨trivial, rfl⟩
  | .document (.set key value), _ =>
      have started := @DocumentWrite.sound_start db table _ _ (names key rfl) value none
      exact Progress.satisfies_map.2 (Progress.satisfies_map.2
        (started.imp (fun _ h => ⟨h.1, rfl⟩) fun _ _ => nofun))
  | .document (.setIf key value expected), _ =>
      have started := @DocumentWrite.sound_start db table _ _ (names key rfl) value (some expected)
      exact Progress.satisfies_map.2 (Progress.satisfies_map.2
        (started.imp (fun _ h => ⟨h.1, rfl⟩) fun _ _ => nofun))
  | .document (.delete key), _ =>
      have started := @DocumentDelete.sound_start db table _ _ (names key rfl) none
      exact Progress.satisfies_map.2 (Progress.satisfies_map.2
        (started.imp (fun _ h => ⟨h.1, rfl⟩) fun _ _ => nofun))
  | .document (.deleteIf key expected), _ =>
      have started := @DocumentDelete.sound_start db table _ _ (names key rfl) (some expected)
      exact Progress.satisfies_map.2 (Progress.satisfies_map.2
        (started.imp (fun _ h => ⟨h.1, rfl⟩) fun _ _ => nofun))
  | .document (.update key modifier), _ =>
      have started := @DocumentUpdate.sound_start db table _ _ (names key rfl) modifier
      exact Progress.satisfies_map.2 (Progress.satisfies_map.2
        (started.imp (fun _ h => ⟨h.1, rfl⟩) fun _ _ => nofun))
  | .createIndex name path, _ =>
      refine Progress.satisfies_map.2 ?_
      unfold Table.createIndex IndexCreation.start
      split
      · rintro _ ⟨⟩
      · split
        · rintro _ ⟨⟩
        · exact ⟨⟨rfl, trivial⟩, rfl⟩

/-! ### Runs -/

/-- Operations on a table that drop no index, on some documents, in a storage that may fail. -/
def Database.upkeepRules (table : Table) (documents : Set String) :
    Rules TableRequest TableTask TableOutcome where
  start _ request := request.start table
  admits _ request := request.Names documents ∧ request.drops = false
  faults db call fault := fault = none → db.HasRoom call
  outside _ _ := False

instance (table : Table) (documents : Set String) [DecidablePred (· ∈ documents)]
    (s : System TableRequest TableTask TableOutcome) (request : TableRequest) :
    Decidable ((Database.upkeepRules table documents).admits s request) :=
  inferInstanceAs (Decidable (request.Names documents ∧ request.drops = false))

instance (table : Table) (documents : Set String) (db : Database) (call : Call)
    (fault : Option Error) :
    Decidable ((Database.upkeepRules table documents).faults db call fault) :=
  inferInstanceAs (Decidable (fault = none → db.HasRoom call))

section Upkeep

variable {db : Database} {table : Table} {documents : Set String}
  {s : System TableRequest TableTask TableOutcome} {steps : List (Step TableTask)}

/-- The table is in order in every run, and an index whose creation has returned is registered. -/
theorem Run.tended (listable : Bucket.Listable documents) (blank : db.Blank table)
    (run : Run (Database.upkeepRules table documents) db s) :
    s.Keeps (fun db => db.Tended table documents) (fun db _ task => task.Sound db table documents)
      fun db _ a => ∀ i, a = .created (.ok i) → db.Registered table i := by
  refine run.keeps (blank.tended documents) ?_ ?_ ?_
  · rintro s request - ⟨names, stays⟩
    exact (TableRequest.sound_start names stays).imp (fun _ h => h.1)
      fun a h i ha => absurd ha (h i)
  · intro db request task fault room tended sound
    obtain ⟨kept, mends⟩ := TableTask.mends .add listable tended sound room
    exact ⟨mends.tended, kept, fun _ _ h => h.mono mends.later,
      fun _ _ h i ha => mends.later.registered _ (h i ha)⟩
  · intro _ _ possible
    cases possible

/-- An operation gives the membership up at this call, as far as changes of this kind are due. -/
def Step.GivesUp (kind : Bucket.Change) (step : Step TableTask) (m : Membership) : Prop :=
  step.task.GivesUp kind step.reply m

/-- **In every state, nothing of a kind is left to be done to a membership, or an operation under
way repairs it, or one has given it up.** -/
theorem Trace.agrees_or_repaired (listable : Bucket.Listable documents) (blank : db.Blank table)
    (trace : Trace (Database.upkeepRules table documents) db steps s) (kind : Bucket.Change)
    {m : Membership} (hm : s.db.Registered table m.index) :
    m.Agrees s.db kind ∨
      (∃ operation task, s.pending operation = some task ∧ task.Repairs s.db m) ∨
      ∃ step ∈ steps, step.GivesUp kind m ∧ table.MayGiveUp step.fault := by
  induction trace with
  | initial =>
      rw [Database.Registered, System.initial, blank.unindexed] at hm
      cases hm
  | @invoke steps s trace request admitted ih =>
      rw [System.db_invoke] at hm ⊢
      refine (ih hm).imp_right (Or.imp_left ?_)
      rintro ⟨operation, task, pending, repairs⟩
      refine ⟨operation, task, ?_, repairs⟩
      have old := trace.run.lt_length_of_pending pending
      rw [System.invoke, System.pending_proceed, if_neg (Nat.ne_of_lt old)]
      exact pending
  | @advance steps s trace operation task pending fault room ih =>
      have kept := trace.run.tended listable blank
      obtain ⟨-, -, sound⟩ := kept.pending operation task pending
      obtain ⟨-, mends⟩ := TableTask.mends kind listable kept.base sound room
      rw [System.db_advance] at hm ⊢
      -- the step repairs the membership, gives it up, has it agree, or does not touch it
      rcases mends.mended m hm with (repairs | given) | agrees | ⟨untouched, not⟩
      · obtain ⟨t, ht, repairs⟩ := Progress.exists_of_waits repairs
        refine Or.inr (Or.inl ⟨operation, t, ?_, repairs⟩)
        rw [System.advance, System.pending_proceed, if_pos rfl]
        exact ht
      · exact Or.inr (Or.inr ⟨_, List.mem_append_right _ List.mem_cons_self, given⟩)
      · exact Or.inl agrees
      · rcases ih untouched.registered with agrees | ⟨other, u, hu, repairs⟩ | ⟨step, hs, given⟩
        · exact Or.inl (untouched.agrees agrees)
        · -- another operation repairs it, and is not disturbed by this step
          have different : other ≠ operation := by
            rintro rfl
            obtain rfl : task = u := Option.some.inj (pending.symm.trans hu)
            exact not repairs
          refine Or.inr (Or.inl ⟨other, u, ?_, repairs.mono mends.later untouched.filed.1⟩)
          rw [System.advance, System.pending_proceed, if_neg different]
          exact hu
        · exact Or.inr (Or.inr ⟨step, List.mem_append_left _ hs, given⟩)
  | outside trace after possible ih => cases possible

end Upkeep

end DocStore
