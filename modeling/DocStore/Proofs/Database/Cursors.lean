/-
The cursors of a database, over any run.

A ledger is a database with all that is held of it: cursors, ranges, walks of indexes and operations
under way.  In one move something is done with one of them, an operation begins, or somebody writes
to the stores.  What is done with one holding balances, whatever the others are, so every store
counts at any time as many cursors as are held on it.

* `Ledger`, `Ledger.Move`, `Ledger.after` — a database with what is held, and what is done;
* `IndexCreation.balances_advance`, `DatabaseTask.balances_advance`, `DatabaseRequest.carries_start`
  — operations open cursors and give them back;
* `Holding.balances_act` — **one thing done with one holding changes the count as it changes what is
  held**;
* `Ledger.Sound.move`, `Ledger.Sound.after` — a move, and by induction a run, keeps the ledger
  sound;
* `Ledger.cursors_eq` — **after any moves a store counts as many cursors as are held on it.**
-/

import DocStore.Proofs.Range.Accounts

set_option autoImplicit false

namespace DocStore

/-! ### Ledgers -/

/-- A database, with all that is held of it. -/
structure Ledger where
  /-- The database. -/
  db : Database
  /-- What is held. -/
  held : List Holding

/-- The store on which a request opens a cursor, if it opens one. -/
def DatabaseRequest.store? : DatabaseRequest → Option StoreId
  | .table owner (.createIndex _ _) => some owner.documents
  | .query (.between owner _ _ _) => some owner.documents
  | .query (.filed index _ _ _) => some index.buckets
  | _ => none

/-- Whether a request can be made: the handles that it has are of stores that are there.  A walk is
pulled by whoever holds it. -/
def DatabaseRequest.possible (db : Database) : DatabaseRequest → Bool
  | .query (.pull _) => false
  | request => request.store?.all fun id => decide (id < db.backend.stores.length)

/-- What is done with a database. -/
inductive Ledger.Move
  /-- Something with what is held at a place. -/
  | act (place : Nat) (act : Holding.Act)
  /-- A cursor is opened on a store. -/
  | openCursor (store : StoreId) (reverse : Bool) (fault : Option Error)
  /-- An operation begins. -/
  | start (request : DatabaseRequest)
  /-- Any other call is made. -/
  | call (call : Call) (fault : Option Error)
  /-- A key is written. -/
  | set (store : StoreId) (key value : Bytes)
  /-- A key is deleted. -/
  | delete (store : StoreId) (key : Bytes)
  /-- A keyspace is opened. -/
  | openKeyspace (name : String)

namespace Ledger

/-- Nothing is held of a database without tables. -/
def initial (config : Config) : Ledger :=
  ⟨.empty config, []⟩

/-- What is held of a cursor that was asked for. -/
def ofCursor (store : StoreId) : Reply → List Holding
  | .cursor (.ok cursor) => [.cursor store cursor]
  | _ => []

/-- The ledger after a move.  One that is not possible does nothing. -/
def move (s : Ledger) : Move → Ledger
  | .act place act =>
      match s.held[place]? with
      | some held =>
          let (db, left) := held.act s.db act
          ⟨db, s.held.take place ++ left ++ s.held.drop (place + 1)⟩
      | none => s
  | .openCursor store reverse fault =>
      if store < s.db.backend.stores.length then
        let (reply, db) := s.db.perform (.iter store reverse) fault
        ⟨db, s.held ++ ofCursor store reply⟩
      else s
  | .start request =>
      if request.possible s.db then ⟨s.db, s.held ++ Holding.ofTask request.start⟩ else s
  | .call call fault =>
      if call.countsCursors then s else ⟨(s.db.perform call fault).2, s.held⟩
  | .set store key value =>
      ⟨s.db.putStore store ((s.db.backend.store store).set key value).2, s.held⟩
  | .delete store key =>
      ⟨s.db.putStore store ((s.db.backend.store store).delete key), s.held⟩
  | .openKeyspace name => ⟨s.db.putBackend (s.db.backend.openKeyspace name).2, s.held⟩

/-- The ledger after several moves. -/
def after (s : Ledger) (moves : List Move) : Ledger :=
  moves.foldl move s

end Ledger

/-! ### Operations -/

namespace Holding

variable {db : Database} {store? : Option StoreId}

/-- An operation that goes on, or comes to an end, is held as its task or its outcome is. -/
theorem carries_ofTask {progress : Progress DatabaseTask DatabaseOutcome}
    (h : progress.Satisfies (fun t => t.Sound db ∧ t.store? = store?)
      fun outcome => Carries db store? (ofOutcome outcome)) :
    Carries db store? (ofTask progress) := by
  cases progress with
  | waiting t =>
      obtain ⟨sound, rfl⟩ := h
      exact Sound.carries (.task t) sound
  | finished outcome => exact h

/-- An operation whose tasks and outcomes count nowhere. -/
theorem carries_ofTask_map {τ α : Type} (progress : Progress τ α) (wrap : τ → DatabaseTask)
    (convert : α → DatabaseOutcome) (task : ∀ t, (wrap t).Sound db ∧ (wrap t).store? = none)
    (outcome : ∀ a, ofOutcome (convert a) = []) :
    Carries db none (ofTask (progress.map wrap convert)) := by
  refine carries_ofTask (Progress.satisfies_map.2 (progress.satisfies_true.imp ?_ ?_))
  · exact fun t _ => task t
  · intro a _
    rw [outcome a]
    exact carries_nil db

/-- An operation on a table that makes no index counts nowhere. -/
theorem carries_ofTask_table {τ α : Type} (progress : Progress τ α) (wrap : τ → TableTask)
    (convert : α → TableOutcome)
    (task : ∀ t, (DatabaseTask.table (wrap t)).Sound db ∧
      (DatabaseTask.table (wrap t)).store? = none) :
    Carries db none (ofTask ((progress.map wrap convert).map .table .table)) := by
  have joined : (progress.map wrap convert).map DatabaseTask.table DatabaseOutcome.table
      = progress.map (fun t => .table (wrap t)) fun a => .table (convert a) := by
    cases progress <;> rfl
  rw [joined]
  exact carries_ofTask_map progress _ _ task fun _ => rfl

/-- A query that opens no range counts nowhere. -/
theorem carries_ofTask_query {τ α : Type} (progress : Progress τ α) (wrap : τ → QueryTask)
    (convert : α → QueryOutcome) (task : ∀ t, (DatabaseTask.query (wrap t)).Sound db)
    (outcome : ∀ a, ofOutcome (.query (convert a)) = []) :
    Carries db none (ofTask ((progress.map wrap convert).map .query .query)) := by
  have joined : (progress.map wrap convert).map DatabaseTask.query DatabaseOutcome.query
      = progress.map (fun t => .query (wrap t)) fun a => .query (convert a) := by
    cases progress <;> rfl
  rw [joined]
  exact carries_ofTask_map progress _ _ (fun t => ⟨task t, rfl⟩) outcome

end Holding

namespace RangeOpening

variable {db : Database} {o : RangeOpening}

/-- The range that is opened on a cursor. -/
def opened (o : RangeOpening) (cursor : Cursor) : Range :=
  .onCursor o.store cursor o.lower o.upper o.reverse

theorem starts_opened (h : o.Sound db) (cursor : Cursor) : (o.opened cursor).starts = true := by
  change (!Range.startsPastEnd o.lower o.upper o.reverse) = true
  rw [h.2]
  rfl

/-- A range that was opened on a cursor is live. -/
theorem noted_opened (h : o.Sound db) (cursor : Cursor) :
    (o.opened cursor).Noted db (o.opened cursor).starts := by
  rw [starts_opened h]
  exact ⟨Range.placed_onCursor _ _ _ _ _, rfl, h.1⟩

theorem carries_range (h : o.Sound db) (cursor : Cursor) :
    Holding.Carries db (some o.store) [.range (o.opened cursor) (o.opened cursor).starts] := by
  have held := Holding.Sound.carries
    (.range (o.opened cursor) (o.opened cursor).starts) (noted_opened h cursor)
  rw [Holding.store?, starts_opened h] at held
  rw [starts_opened h]
  exact held

theorem carries_walk (h : o.Sound db) (index : Index) (cursor : Cursor) :
    Holding.Carries db (some o.store)
      [.walk ⟨o.opened cursor, [], index.documents, o.reverse⟩ (o.opened cursor).starts] := by
  have held := Holding.Sound.carries
    (.walk ⟨o.opened cursor, [], index.documents, o.reverse⟩ (o.opened cursor).starts)
    (noted_opened h cursor)
  rw [Holding.store?, starts_opened h] at held
  rw [starts_opened h]
  exact held

/-- A range that was opened past the end is not live. -/
theorem starts_closed {store : StoreId} {lower upper : Bound} {reverse : Bool}
    (past : Range.startsPastEnd lower upper reverse = true) :
    (Range.closed store lower upper reverse).starts = false := by
  change (!Range.startsPastEnd lower upper reverse) = false
  rw [past]
  rfl

theorem noted_closed {store : StoreId} (inside : store < db.backend.stores.length)
    {lower upper : Bound} {reverse : Bool} :
    (Range.closed store lower upper reverse).Noted db false :=
  ⟨nofun, rfl, inside⟩

/-- **Opening a range has no cursor yet**, and past the end there is none to open. -/
theorem carries_start {store : StoreId} (inside : store < db.backend.stores.length)
    (lower upper : Bound) (reverse : Bool) :
    Holding.Carries db none (Holding.ofTask
      (((start store lower upper reverse).map .opening .opened).map DatabaseTask.query
        DatabaseOutcome.query)) := by
  unfold start
  split
  · rename_i past
    change Holding.Carries db none [.range (.closed store lower upper reverse)
      (Range.closed store lower upper reverse).starts]
    rw [starts_closed past]
    exact Holding.Sound.carries (.range (.closed store lower upper reverse) false)
      (noted_closed inside)
  · rename_i starts
    exact Holding.Sound.carries (.task (.query (.opening ⟨store, lower, upper, reverse⟩)))
      ⟨inside, Bool.eq_false_iff.2 starts⟩

end RangeOpening

namespace IndexOpening

variable {db : Database} {index : Index}

/-- Opening a walk of an index has no cursor yet, as the range of its buckets has none. -/
theorem carries_start (inside : index.buckets < db.backend.stores.length) (lower upper : Bound)
    (reverse : Bool) :
    Holding.Carries db none (Holding.ofTask
      (((opened index reverse (RangeOpening.start index.buckets lower upper reverse)).map .walking
        .walked).map DatabaseTask.query DatabaseOutcome.query)) := by
  unfold RangeOpening.start
  split
  · rename_i past
    change Holding.Carries db none
      [.walk ⟨.closed index.buckets lower upper reverse, [], index.documents, reverse⟩
        (Range.closed index.buckets lower upper reverse).starts]
    rw [RangeOpening.starts_closed past]
    exact Holding.Sound.carries
      (.walk ⟨.closed index.buckets lower upper reverse, [], index.documents, reverse⟩ false)
      (RangeOpening.noted_closed inside)
  · rename_i starts
    exact Holding.Sound.carries
      (.task (.query (.walking ⟨index, ⟨index.buckets, lower, upper, reverse⟩⟩)))
      ⟨inside, Bool.eq_false_iff.2 starts⟩

end IndexOpening

namespace IndexCreation

variable {db : Database} {owner : Table}

/-- An index that is to be registered has no cursor on its documents yet. -/
theorem carries_start (inside : owner.documents < db.backend.stores.length) (name path : String) :
    Holding.Carries db none (Holding.ofTask
      (((start owner name path).map .creating .created).map DatabaseTask.table
        DatabaseOutcome.table)) := by
  unfold start
  split
  · exact Holding.carries_nil db
  · split
    · exact Holding.carries_nil db
    · rename_i path _
      exact Holding.Sound.carries
        (.task (.table (.creating ⟨owner, .registering name path⟩))) inside

/-- While documents are filed, and while the cursor is given back, it counts on their store. -/
theorem carries_filed (inside : owner.documents < db.backend.stores.length) (index : Index)
    (progress : Progress SettleQueue Unit) :
    Holding.Carries db (some owner.documents) (Holding.ofTask
      (((filed owner index progress).map .creating .created).map DatabaseTask.table
        DatabaseOutcome.table)) := by
  cases progress with
  | waiting queue =>
      exact Holding.Sound.carries (.task (.table (.creating ⟨owner, .filing index queue⟩)))
        inside
  | finished a =>
      exact Holding.Sound.carries (.task (.table (.creating ⟨owner, .releasing index⟩)))
        inside

/-- **Creating an index opens one cursor, and gives it back when the documents are filed.** -/
theorem balances_advance {c : IndexCreation} (h : c.table.documents < db.backend.stores.length)
    (fault : Option Error) :
    Balances db [.task (.table (.creating c))] (db.perform (Task.call c) fault).2
      (Holding.ofTask (((Task.resume c (db.perform (Task.call c) fault).1).map .creating
        .created).map DatabaseTask.table DatabaseOutcome.table)) := by
  have before := @Holding.Sound.carries db (.task (.table (.creating c))) h
  obtain ⟨owner, stage⟩ := c
  cases stage with
  | registering name path =>
      refine .of_call fault rfl before ?_
      generalize (db.perform (Task.call (⟨owner, .registering name path⟩ : IndexCreation)) fault).1
        = reply
      cases reply with
      | index found =>
          cases found with
          | error e => exact Holding.carries_nil db
          | ok index =>
              exact Holding.Sound.carries
                (.task (.table (.creating ⟨owner, .opening index⟩))) h
      | document | counter | done | cursor | indexes | table => exact before
  | opening index =>
      exact .of_open (fun reply => Holding.ofTask
          (((Task.resume (⟨owner, .opening index⟩ : IndexCreation) reply).map .creating
            .created).map DatabaseTask.table DatabaseOutcome.table))
        h false fault before (fun e => Holding.carries_nil db)
        fun cursor => carries_filed h index _
  | filing index queue =>
      exact .of_call fault queue.current.countsCursors_call before (carries_filed h index _)
  | releasing index =>
      have released : db.perform (Task.call (⟨owner, .releasing index⟩ : IndexCreation)) fault
          = (.done (.ok ()), db.putBackend (db.backend.releaseCursor owner.documents)) := by
        cases fault <;> rfl
      rw [released]
      exact .of_release h before (Holding.carries_nil db)

end IndexCreation

namespace DatabaseTask

variable {db : Database}

/-- **An operation balances with every call that it makes.** -/
theorem balances_advance {t : DatabaseTask} (h : t.Sound db) (fault : Option Error) :
    Balances db [.task t] (db.perform (Task.call t) fault).2
      (Holding.ofTask (Task.resume t (db.perform (Task.call t) fault).1)) := by
  have before := Holding.Sound.carries (.task t) h
  cases t with
  | creating t =>
      exact .of_call fault rfl before
        (Holding.carries_ofTask_map _ .creating .created (fun _ => ⟨trivial, rfl⟩) fun _ => rfl)
  | dropping t =>
      exact .of_call fault t.countsCursors_call before
        (Holding.carries_ofTask_map _ .dropping .dropped (fun _ => ⟨trivial, rfl⟩) fun _ => rfl)
  | table t =>
      cases t with
      | creating c => exact c.balances_advance h fault
      | document t =>
          exact .of_call fault t.countsCursors_call before
            (Holding.carries_ofTask_table _ .document .document fun _ => ⟨trivial, rfl⟩)
      | dropping t =>
          exact .of_call fault t.countsCursors_call before
            (Holding.carries_ofTask_table _ .dropping .dropped fun _ => ⟨trivial, rfl⟩)
  | query t =>
      cases t with
      | opening o =>
          exact .of_open (fun reply => Holding.ofTask
              (Task.resume (DatabaseTask.query (.opening o)) reply))
            h.1 o.reverse fault before (fun e => Holding.carries_nil db) (o.carries_range h)
      | walking o =>
          exact .of_open (fun reply => Holding.ofTask
              (Task.resume (DatabaseTask.query (.walking o)) reply))
            h.1 o.opening.reverse fault before (fun e => Holding.carries_nil db)
            (o.opening.carries_walk h o.index)
      | pulling p => exact h.elim
      | reading t =>
          exact .of_call fault rfl before
            (Holding.carries_ofTask_query _ .reading .read (fun _ => trivial) fun _ => rfl)
      | listing t =>
          exact .of_call fault rfl before
            (Holding.carries_ofTask_query _ .listing .listed (fun _ => trivial) fun _ => rfl)
      | loading t =>
          exact .of_call fault t.countsCursors_call before
            (Holding.carries_ofTask_query _ .loading .loaded (fun _ => trivial) fun _ => rfl)
      | seeking t =>
          exact .of_call fault t.countsCursors_call before
            (Holding.carries_ofTask_query _ .seeking .sought (fun _ => trivial) fun _ => rfl)

end DatabaseTask

namespace DatabaseRequest

variable {db : Database}

/-- **An operation that begins has no cursor yet**, and the range that it opens past the end has
none either. -/
theorem carries_start {request : DatabaseRequest} (h : request.possible db = true) :
    Holding.Carries db none (Holding.ofTask request.start) := by
  cases request with
  | createTable name =>
      exact Holding.carries_ofTask_map (DocStore.createTable name) .creating .created
        (fun _ => ⟨trivial, rfl⟩) fun _ => rfl
  | dropTable name =>
      exact Holding.carries_ofTask_map (DocStore.dropTable name) .dropping .dropped
        (fun _ => ⟨trivial, rfl⟩) fun _ => rfl
  | table owner request =>
      cases request with
      | document request =>
          exact Holding.carries_ofTask_table (request.start owner) .document .document
            fun _ => ⟨trivial, rfl⟩
      | createIndex name path =>
          exact IndexCreation.carries_start (of_decide_eq_true h) name path
      | dropIndex name =>
          exact Holding.carries_ofTask_table (owner.dropIndex name) .dropping .dropped
            fun _ => ⟨trivial, rfl⟩
  | query asked =>
      cases asked with
      | getRaw owner key =>
          exact Holding.carries_ofTask_query (owner.getRaw key) .reading .read (fun _ => trivial)
            fun _ => rfl
      | bucket index indexKey =>
          exact Holding.carries_ofTask_query (index.bucket indexKey) .listing .listed
            (fun _ => trivial) fun _ => rfl
      | keys index value =>
          exact Holding.carries_ofTask_query (index.keys value) .listing .listed (fun _ => trivial)
            fun _ => rfl
      | getAll index value =>
          exact Holding.carries_ofTask_query (index.getAll value) .loading .loaded
            (fun _ => trivial) fun _ => rfl
      | one index value shape =>
          exact Holding.carries_ofTask_query (index.one value shape) .seeking .sought
            (fun _ => trivial) fun _ => rfl
      | between owner lower upper reverse =>
          exact RangeOpening.carries_start (of_decide_eq_true h) lower upper reverse
      | filed index lower upper reverse =>
          exact IndexOpening.carries_start (of_decide_eq_true h) lower upper reverse
      | pull range => cases h

end DatabaseRequest

/-! ### All that is done -/

/-- **One thing done with one holding changes the count as it changes what is held.** -/
theorem Holding.balances_act {db : Database} {held : Holding} (h : held.Sound db) (act : Act) :
    Balances db [held] (held.act db act).1 (held.act db act).2 := by
  have before := Holding.Sound.carries held h
  have nothing : Balances db [held] db [held] :=
    .of_same before before (Nat.le_refl _) fun _ => rfl
  cases held with
  | cursor store c =>
      cases act with
      | turn moved =>
          exact .of_same before (Sound.carries (.cursor store (moved c)) h)
            (Nat.le_refl _) fun _ => rfl
      | drop => exact .of_release h before (carries_nil db)
      | pull | close | consume | advance => exact nothing
  | range r live =>
      cases act with
      | pull way => exact .pull h way
      | close =>
          exact .close h before (Sound.carries (.range (db.close r).1 false) h.closed)
      | consume item => exact .consume h item
      | drop => exact .close h before (carries_nil db)
      | turn | advance => exact nothing
  | walk w live =>
      cases act with
      | pull way =>
          exact .of_same before (IndexRange.carries_pull h) (Nat.le_refl _) fun _ => rfl
      | drop => exact .close h before (carries_nil db)
      | turn | close | consume | advance => exact nothing
  | pulling p live =>
      cases act with
      | advance fault => exact IndexPull.balances_advance h fault
      | turn | pull | close | consume | drop => exact nothing
  | task t =>
      cases act with
      | advance fault => exact t.balances_advance h fault
      | turn | pull | close | consume | drop => exact nothing

namespace Ledger

/-- What is held is sound, and every store counts as many cursors as are held on it. -/
structure Sound (s : Ledger) : Prop where
  held : ∀ h ∈ s.held, h.Sound s.db
  cursors : ∀ id, s.db.cursors id = Holding.count s.held id

theorem sound_initial (config : Config) : (initial config).Sound :=
  ⟨fun _ mem => absurd mem List.not_mem_nil, fun id => by
    simp [initial, Database.cursors, Database.empty, Backend.empty, Backend.store, Holding.count,
      Store.empty]⟩

/-- What somebody does with some of what is held leaves the ledger sound. -/
theorem Sound.replace {db db' : Database} {first held left last : List Holding}
    (h : Sound ⟨db, first ++ held ++ last⟩) (balances : Balances db held db' left) :
    Sound ⟨db', first ++ left ++ last⟩ := by
  refine ⟨fun x mem => ?_, fun id => ?_⟩
  · rw [List.mem_append, List.mem_append] at mem
    rcases mem with (mem | mem) | mem
    · exact (h.held x (by simp [mem])).mono balances.length
    · exact balances.sound x mem
    · exact (h.held x (by simp [mem])).mono balances.length
  · have counted := h.cursors id
    have even := balances.even id
    simp only [Holding.count_append] at counted ⊢
    omega

/-- What is new in the ledger leaves it sound. -/
theorem Sound.add {db db' : Database} {held left : List Holding} (h : Sound ⟨db, held⟩)
    (balances : Balances db [] db' left) : Sound ⟨db', held ++ left⟩ := by
  have same : Sound ⟨db, held ++ [] ++ []⟩ := by simpa using h
  simpa using same.replace balances

/-- What changes no count leaves the ledger sound. -/
theorem Sound.elsewhere {db db' : Database} {held : List Holding} (h : Sound ⟨db, held⟩)
    (length : db.backend.stores.length ≤ db'.backend.stores.length)
    (same : ∀ id, db'.cursors id = db.cursors id) : Sound ⟨db', held⟩ := by
  have nothing := Holding.carries_nil db
  simpa using h.add (.of_same nothing nothing length same)

/-- **Every move leaves the ledger sound.** -/
theorem Sound.move {s : Ledger} (h : s.Sound) (move : Move) : (s.move move).Sound := by
  obtain ⟨db, held⟩ := s
  cases move with
  | act place act =>
      cases found : held[place]? with
      | none =>
          simp only [Ledger.move, found]
          exact h
      | some x =>
          simp only [Ledger.move, found]
          obtain ⟨inside, rfl⟩ := List.getElem?_eq_some_iff.1 found
          have split : held = held.take place ++ [held[place]] ++ held.drop (place + 1) := by
            rw [List.append_assoc, List.singleton_append, List.getElem_cons_drop,
              List.take_append_drop]
          have sound := h.held _ (List.getElem_mem inside)
          rw [split] at h
          exact h.replace (Holding.balances_act sound act)
  | openCursor store reverse fault =>
      simp only [Ledger.move]
      split
      · rename_i inside
        exact h.add (.of_open _ inside reverse fault (Holding.carries_nil db)
          (fun e => Holding.carries_nil db)
          fun cursor => Holding.Sound.carries (.cursor store cursor) inside)
      · exact h
  | start request =>
      simp only [Ledger.move]
      split
      · rename_i possible
        exact h.add (.of_same (Holding.carries_nil db) (DatabaseRequest.carries_start possible)
          (Nat.le_refl _) fun _ => rfl)
      · exact h
  | call call fault =>
      simp only [Ledger.move]
      split
      · exact h
      · rename_i other
        exact h.elsewhere (db.length_perform call fault)
          (db.cursors_perform fault (Bool.eq_false_iff.2 other))
  | set store key value =>
      exact h.elsewhere (Nat.le_of_eq (db.backend.length_putStore _ _).symm)
        (db.cursors_putStore rfl)
  | delete store key =>
      exact h.elsewhere (Nat.le_of_eq (db.backend.length_putStore _ _).symm)
        (db.cursors_putStore (Store.openCursors_delete _ key))
  | openKeyspace name =>
      exact h.elsewhere (db.backend.length_openKeyspace name) (db.cursors_openKeyspace name)

/-- After any moves the ledger is sound, by induction on them. -/
theorem Sound.after {s : Ledger} (h : s.Sound) (moves : List Move) : (s.after moves).Sound := by
  induction moves generalizing s with
  | nil => exact h
  | cons move moves ih => exact ih (h.move move)

/-- **Every store counts as many cursors as are held on it**: those that were not dropped yet, and
one for each range that was opened with a possible start and has neither reported its end nor been
closed, consumed or dropped.  So the count is never below zero, and it is zero as soon as nothing is
held that counts. -/
theorem cursors_eq (config : Config) (moves : List Move) (id : StoreId) :
    ((initial config).after moves).db.cursors id
        = Holding.count ((initial config).after moves).held id ∧
      0 ≤ ((initial config).after moves).db.cursors id ∧
      ((∀ h ∈ ((initial config).after moves).held, h.store? ≠ some id) →
        ((initial config).after moves).db.cursors id = 0) := by
  have counted := ((sound_initial config).after moves).cursors id
  refine ⟨counted, by rw [counted]; exact Int.natCast_nonneg _, fun none => ?_⟩
  have zero : Holding.count ((initial config).after moves).held id = 0 :=
    List.countP_eq_zero.2 fun h mem => by simpa using none h mem
  rw [counted, zero]
  rfl

/-- Of a cursor, a range that was consumed up to a failure and one that was pulled, two are
counted. -/
example : ((initial .default).after [.start (.createTable "t"), .act 0 (.advance none),
      .set 0 [1] [0xC0], .openCursor 0 false none,
      .start (.query (.between ⟨0, "t", 0, .unbounded⟩ .min .max false)), .act 1 (.advance none),
      .start (.query (.between ⟨0, "t", 0, .unbounded⟩ .min .max true)), .act 2 (.advance none),
      .act 1 (.consume fun _ => .error .decode), .act 1 (.pull .iterate)]).db.cursors 0 = 2 := by
  decide +kernel

end Ledger

end DocStore
