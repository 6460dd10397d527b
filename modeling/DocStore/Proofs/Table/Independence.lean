/-
Documents do not depend on indexes.

A client works on the documents of a table and on ranges of them.  Two databases may have the same
documents and different indexes, with buckets that are stale, missing or no buckets at all, others
may do to the indexes whatever they like, and any call may fail that does not access the documents:
if the client asks for the same in both, it gets the same answers, and the documents stay the same.

The two runs are compared step by step.  Up to its write, an operation accesses the documents alone,
so that it makes the same calls in both and gets the same replies; from then on the two runs part,
but what the operation reports is settled and the documents are left alone.

* `Database.SameDocuments` — two databases that hold a table with the same documents;
* `Database.apart` — others that leave the documents alone, and faults that do not hit them;
* `Ends.same_documents` — an operation on a document has the same outcome in both, and leaves the
  same documents behind;
* `Ends.same_opening` — a range that is opened is the same in both;
* `ClientRequest`, `ClientAnswer`, `Client.Answers`, `Client.Visits` — what a client asks for, and
  what comes of it;
* `Client.visits_eq` — **the answers and the documents do not depend on the indexes.**
-/

import DocStore.Proofs.Documents.Disturbed
import DocStore.Table.Scan

set_option autoImplicit false

namespace DocStore

/-! ### The same documents -/

namespace Store

variable {store store' : Store}

/-- What is read from a store is in its slots. -/
theorem get?_congr (same : store.slots = store'.slots) (key : Bytes) :
    store.get? key = store'.get? key := by
  rw [get?, get?, same]

theorem next_congr (same : store.slots = store'.slots) (key : Bytes) :
    store.next key = store'.next key := by
  rw [next, next, same]

theorem snapshot_congr (same : store.slots = store'.slots) : store.snapshot = store'.snapshot := by
  rw [snapshot, snapshot, same]

/-- What a write leaves in the slots depends on nothing else. -/
theorem slots_applied_congr (same : store.slots = store'.slots) (write : SlotWrite) (key : Bytes) :
    (write.applied store key).slots = (write.applied store' key).slots := by
  unfold SlotWrite.applied
  cases write.value? with
  | some value => simp only [set, put, same]
  | none =>
      simp only [delete, same]
      cases store'.slots.find? key with
      | none => exact same
      | some slot =>
          dsimp only
          split
          · simp only [put, same]
          · exact same

end Store

namespace Database

/-- What is remembered of the documents of a table. -/
def documents (db : Database) (table : Table) : SortedMap Bytes Slot :=
  (db.backend.store table.documents).slots

/-- Two databases that hold a table with the same documents, whatever its indexes are. -/
structure SameDocuments (table : Table) (db db' : Database) : Prop where
  holds : db.Holds table
  holds' : db'.Holds table
  slots : db.documents table = db'.documents table

variable {db db' : Database} {table : Table}

/-- The documents after a conditional write that goes through. -/
theorem documents_putStore (holds : db.Holds table) (store : Store) :
    (db.putStore table.documents store).documents table = store.slots := by
  rw [documents, putStore, Backend.store_putStore, if_pos ⟨rfl, holds.stored⟩]

/-- **A conditional write to the documents has the same reply in both, and leaves the same
documents behind.** -/
theorem SameDocuments.perform_write (same : SameDocuments table db db') (write : SlotWrite)
    (key : Bytes) :
    (db.perform (write.call table.documents key) none).1
        = (db'.perform (write.call table.documents key) none).1 ∧
      (db.perform (write.call table.documents key) none).2.documents table
        = (db'.perform (write.call table.documents key) none).2.documents table := by
  have found := Store.get?_congr same.slots key
  by_cases accepts : write.Accepts ((db.backend.store table.documents).get? key)
  · rw [db.perform_write accepts, db'.perform_write (found ▸ accepts),
      documents_putStore same.holds, documents_putStore same.holds',
      Store.next_congr same.slots]
    exact ⟨rfl, Store.slots_applied_congr same.slots write key⟩
  · rw [db.perform_write_of_not accepts, db'.perform_write_of_not (found ▸ accepts)]
    exact ⟨rfl, same.slots⟩

/-! ### What does not concern the documents -/

/-- Others do what they like, as long as the table stays and they leave its documents alone, and any
call may fail that does not access the documents. -/
def apart (τ : Type) (table : Table) : Disturbance τ where
  others before after :=
    (before.Holds table → after.Holds table) ∧ after.documents table = before.documents table
  faults db call fault :=
    fault = none ∨
      ∀ site ∈ db.site? call, site.keyspace ≠ (db.backend.store table.documents).keyspace
  varies task now := now = task

instance (τ : Type) (table : Table) (db : Database) (call : Call) (fault : Option Error) :
    Decidable ((apart τ table).faults db call fault) :=
  inferInstanceAs (Decidable (fault = none ∨
    ∀ site ∈ db.site? call, site.keyspace ≠ (db.backend.store table.documents).keyspace))

/-- A call that accesses the documents, or no store at all, does not fail. -/
theorem perform_of_apart {τ : Type} {call : Call} {fault : Option Error}
    (possible : (apart τ table).faults db call fault)
    (accesses : ∀ site ∈ db.site? call,
      site.keyspace = (db.backend.store table.documents).keyspace) :
    db.perform call fault = db.perform call none := by
  rcases possible with rfl | elsewhere
  · rfl
  · have none : db.site? call = none :=
      Option.eq_none_iff_forall_not_mem.2 fun site hs => elsewhere site hs (accesses site hs)
    unfold perform
    rw [none]
    cases fault <;> rfl

theorem SameDocuments.others {τ : Type} {seen seen' : Database}
    (same : SameDocuments table db db') (meanwhile : (apart τ table).others db seen)
    (meanwhile' : (apart τ table).others db' seen') : SameDocuments table seen seen' :=
  ⟨meanwhile.1 same.holds, meanwhile'.1 same.holds',
    meanwhile.2.trans (same.slots.trans meanwhile'.2.symm)⟩

end Database

/-! ### Operations on documents -/

namespace DocumentTask

variable {db db' : Database} {table : Table} {key : String} {task : DocumentTask}

/-- An operation that has not written its document accesses that document, or nothing. -/
theorem Unwritten.call (h : task.Unwritten table key) :
    Task.call task = .get table.documents (Utf8.encode key) ∨
      (∃ write : SlotWrite, Task.call task = write.call table.documents (Utf8.encode key)) ∨
      Task.call task = .modify := by
  have writing : ∀ w : DocumentWrite, w.Unwritten table key →
      Task.call w = .get table.documents (Utf8.encode key) ∨
        ∃ write : SlotWrite, Task.call w = write.call table.documents (Utf8.encode key) := by
    rintro ⟨owner, name, data, expected, attempts, stage⟩ ⟨rfl, rfl, -, unsynced⟩
    cases stage with
    | reading => exact Or.inl rfl
    | writing old write => exact Or.inr ⟨write, rfl⟩
    | syncing counter sync => exact absurd rfl (unsynced counter sync)
  cases task with
  | reading t =>
      obtain ⟨read, shape⟩ := t
      obtain rfl : read = ⟨table, key⟩ := h
      exact Or.inl rfl
  | writing w => exact (writing w h).imp_right Or.inl
  | deleting d =>
      obtain ⟨owner, name, expected, attempts, stage⟩ := d
      obtain ⟨rfl, rfl, unsynced⟩ := h
      cases stage with
      | reading => exact Or.inl rfl
      | erasing old counter => exact Or.inr (Or.inl ⟨.erase counter, rfl⟩)
      | syncing sync => exact absurd rfl (unsynced sync)
  | updating u =>
      obtain ⟨owner, name, modifier, attempts, stage⟩ := u
      obtain ⟨rfl, rfl, unwritten⟩ := h
      cases stage with
      | reading => exact Or.inl rfl
      | modifying current => exact Or.inr (Or.inr rfl)
      | writing w => exact (writing w (unwritten w rfl)).imp_right Or.inl

/-- **An operation that has not written its document gets the same reply in both databases**, and
they have the same documents afterwards. -/
theorem Unwritten.same_reply (h : task.Unwritten table key)
    (same : db.SameDocuments table db') {fault fault' : Option Error}
    (possible : (Database.apart DocumentTask table).faults db (Task.call task) fault)
    (possible' : (Database.apart DocumentTask table).faults db' (Task.call task) fault') :
    (db.perform (Task.call task) fault).1 = (db'.perform (Task.call task) fault').1 ∧
      (db.perform (Task.call task) fault).2.SameDocuments table
        (db'.perform (Task.call task) fault').2 := by
  have holds := same.holds.perform fault task.call_isAccess
  have holds' := same.holds'.perform fault' task.call_isAccess
  have accesses : ∀ db : Database, ∀ site ∈ db.site? (Task.call task),
      site.keyspace = (db.backend.store table.documents).keyspace := by
    intro db site hs
    rcases h.call with get | ⟨write, written⟩ | modify
    · rw [get] at hs
      obtain rfl := Option.some.inj hs
      rfl
    · rw [written] at hs
      cases write <;> (obtain rfl := Option.some.inj hs; rfl)
    · rw [modify] at hs
      cases hs
  rw [Database.perform_of_apart possible (accesses db)] at holds ⊢
  rw [Database.perform_of_apart possible' (accesses db')] at holds' ⊢
  have replies : (db.perform (Task.call task) none).1 = (db'.perform (Task.call task) none).1 ∧
      (db.perform (Task.call task) none).2.documents table
        = (db'.perform (Task.call task) none).2.documents table := by
    rcases h.call with get | ⟨write, written⟩ | modify
    · rw [get, Database.perform_get, Database.perform_get, Store.get?_congr same.slots]
      exact ⟨rfl, same.slots⟩
    · rw [written]
      exact same.perform_write write _
    · rw [modify]
      exact ⟨rfl, same.slots⟩
  exact ⟨replies.1, holds, holds', replies.2⟩

end DocumentTask

namespace Ends

variable {db db' after after' : Database} {table : Table} {key : String}
  {progress : Progress DocumentTask DocumentOutcome} {steps steps' : List Footprint}
  {outcome outcome' : DocumentOutcome}

theorem holds (ends : Ends (Database.apart DocumentTask table) db progress steps outcome after)
    (held : db.Holds table) : after.Holds table := by
  induction ends with
  | finished db result => exact held
  | @waiting db seen _ task now fault _ _ meanwhile _ _ _ ih =>
      exact ih ((meanwhile.1 held).perform fault now.call_isAccess)

/-- Calls that leave the documents alone leave them as they are, among such others. -/
theorem documents_of_spares
    (ends : Ends (Database.apart DocumentTask table) db progress steps outcome after)
    (spares : ∀ f ∈ steps, f.Spares table.documents) :
    after.documents table = db.documents table := by
  induction ends with
  | finished db result => rfl
  | @waiting db seen _ task now fault _ _ meanwhile _ _ _ ih =>
      obtain ⟨first, later⟩ := List.forall_mem_cons.1 spares
      calc _ = _ := ih later
        _ = seen.documents table := congrArg Store.slots first
        _ = db.documents table := meanwhile.2

/-- Others that leave the documents alone are others. -/
theorem amid (ends : Ends (Database.apart DocumentTask table) db progress steps outcome after) :
    Ends (DocumentTask.amid table) db progress steps outcome after :=
  ends.mono (fun _ _ h => h.1) (fun _ _ _ _ => trivial) fun _ _ => Or.inl

/-- After the write, an operation leaves the documents as they are until it ends, and reports it. -/
theorem documents_of_wrote {report : DocumentOutcome}
    (ends : Ends (Database.apart DocumentTask table) db progress steps outcome after)
    (held : db.Holds table)
    (h : progress.Satisfies (DocumentTask.Wrote table report) fun a => a = report) :
    outcome = report ∧ after.documents table = db.documents table := by
  obtain ⟨spares, told⟩ := ends.amid.spares_of_wrote held h
  exact ⟨told, ends.documents_of_spares spares⟩

/-- **An operation on a document has the same outcome in both databases, and leaves the same
documents behind.** -/
theorem same_documents
    (ends : Ends (Database.apart DocumentTask table) db progress steps outcome after)
    (ends' : Ends (Database.apart DocumentTask table) db' progress steps' outcome' after')
    (same : db.SameDocuments table db')
    (h : progress.Satisfies (DocumentTask.Unwritten table key) fun _ => True) :
    outcome = outcome' ∧ after.SameDocuments table after' := by
  -- by induction on the calls of the first run, to each of which the second run makes the same one
  induction ends generalizing db' steps' with
  | finished db result =>
      cases ends'
      exact ⟨rfl, same⟩
  | @waiting db seen after task _ fault steps outcome meanwhile varied possible rest ih =>
      obtain rfl := varied
      cases ends' with
      | @waiting _ seen' _ _ _ fault' later _ meanwhile' varied' possible' rest' =>
          obtain rfl := varied'
          obtain ⟨reply, next⟩ :=
            DocumentTask.Unwritten.same_reply h (same.others meanwhile meanwhile') possible
              possible'
          rw [← reply] at rest'
          cases DocumentTask.leads_resume (meanwhile.1 same.holds) h fault with
          | idle _ goes => exact ih rest' next (goes.imp (fun _ h => h) fun _ _ => trivial)
          | writes _ goes =>
              -- the runs part here, but both report what the write has settled
              obtain ⟨report, -, goes⟩ := DocumentTask.reports_of_wrote goes
              obtain ⟨told, kept⟩ := rest.documents_of_wrote next.holds goes
              obtain ⟨told', kept'⟩ := rest'.documents_of_wrote next.holds' goes
              exact ⟨told.trans told'.symm, rest.holds next.holds, rest'.holds next.holds',
                kept.trans (next.slots.trans kept'.symm)⟩

end Ends

/-! ### Ranges -/

/-- A cursor is opened on the documents, or given back. -/
theorem Database.sameDocuments_putCursors {db db' : Database} {table : Table}
    (same : db.SameDocuments table db') (id id' : StoreId) (cursors cursors' : Int) :
    SameDocuments table
      (db.putStore id { db.backend.store id with openCursors := cursors })
      (db'.putStore id' { db'.backend.store id' with openCursors := cursors' }) := by
  refine ⟨⟨?_, same.holds.apart⟩, ⟨?_, same.holds'.apart⟩, ?_⟩
  · exact (Backend.length_putStore _ _ _).symm ▸ same.holds.stored
  · exact (Backend.length_putStore _ _ _).symm ▸ same.holds'.stored
  · calc _ = db.documents table := (slots_putStore_cursors _ _ _ _).1
      _ = db'.documents table := same.slots
      _ = _ := (slots_putStore_cursors _ _ _ _).1.symm

/-- **A range that is opened is the same in both databases**, which have the same documents
afterwards. -/
theorem Ends.same_opening {db db' after after' : Database} {table : Table} {lower upper : Bound}
    {reverse : Bool} {steps steps' : List Footprint} {result result' : Except Error Range}
    (ends : Ends (Database.apart RangeOpening table) db (table.between lower upper reverse) steps
      result after)
    (ends' : Ends (Database.apart RangeOpening table) db' (table.between lower upper reverse) steps'
      result' after')
    (same : db.SameDocuments table db') : result = result' ∧ after.SameDocuments table after' := by
  unfold Table.between RangeOpening.start at ends ends'
  by_cases past : Range.startsPastEnd lower upper reverse
  · rw [if_pos past] at ends ends'
    cases ends
    cases ends'
    exact ⟨rfl, same⟩
  · rw [if_neg past] at ends ends'
    -- opening the cursor is the only call, and it accesses the documents
    cases ends with
    | @waiting _ seen _ _ _ fault _ _ meanwhile varied possible rest =>
      cases ends' with
      | @waiting _ seen' _ _ _ fault' _ _ meanwhile' varied' possible' rest' =>
        obtain rfl := varied
        obtain rfl := varied'
        have own : ∀ db : Database, ∀ site ∈ db.site? (.iter table.documents reverse),
            site.keyspace = (db.backend.store table.documents).keyspace := by
          intro db site hs
          obtain rfl := Option.some.inj hs
          rfl
        have next := same.others meanwhile meanwhile'
        have opened := Database.perform_of_apart possible (own seen)
        have opened' := Database.perform_of_apart possible' (own seen')
        rw [opened] at rest
        rw [opened'] at rest'
        cases rest
        cases rest'
        refine ⟨?_, Database.sameDocuments_putCursors next _ _ _ _⟩
        rw [Store.snapshot_congr next.slots]

/-! ### Clients -/

/-- What a client asks of the documents of a table, and of the ranges that it holds. -/
inductive ClientRequest
  /-- Something of one document. -/
  | document (request : DocumentRequest)
  /-- How many documents there are. -/
  | count
  /-- A range. -/
  | between (lower upper : Bound) (reverse : Bool)
  /-- The next entry of a range. -/
  | next (range : Nat)
  /-- To close a range. -/
  | close (range : Nat)
  /-- Whether a range is closed. -/
  | isClosed (range : Nat)
  /-- All entries that a range has left, as documents of a shape. -/
  | rest (range : Nat) (shape : Shape)

/-- What a client is told. -/
inductive ClientAnswer
  | document (outcome : DocumentOutcome)
  | count (size : Nat)
  | opened (result : Except Error Range)
  | next (result : Except Error Entry)
  | closed
  | isClosed (closed : Bool)
  | rest (entries : List Entry) (decoded : Except Error (List (String × Versioned Value)))

/-- A database with the ranges that a client holds. -/
structure Client where
  /-- The database. -/
  db : Database
  /-- The ranges that were opened, the earliest first. -/
  ranges : List Range

namespace Client

/-- The client after a range was opened, or was not. -/
def hold (c : Client) (after : Database) : Except Error Range → Client
  | .ok range => ⟨after, c.ranges ++ [range]⟩
  | .error _ => ⟨after, c.ranges⟩

/-- The answer to a request, and the client after it, while others leave the documents alone. -/
inductive Answers (table : Table) (c : Client) : ClientRequest → ClientAnswer → Client → Prop
  | document {request : DocumentRequest} {steps : List Footprint} {outcome : DocumentOutcome}
      {after : Database}
      (ends : Ends (Database.apart DocumentTask table) c.db (request.start table) steps outcome
        after) :
      Answers table c (.document request) (.document outcome) { c with db := after }
  | count : Answers table c .count (.count (c.db.count table)) c
  | between {lower upper : Bound} {reverse : Bool} {steps : List Footprint}
      {result : Except Error Range} {after : Database}
      (ends : Ends (Database.apart RangeOpening table) c.db (table.between lower upper reverse)
        steps result after) :
      Answers table c (.between lower upper reverse) (.opened result) (c.hold after result)
  | next {n : Nat} {range : Range} (held : c.ranges[n]? = some range) :
      Answers table c (.next n) (.next (c.db.pull range).1)
        ⟨(c.db.pull range).2.2, c.ranges.set n (c.db.pull range).2.1⟩
  | close {n : Nat} {range : Range} (held : c.ranges[n]? = some range) :
      Answers table c (.close n) .closed
        ⟨(c.db.close range).2, c.ranges.set n (c.db.close range).1⟩
  | isClosed {n : Nat} {range : Range} (held : c.ranges[n]? = some range) :
      Answers table c (.isClosed n) (.isClosed range.isClosed) c
  | rest {n : Nat} {range : Range} {shape : Shape} (held : c.ranges[n]? = some range) :
      Answers table c (.rest n shape) (.rest range.drain (decodeEntries shape range.drain))
        ⟨(c.db.close range).2, c.ranges.set n (c.db.close range).1⟩

/-- The answers to requests that a client makes one after another, each with the documents after
it. -/
inductive Visits (table : Table) :
    Client → List ClientRequest → List (ClientAnswer × SortedMap Bytes Slot) → Prop
  | nil (c : Client) : Visits table c [] []
  | cons {c next : Client} {request : ClientRequest} {answer : ClientAnswer}
      {requests : List ClientRequest} {answers : List (ClientAnswer × SortedMap Bytes Slot)}
      (first : c.Answers table request answer next) (rest : Visits table next requests answers) :
      Visits table c (request :: requests) ((answer, next.db.documents table) :: answers)

/-- Two clients that hold the same ranges, in databases with the same documents. -/
structure Same (table : Table) (c c' : Client) : Prop where
  ranges : c.ranges = c'.ranges
  documents : c.db.SameDocuments table c'.db

variable {table : Table} {c c' next next' : Client} {request : ClientRequest}
  {answer answer' : ClientAnswer}

/-- Pulling a range and closing it give the same in both, and leave the documents as they are. -/
theorem Same.pull (same : c.Same table c') (range : Range) :
    (c.db.pull range).1 = (c'.db.pull range).1 ∧ (c.db.pull range).2.1 = (c'.db.pull range).2.1 ∧
      (c.db.pull range).2.2.SameDocuments table (c'.db.pull range).2.2 := by
  unfold Database.pull
  cases range.pull with
  | entry e rest => exact ⟨rfl, rfl, same.documents⟩
  | ended rest =>
      exact ⟨rfl, rfl, Database.sameDocuments_putCursors same.documents _ _ _ _⟩
  | nothing => exact ⟨rfl, rfl, same.documents⟩

theorem Same.close (same : c.Same table c') (range : Range) :
    (c.db.close range).1 = (c'.db.close range).1 ∧
      (c.db.close range).2.SameDocuments table (c'.db.close range).2 := by
  unfold Database.close
  by_cases closed : range.isClosed
  · rw [if_pos closed, if_pos closed]
    exact ⟨rfl, same.documents⟩
  · rw [if_neg closed, if_neg closed]
    exact ⟨rfl, Database.sameDocuments_putCursors same.documents _ _ _ _⟩

/-- The ranges are the same with a range in the place of another one. -/
theorem Same.set (same : c.Same table c') {after after' : Database} (n : Nat) {range range' : Range}
    (hr : range = range') (documents : after.SameDocuments table after') :
    Same table ⟨after, c.ranges.set n range⟩ ⟨after', c'.ranges.set n range'⟩ :=
  ⟨by rw [same.ranges, hr], documents⟩

/-- **A request has the same answer in both**, and the clients are the same after it. -/
theorem Answers.same (h : c.Answers table request answer next)
    (h' : c'.Answers table request answer' next') (same : c.Same table c') :
    answer = answer' ∧ next.Same table next' := by
  have held_eq : ∀ {n : Nat} {range range' : Range}, c.ranges[n]? = some range →
      c'.ranges[n]? = some range' → range = range' := by
    intro n range range' held held'
    rw [same.ranges] at held
    exact Option.some.inj (held.symm.trans held')
  cases h with
  | @document request steps outcome after ends =>
      cases h' with
      | document ends' =>
          have unwritten := (request.unwritten_start table).imp (fun _ h => h) fun _ _ => trivial
          obtain ⟨rfl, documents⟩ := ends.same_documents ends' same.documents unwritten
          exact ⟨rfl, same.ranges, documents⟩
  | count =>
      cases h'
      refine ⟨congrArg ClientAnswer.count ?_, same⟩
      rw [Database.count, Database.count, Store.size, Store.size,
        Store.snapshot_congr same.documents.slots]
  | @between lower upper reverse steps result after ends =>
      cases h' with
      | between ends' =>
          obtain ⟨rfl, documents⟩ := ends.same_opening ends' same.documents
          refine ⟨rfl, ?_⟩
          cases result with
          | ok range => exact ⟨congrArg (· ++ [range]) same.ranges, documents⟩
          | error e => exact ⟨same.ranges, documents⟩
  | @next n range held =>
      cases h' with
      | next held' =>
          obtain rfl := held_eq held held'
          obtain ⟨result, left, documents⟩ := same.pull range
          exact ⟨congrArg ClientAnswer.next result, same.set n left documents⟩
  | @close n range held =>
      cases h' with
      | close held' =>
          obtain rfl := held_eq held held'
          obtain ⟨left, documents⟩ := same.close range
          exact ⟨rfl, same.set n left documents⟩
  | isClosed held =>
      cases h' with
      | isClosed held' =>
          obtain rfl := held_eq held held'
          exact ⟨rfl, same⟩
  | @rest n range shape held =>
      cases h' with
      | rest held' =>
          obtain rfl := held_eq held held'
          obtain ⟨left, documents⟩ := same.close range
          exact ⟨rfl, same.set n left documents⟩

/-- **The answers and the documents do not depend on the indexes:** two clients that ask for the
same, in databases with the same documents, are told the same, and the documents are the same after
each answer. -/
theorem visits_eq {requests : List ClientRequest}
    {answers answers' : List (ClientAnswer × SortedMap Bytes Slot)} (same : c.Same table c')
    (visits : c.Visits table requests answers) (visits' : c'.Visits table requests answers') :
    answers = answers' := by
  induction visits generalizing c' answers' with
  | nil c =>
      cases visits'
      rfl
  | cons first rest ih =>
      cases visits' with
      | cons first' rest' =>
          obtain ⟨rfl, next⟩ := first.same first' same
          rw [next.documents.slots, ih next rest']

/-- The answer to a request whose calls meet these faults, if they may. -/
def answer? (table : Table) (faults : List (Option Error)) (c : Client) :
    ClientRequest → Option (ClientAnswer × Client)
  | .document request =>
      (Database.suffer? (Database.apart DocumentTask table) (faults.map (id, ·)) c.db
        (request.start table)).map fun (_, outcome, after) =>
          (.document outcome, { c with db := after })
  | .count => some (.count (c.db.count table), c)
  | .between lower upper reverse =>
      (Database.suffer? (Database.apart RangeOpening table) (faults.map (id, ·)) c.db
        (table.between lower upper reverse)).map fun (_, result, after) =>
          (.opened result, c.hold after result)
  | .next n => c.ranges[n]?.map fun range =>
      (.next (c.db.pull range).1, ⟨(c.db.pull range).2.2, c.ranges.set n (c.db.pull range).2.1⟩)
  | .close n => c.ranges[n]?.map fun range =>
      (.closed, ⟨(c.db.close range).2, c.ranges.set n (c.db.close range).1⟩)
  | .isClosed n => c.ranges[n]?.map fun range => (.isClosed range.isClosed, c)
  | .rest n shape => c.ranges[n]?.map fun range =>
      (.rest range.drain (decodeEntries shape range.drain),
        ⟨(c.db.close range).2, c.ranges.set n (c.db.close range).1⟩)

/-- The answers to requests, each with the faults that its calls meet. -/
def visit? (table : Table) : Client → List (ClientRequest × List (Option Error)) →
    Option (List (ClientAnswer × SortedMap Bytes Slot))
  | _, [] => some []
  | c, (request, faults) :: rest =>
      (c.answer? table faults request).bind fun (answer, next) =>
        (visit? table next rest).map ((answer, next.db.documents table) :: ·)

theorem Answers.of_answer? {faults : List (Option Error)}
    (h : c.answer? table faults request = some (answer, next)) :
    c.Answers table request answer next := by
  have others : ∀ {τ : Type}, ∀ move ∈ faults.map ((id : Database → Database), ·), ∀ db,
      (Database.apart τ table).others db (move.1 db) := by
    intro τ move hm db
    obtain ⟨fault, -, rfl⟩ := List.mem_map.1 hm
    exact ⟨fun held => held, rfl⟩
  cases request with
  | document request =>
      obtain ⟨⟨steps, outcome, after⟩, hs, he⟩ := Option.map_eq_some_iff.1 h
      cases he
      exact .document (.of_suffer? hs (fun _ => rfl) others)
  | count =>
      cases h
      exact .count
  | between lower upper reverse =>
      obtain ⟨⟨steps, result, after⟩, hs, he⟩ := Option.map_eq_some_iff.1 h
      cases he
      exact .between (.of_suffer? hs (fun _ => rfl) others)
  | next n =>
      obtain ⟨range, held, he⟩ := Option.map_eq_some_iff.1 h
      cases he
      exact .next held
  | close n =>
      obtain ⟨range, held, he⟩ := Option.map_eq_some_iff.1 h
      cases he
      exact .close held
  | isClosed n =>
      obtain ⟨range, held, he⟩ := Option.map_eq_some_iff.1 h
      cases he
      exact .isClosed held
  | rest n shape =>
      obtain ⟨range, held, he⟩ := Option.map_eq_some_iff.1 h
      cases he
      exact .rest held

theorem Visits.of_visit? {moves : List (ClientRequest × List (Option Error))}
    {answers : List (ClientAnswer × SortedMap Bytes Slot)}
    (h : c.visit? table moves = some answers) : c.Visits table (moves.map Prod.fst) answers := by
  induction moves generalizing c answers with
  | nil =>
      obtain rfl := Option.some.inj h
      exact .nil c
  | cons move rest ih =>
      obtain ⟨⟨answer, next⟩, first, h⟩ := Option.bind_eq_some_iff.1 h
      obtain ⟨later, hl, rfl⟩ := Option.map_eq_some_iff.1 h
      exact .cons (.of_answer? first) (ih hl)

/-- The same requests are made in a table without an index, and in one whose index has a bucket that
cannot be read when a document is filed, and a store that fails when it is taken out again. -/
theorem visits_eq_of_faults :
    ∃ c c' : Client, Same (Database.fresh .default "t").1 c c' ∧
      ∃ requests answers answers',
        c.Visits (Database.fresh .default "t").1 requests answers ∧
        c'.Visits (Database.fresh .default "t").1 requests answers' ∧ requests.length = 6 ∧
        answers = answers' := by
  have arranged := Database.arranged_fresh .default "t"
  have free : ((Database.fresh .default "t").2.indexesOf
      (Database.fresh .default "t").1.id).find? "i" = none := rfl
  have indexed := (arranged.registerIndex free ⟨[.key "n"]⟩).1.holds
  let requests : List ClientRequest :=
    [.document (.set "x" (.map [(.string "n", .bool true)])), .document (.set "x" .null),
      .document (.get "x" .json), .between .min .max false, .next 0, .count]
  let calm : List (Option Error) := List.replicate 6 none
  let down : List (Option Error) := [none, none, none, some (.storage "down"), none]
  let broken : Call := .create 1 (Json.bool true).indexKey [193]
  let plain : Client := ⟨(Database.fresh .default "t").2, []⟩
  let failing : Client :=
    ⟨(((Database.fresh .default "t").2.addIndex (Database.fresh .default "t").1 "i"
      ⟨[.key "n"]⟩).2.perform broken none).2, []⟩
  have same : Same (Database.fresh .default "t").1 plain failing :=
    ⟨rfl, arranged.holds, indexed.perform none trivial, rfl⟩
  have visited : (plain.visit? (Database.fresh .default "t").1
      (requests.map (·, calm))).isSome = true := by decide +kernel
  have visited' : (failing.visit? (Database.fresh .default "t").1
      (requests.zip [calm, down, calm, calm, calm, calm])).isSome = true := by decide +kernel
  obtain ⟨answers, found⟩ := Option.isSome_iff_exists.1 visited
  obtain ⟨answers', found'⟩ := Option.isSome_iff_exists.1 visited'
  have visits : plain.Visits (Database.fresh .default "t").1 requests answers := .of_visit? found
  have visits' : failing.Visits (Database.fresh .default "t").1 requests answers' :=
    .of_visit? found'
  exact ⟨plain, failing, same, requests, answers, answers', visits, visits', rfl,
    visits_eq same visits visits'⟩

end Client

end DocStore
