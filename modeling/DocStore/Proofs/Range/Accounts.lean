/-
Who holds which cursor.

A range may have no cursor from the beginning, and it may lose its cursor in five ways: at its end,
when it is closed, when it is consumed, when consuming it stops half-way, and when it is dropped.
So those who hold cursors are written down here, each with what it has seen of its own end, and the
count of a store is compared with what is written down, not with the cursors inside the ranges.

* `Holding`, `Holding.store?`, `Holding.count` — what is held, the store on which it counts, and how
  many do;
* `Holding.Act`, `Holding.act` — what is done with something held;
* `Holding.Sound` — what is noted of a holding agrees with its cursor;
* `Holding.Carries`, `Balances` — holdings that count once or not at all, and a change of the count
  that goes with a change of what is held;
* `Balances.close`, `Balances.pull`, `Balances.consume` — **a range balances in whatever way it
  ends**;
* `IndexRange.nextBucket_leaves`, `IndexPull.balances_advance` — **a walk of an index balances,
  whose pulls are operations with calls of their own.**
-/

import DocStore.Proofs.Range.Counts

set_option autoImplicit false

namespace DocStore

/-! ### What is held -/

/-- The near bound of a range leaves it a possible first entry. -/
def Range.starts (range : Range) : Bool :=
  !startsPastEnd range.lower range.upper range.reverse

/-- What somebody holds that may have a cursor.  Of a range it is noted whether it is live: it was
opened with a possible first entry, and has neither reported its end nor been closed. -/
inductive Holding
  /-- A cursor of a store. -/
  | cursor (store : StoreId) (cursor : Cursor)
  /-- A range of documents. -/
  | range (range : Range) (live : Bool)
  /-- A walk of an index. -/
  | walk (range : IndexRange) (live : Bool)
  /-- A walk of an index that is being pulled. -/
  | pulling (task : IndexPull) (live : Bool)
  /-- An operation under way. -/
  | task (task : DatabaseTask)

/-- The store on which an operation has a cursor: that of the documents that a new index files. -/
def DatabaseTask.store? : DatabaseTask → Option StoreId
  | .table (.creating ⟨owner, .filing _ _⟩) => some owner.documents
  | .table (.creating ⟨owner, .releasing _⟩) => some owner.documents
  | _ => none

namespace Holding

/-- The store on which a holding counts, if it does. -/
def store? : Holding → Option StoreId
  | .cursor store _ => some store
  | .range r live => if live then some r.store else none
  | .walk w live => if live then some w.buckets.store else none
  | .pulling p live => if live then some p.range.buckets.store else none
  | .task t => t.store?

/-- How many holdings count on a store. -/
def count (held : List Holding) (id : StoreId) : Nat :=
  held.countP fun h => h.store? == some id

/-- What is held of an operation that has come to an end: the range that it has opened, if any. -/
def ofOutcome : DatabaseOutcome → List Holding
  | .query (.opened (.ok r)) => [.range r r.starts]
  | .query (.walked (.ok w)) => [.walk w w.buckets.starts]
  | _ => []

/-- What is held of an operation. -/
def ofTask : Progress DatabaseTask DatabaseOutcome → List Holding
  | .waiting t => [.task t]
  | .finished outcome => ofOutcome outcome

/-- What is held of a walk that is being pulled: without an item, it has reported its end. -/
def ofPull (live : Bool) : Progress IndexPull IndexPull.Result → List Holding
  | .waiting p => [.pulling p live]
  | .finished (item, w) => [.walk w (live && item.isSome)]

end Holding

/-- Whether a pull has reported the end of the range. -/
def Range.Answer.ends : Range.Answer → Bool
  | .result (.error .endOfRange) => true
  | .item none => true
  | _ => false

/-! ### What is done -/

/-- What is done with something held. -/
inductive Holding.Act
  /-- A cursor is moved. -/
  | turn (moved : Cursor → Cursor)
  /-- A range or a walk is pulled. -/
  | pull (way : Range.Way)
  /-- A range is closed. -/
  | close
  /-- A range is consumed, with items that the entries are made of. -/
  | consume (item : Entry → Except Error Unit)
  /-- It is dropped. -/
  | drop
  /-- An operation, or the pull of a walk, makes its call and goes on. -/
  | advance (fault : Option Error)

/-- The database after something is done with a holding, and what is held then.  What cannot be done
with it does nothing. -/
def Holding.act (db : Database) : Holding → Act → Database × List Holding
  | .cursor store c, .turn moved => (db, [.cursor store (moved c)])
  | .cursor store _, .drop => (db.putBackend (db.backend.releaseCursor store), [])
  | .range r live, .pull way =>
      let (answer, rest, db) := db.pullBy r way
      (db, [.range rest (live && !answer.ends)])
  | .range r _, .close =>
      let (rest, db) := db.close r
      (db, [.range rest false])
  | .range r _, .consume item => ((Database.consume item (r.size + 1) db r).2, [])
  | .range r _, .drop => ((db.close r).2, [])
  | .walk w live, .pull _ => (db, ofPull live w.pull)
  | .walk w _, .drop => ((db.close w.buckets).2, [])
  | .pulling p live, .advance fault =>
      let (reply, db) := db.perform (Task.call p) fault
      (db, ofPull live (Task.resume p reply))
  | .task t, .advance fault =>
      let (reply, db) := db.perform (Task.call t) fault
      (db, ofTask (Task.resume t reply))
  | held, _ => (db, [held])

/-! ### What is noted -/

/-- A range is noted as live exactly if it has a cursor, and its store is there. -/
structure Range.Noted (db : Database) (range : Range) (live : Bool) : Prop where
  placed : range.Placed
  live_iff : live = !range.isClosed
  inside : range.store < db.backend.stores.length

/-- A walk that is being pulled is noted as its range; while it gives its cursor back at the end, it
is still live. -/
def IndexPull.Noted (db : Database) (live : Bool) : IndexPull → Prop
  | ⟨w, .document _⟩ => w.buckets.Noted db live
  | ⟨w, .releasing⟩ => live = true ∧ w.buckets.Noted db false

/-- A range that is being opened has a possible first entry, and its store is there. -/
def RangeOpening.Sound (db : Database) (opening : RangeOpening) : Prop :=
  opening.store < db.backend.stores.length ∧
    Range.startsPastEnd opening.lower opening.upper opening.reverse = false

/-- The cursors that an operation opens are on stores that are there.  A walk is not pulled by an
operation of this kind. -/
def DatabaseTask.Sound (db : Database) : DatabaseTask → Prop
  | .table (.creating c) => c.table.documents < db.backend.stores.length
  | .query (.opening o) => o.Sound db
  | .query (.walking o) => o.opening.Sound db
  | .query (.pulling _) => False
  | _ => True

/-- What is noted of a holding agrees with its cursor, whose store is there. -/
def Holding.Sound (db : Database) : Holding → Prop
  | .cursor store _ => store < db.backend.stores.length
  | .range r live => r.Noted db live
  | .walk w live => w.buckets.Noted db live
  | .pulling p live => p.Noted db live
  | .task t => t.Sound db

section Stores

variable {db db' : Database} (more : db.backend.stores.length ≤ db'.backend.stores.length)

include more

theorem Range.Noted.mono {range : Range} {live : Bool} (h : range.Noted db live) :
    range.Noted db' live :=
  ⟨h.placed, h.live_iff, Nat.lt_of_lt_of_le h.inside more⟩

/-- As stores are never taken away, what was sound stays so. -/
theorem Holding.Sound.mono {held : Holding} (h : held.Sound db) : held.Sound db' := by
  cases held with
  | cursor store c => exact Nat.lt_of_lt_of_le h more
  | range r live => exact Range.Noted.mono more h
  | walk w live => exact Range.Noted.mono more h
  | pulling p live =>
      obtain ⟨w, stage⟩ := p
      cases stage with
      | document key => exact Range.Noted.mono more h
      | releasing => exact ⟨h.1, h.2.mono more⟩
  | task t =>
      cases t with
      | creating t => exact h
      | dropping t => exact h
      | table t =>
          cases t with
          | creating c => exact Nat.lt_of_lt_of_le h more
          | document t => exact h
          | dropping t => exact h
      | query t =>
          cases t with
          | opening o => exact ⟨Nat.lt_of_lt_of_le h.1 more, h.2⟩
          | walking o => exact ⟨Nat.lt_of_lt_of_le h.1 more, h.2⟩
          | pulling p => exact h
          | reading t => exact h
          | listing t => exact h
          | loading t => exact h
          | seeking t => exact h

end Stores

/-! ### Counting what is held -/

namespace Holding

theorem count_append (held more : List Holding) (id : StoreId) :
    count (held ++ more) id = count held id + count more id :=
  List.countP_append

/-- What is held is sound, and counts once on this store, or not at all if there is none. -/
structure Carries (db : Database) (store? : Option StoreId) (held : List Holding) : Prop where
  sound : ∀ h ∈ held, h.Sound db
  count : ∀ id, count held id = if store? = some id then 1 else 0

theorem Sound.carries {db : Database} (held : Holding) (h : held.Sound db) :
    Carries db held.store? [held] :=
  ⟨by simpa using h, fun id => by simp [Holding.count, List.countP_singleton]⟩

theorem carries_nil (db : Database) : Carries db none [] :=
  ⟨fun _ mem => absurd mem List.not_mem_nil, fun _ => rfl⟩

theorem Carries.mono {db db' : Database} {store? : Option StoreId} {held : List Holding}
    (more : db.backend.stores.length ≤ db'.backend.stores.length)
    (h : Carries db store? held) : Carries db' store? held :=
  ⟨fun x mem => (h.sound x mem).mono more, h.count⟩

end Holding

/-- Something that is held becomes something else, the counts of the stores change as what is held
does, and what is held then is sound. -/
structure Balances (db : Database) (held : List Holding) (db' : Database) (left : List Holding) :
    Prop where
  sound : ∀ h ∈ left, h.Sound db'
  length : db.backend.stores.length ≤ db'.backend.stores.length
  even : ∀ id, db'.cursors id + Holding.count held id = db.cursors id + Holding.count left id

namespace Balances

variable {db db' : Database} {held left : List Holding} {id : StoreId} {store? : Option StoreId}

/-- No store changes its count, and what is held counts as before. -/
theorem of_same (before : Holding.Carries db store? held) (after : Holding.Carries db store? left)
    (length : db.backend.stores.length ≤ db'.backend.stores.length)
    (same : ∀ id, db'.cursors id = db.cursors id) : Balances db held db' left :=
  ⟨(after.mono length).sound, length, fun id => by rw [same, before.count, after.count]⟩

/-- A call that is about no cursor is made by one who goes on to hold as much. -/
theorem of_call {call : Call} (fault : Option Error) (other : call.countsCursors = false)
    (before : Holding.Carries db store? held) (after : Holding.Carries db store? left) :
    Balances db held (db.perform call fault).2 left :=
  of_same before after (db.length_perform call fault) (db.cursors_perform fault other)

/-- A cursor is given back by one who then holds it no more. -/
theorem of_release (inside : id < db.backend.stores.length)
    (before : Holding.Carries db (some id) held) (after : Holding.Carries db none left) :
    Balances db held (db.putBackend (db.backend.releaseCursor id)) left := by
  have length := Nat.le_of_eq (db.backend.length_putStore id
    { db.backend.store id with openCursors := (db.backend.store id).openCursors - 1 }).symm
  refine ⟨(after.mono length).sound, length, fun other => ?_⟩
  rw [db.cursors_release inside, before.count, after.count]
  simp only [Option.some.injEq, reduceCtorEq, if_false]
  split <;> omega

/-- A cursor is opened by one who then holds it, unless the call fails. -/
theorem of_open (left : Reply → List Holding) (inside : id < db.backend.stores.length)
    (reverse : Bool) (fault : Option Error) (before : Holding.Carries db none held)
    (failed : ∀ e, Holding.Carries db none (left (.cursor (.error e))))
    (opened : ∀ cursor, Holding.Carries db (some id) (left (.cursor (.ok cursor)))) :
    Balances db held (db.perform (.iter id reverse) fault).2
      (left (db.perform (.iter id reverse) fault).1) := by
  rcases db.perform_cases (.iter id reverse) fault with ⟨e, -, he⟩ | hf
  · rw [he]
    exact of_same before (failed e) (Nat.le_refl _) fun _ => rfl
  · rw [hf]
    have length := Nat.le_of_eq (db.backend.length_putStore id
      { db.backend.store id with openCursors := (db.backend.store id).openCursors + 1 }).symm
    have after := opened (db.backend.openCursor id reverse).1
    refine ⟨(after.mono length).sound, length, fun other => ?_⟩
    have counted := db.cursors_open inside reverse other
    simp only [Database.forward]
    rw [counted, before.count, after.count]
    simp only [Option.some.injEq, reduceCtorEq, if_false]
    split <;> omega

end Balances

/-! ### Ranges -/

namespace Range

variable {db : Database} {range : Range} {live : Bool}

theorem isClosed_next (range : Range) : range.next.isClosed = range.isClosed := by
  obtain ⟨store, cursor, lower, upper, reverse⟩ := range
  cases cursor <;> rfl

/-- A range that has given an entry is noted as before. -/
theorem Noted.next (h : range.Noted db live) : range.next.Noted db live :=
  ⟨h.placed.next, by rw [isClosed_next]; exact h.live_iff, h.inside⟩

/-- A range that was closed is not live. -/
theorem Noted.close (h : range.Noted db live) : range.close.Noted db false :=
  ⟨placed_close range, rfl, h.inside⟩

theorem Noted.closed (h : range.Noted db live) : (db.close range).1.Noted db false := by
  unfold Database.close
  split
  · rename_i closed
    exact ⟨h.placed, by rw [closed]; rfl, h.inside⟩
  · exact h.close

/-- A pull gives nothing of a range that is not live, closes a live one that has nothing left, or
gives an entry that is left. -/
theorem Noted.pull_cases (h : range.Noted db live) :
    (live = false ∧ range.pull = .nothing) ∨ (live = true ∧ range.pull = .ended range.close) ∨
      ∃ e, live = true ∧ range.pull = .entry e range.next ∧ range.left = e :: range.next.left := by
  cases hl : range.left with
  | nil =>
      have pulled := pull_of_left_nil h.placed hl
      cases closed : range.isClosed with
      | true =>
          rw [closed, if_pos rfl] at pulled
          exact .inl ⟨by rw [h.live_iff, closed]; rfl, pulled⟩
      | false =>
          rw [closed, if_neg Bool.false_ne_true] at pulled
          exact .inr (.inl ⟨by rw [h.live_iff, closed]; rfl, pulled⟩)
  | cons e rest =>
      obtain ⟨pulled, after⟩ := pull_of_left_cons h.placed hl
      refine .inr (.inr ⟨e, ?_, pulled, by rw [after]⟩)
      cases live with
      | true => rfl
      | false =>
          -- a closed range has no entries left
          obtain ⟨store, cursor, lower, upper, reverse⟩ := range
          cases cursor with
          | none => cases hl
          | some cursor => exact absurd h.live_iff Bool.false_ne_true

end Range

namespace Balances

variable {db : Database} {held left : List Holding} {range : Range} {live : Bool}

/-- **A range that is closed gives back the cursor that it counts for, if any.** -/
theorem close (h : range.Noted db live)
    (before : Holding.Carries db (if live then some range.store else none) held)
    (after : Holding.Carries db none left) : Balances db held (db.close range).2 left := by
  cases closed : range.isClosed with
  | true =>
      have same : (db.close range).2 = db := by rw [Database.close, closed]; rfl
      obtain rfl : live = false := by rw [h.live_iff, closed]; rfl
      rw [same]
      exact of_same before after (Nat.le_refl _) fun _ => rfl
  | false =>
      have released : (db.close range).2
          = db.putBackend (db.backend.releaseCursor range.store) := by
        rw [Database.close, closed]
        rfl
      obtain rfl : live = true := by rw [h.live_iff, closed]; rfl
      rw [released]
      exact of_release h.inside before after

/-- **A range that is pulled is live until it reports its end**, and then it gives its cursor
back. -/
theorem pull (h : range.Noted db live) (way : Range.Way) :
    Balances db [.range range live] (db.pullBy range way).2.2
      [.range (db.pullBy range way).2.1 (live && !(db.pullBy range way).1.ends)] := by
  have before : Holding.Carries db (if live then some range.store else none) [.range range live] :=
    Holding.Sound.carries (.range range live) h
  rcases h.pull_cases with ⟨rfl, pulled⟩ | ⟨rfl, pulled⟩ | ⟨e, rfl, pulled, -⟩
  · have same : db.pullBy range way = (way.tells none, range, db) := by
      cases way <;> simp only [Database.pullBy, Database.next, Database.pull, pulled] <;> rfl
    rw [same]
    exact of_same before before (Nat.le_refl _) fun _ => rfl
  · have ended : db.pullBy range way = (way.tells none, range.close,
        db.putBackend (db.backend.releaseCursor range.store)) := by
      cases way <;> simp only [Database.pullBy, Database.next, Database.pull, pulled] <;> rfl
    have ends : (way.tells none).ends = true := by cases way <;> rfl
    rw [ended, ends]
    exact of_release h.inside before
      (Holding.Sound.carries (.range range.close false) h.close)
  · have given : db.pullBy range way = (way.tells (some e), range.next, db) := by
      cases way <;> simp only [Database.pullBy, Database.next, Database.pull, pulled] <;> rfl
    have goes : (way.tells (some e)).ends = false := by cases way <;> rfl
    rw [given, goes]
    exact of_same before (Holding.Sound.carries (.range range.next true) h.next)
      (Nat.le_refl _) fun _ => rfl

/-- **A range that is consumed gives its cursor back**, whatever comes of its entries. -/
theorem consume {β : Type} (h : range.Noted db live) (item : Entry → Except Error β) :
    Balances db [.range range live] (Database.consume item (range.size + 1) db range).2 [] := by
  rw [db.consume_eq item h.placed (Nat.lt_succ_of_le range.length_left_le)]
  exact close h (Holding.Sound.carries (.range range live) h) (Holding.carries_nil db)

end Balances

/-! ### Walks -/

/-- What the next bucket leaves of a range of buckets: the same range with a cursor, or at its end
without one. -/
def IndexRange.NextBucket.Leaves (db : Database) (live : Bool) (store : StoreId) :
    IndexRange.NextBucket → Prop
  | .documents _ _ after => after.Noted db live ∧ after.store = store
  | .undecodable after => after.Noted db live ∧ after.store = store
  | .ended after => live = true ∧ after.Noted db false ∧ after.store = store
  | .nothing => live = false

namespace IndexRange

variable {db : Database} {live : Bool} {range : IndexRange}

/-- **Only a range that is not live has nothing to look for a bucket in.** -/
theorem nextBucket_leaves (reverse : Bool) {fuel : Nat} {buckets : Range}
    (h : buckets.Noted db live) (enough : buckets.left.length ≤ fuel) :
    (nextBucket reverse fuel buckets).Leaves db live buckets.store := by
  -- by induction on the fuel, one unit of which is spent on each empty list
  induction fuel generalizing buckets with
  | zero =>
      rcases h.pull_cases with ⟨rfl, pulled⟩ | ⟨rfl, pulled⟩ | ⟨e, -, -, some⟩
      · rw [nextBucket, pulled]
        rfl
      · rw [nextBucket, pulled]
        exact ⟨rfl, h.close, rfl⟩
      · rw [some] at enough
        exact absurd enough (Nat.not_succ_le_zero _)
  | succ fuel ih =>
      rcases h.pull_cases with ⟨rfl, pulled⟩ | ⟨rfl, pulled⟩ | ⟨e, rfl, pulled, some⟩
      · rw [nextBucket, pulled]
        rfl
      · rw [nextBucket, pulled]
        exact ⟨rfl, h.close, rfl⟩
      · rw [nextBucket, pulled]
        dsimp only
        cases Bucket.decode? e.value with
        | none => exact ⟨h.next, rfl⟩
        | some keys =>
            dsimp only
            generalize (if reverse then keys.reverse else keys) = list
            cases list with
            | nil =>
                rw [some] at enough
                exact ih h.next (Nat.le_of_succ_le_succ enough)
            | cons first rest => exact ⟨h.next, rfl⟩

/-- **A pull of a walk that has to read a document, gives a failure or has to give its cursor back
leaves it live, and one that has reported the end does not.** -/
theorem carries_pull (h : range.buckets.Noted db live) :
    Holding.Carries db (if live then some range.buckets.store else none)
      (Holding.ofPull live range.pull) := by
  obtain ⟨buckets, pending, documents, reverse⟩ := range
  cases pending with
  | cons key rest =>
      exact Holding.Sound.carries
        (.pulling ⟨⟨buckets, rest, documents, reverse⟩, .document key⟩ live) h
  | nil =>
      have leaves := nextBucket_leaves reverse h buckets.length_left_le
      simp only [pull]
      revert leaves
      cases nextBucket reverse buckets.size buckets with
      | documents first rest after =>
          rintro ⟨noted, same⟩
          rw [← same]
          exact Holding.Sound.carries
            (.pulling ⟨⟨after, rest, documents, reverse⟩, .document first⟩ live) noted
      | undecodable after =>
          rintro ⟨noted, same⟩
          rw [← same]
          change Holding.Carries db _ [.walk ⟨after, [], documents, reverse⟩ (live && true)]
          rw [Bool.and_true]
          exact Holding.Sound.carries (.walk ⟨after, [], documents, reverse⟩ live) noted
      | ended after =>
          rintro ⟨rfl, noted, same⟩
          rw [← same]
          exact Holding.Sound.carries
            (.pulling ⟨⟨after, [], documents, reverse⟩, .releasing⟩ true) ⟨rfl, noted⟩
      | nothing =>
          rintro rfl
          exact Holding.Sound.carries (.walk ⟨buckets, [], documents, reverse⟩ false) h

end IndexRange

namespace IndexPull

variable {db : Database} {w : IndexRange} {live : Bool}

/-- Whatever comes back for a document, the walk is pulled on, still waits, or gives an item. -/
theorem carries_resume_document (h : w.buckets.Noted db live) (key : String) (reply : Reply) :
    Holding.Carries db (if live then some w.buckets.store else none)
      (Holding.ofPull live (Task.resume (⟨w, .document key⟩ : IndexPull) reply)) := by
  have gives : Holding.Carries db (if live then some w.buckets.store else none)
      [.walk w (live && true)] := by
    rw [Bool.and_true]
    exact Holding.Sound.carries (.walk w live) h
  have waits : Holding.Carries db (if live then some w.buckets.store else none)
      [.pulling ⟨w, .document key⟩ live] :=
    Holding.Sound.carries (.pulling ⟨w, .document key⟩ live) h
  cases reply with
  | document found =>
      cases found with
      | error e => exact gives
      | ok stored =>
          cases stored with
          | none => exact IndexRange.carries_pull h
          | some stored => exact gives
  | counter | done | cursor | indexes | index | table => exact waits

/-- **The pull of a walk balances with every call that it makes.** -/
theorem balances_advance {task : IndexPull} (h : task.Noted db live) (fault : Option Error) :
    Balances db [.pulling task live] (db.perform (Task.call task) fault).2
      (Holding.ofPull live (Task.resume task (db.perform (Task.call task) fault).1)) := by
  have before : Holding.Carries db (if live then some task.range.buckets.store else none)
      [.pulling task live] :=
    Holding.Sound.carries (.pulling task live) h
  obtain ⟨w, stage⟩ := task
  cases stage with
  | document key => exact .of_call fault rfl before (carries_resume_document h key _)
  | releasing =>
      obtain ⟨rfl, noted⟩ := h
      have released : db.perform (Task.call (⟨w, .releasing⟩ : IndexPull)) fault
          = (.done (.ok ()), db.putBackend (db.backend.releaseCursor w.buckets.store)) := by
        cases fault <;> rfl
      rw [released]
      exact .of_release noted.inside before
        (Holding.Sound.carries (.walk w (true && false)) noted)

end IndexPull

end DocStore
