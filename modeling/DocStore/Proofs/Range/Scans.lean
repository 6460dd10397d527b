/-
What a range gives.

A range that is opened has the entries left that are live at that moment and that both bounds let
in.  The near bound decides where the cursor is put, the far bound where the range stops, and each
of them leaves out what it should because the entries come in order.

* `Bound.admitsFromBelow_of_lt`, `Bound.admitsFromAbove_of_lt` — what a bound lets in is closed
  towards its open side;
* `Store.scan` — the entries between two bounds, in a direction;
* `Range.left_onCursor`, `Table.between_completes` — a range that is opened has these left;
* `Range.Way`, `Database.pullBy`, `Range.walk` — pulls in either way, with anything done to the
  stores between them;
* `Range.walk_eq` — the answers are the entries that are left, one by one, and then the end;
* `Table.between_walk` — **the range between two bounds gives the entries of the snapshot that both
  let in, whatever is written meanwhile.**
-/

import DocStore.Proofs.Range.Drain
import DocStore.Proofs.Run.Completion
import DocStore.Table.Scan

set_option autoImplicit false

namespace DocStore

/-! ### Bounds and the order of the keys -/

namespace Bound

variable {bound : Bound} {k l : Bytes}

/-- A lower bound that lets a key in lets the higher ones in. -/
theorem admitsFromBelow_of_lt (less : k < l) (h : bound.admitsFromBelow k = true) :
    bound.admitsFromBelow l = true := by
  cases bound with
  | min => rfl
  | max => cases h
  | key lower => exact decide_eq_true (Std.le_trans (of_decide_eq_true h) (Std.le_of_lt less))

/-- An upper bound that lets a key in lets the lower ones in. -/
theorem admitsFromAbove_of_lt (less : k < l) (h : bound.admitsFromAbove l = true) :
    bound.admitsFromAbove k = true := by
  cases bound with
  | min => cases h
  | max => rfl
  | key upper => exact decide_eq_true (Std.le_trans (Std.le_of_lt less) (of_decide_eq_true h))

end Bound

/-! ### The entries between two bounds -/

namespace Store

variable {store : Store} {lower upper : Bound} {reverse : Bool}

/-- The entries whose keys both bounds let in, in a direction. -/
def scan (store : Store) (lower upper : Bound) (reverse : Bool) : List Entry :=
  Entry.inOrder reverse
    (store.snapshot.filter fun e => lower.admitsFromBelow e.key && upper.admitsFromAbove e.key)

theorem mem_scan {e : Entry} :
    e ∈ store.scan lower upper reverse ↔ store.get? e.key = some ⟨e.value, e.counter⟩ ∧
      lower.admitsFromBelow e.key = true ∧ upper.admitsFromAbove e.key = true := by
  rw [scan, Entry.mem_inOrder, List.mem_filter, mem_snapshot, Bool.and_eq_true]

theorem pairwise_scan (store : Store) (lower upper : Bound) (reverse : Bool) :
    (store.scan lower upper reverse).Pairwise (Entry.Before reverse) :=
  Entry.pairwise_inOrder reverse (store.snapshot_ascending.filter _)

/-- Backwards the same entries come in the opposite order. -/
theorem scan_true (store : Store) (lower upper : Bound) :
    store.scan lower upper true = (store.scan lower upper false).reverse := rfl

/-- Between the two ends there are all entries. -/
theorem length_scan_min_max (store : Store) (reverse : Bool) :
    (store.scan .min .max reverse).length = store.size := by
  rw [scan, Entry.length_inOrder]
  exact congrArg List.length (List.filter_eq_self.2 fun _ _ => rfl)

/-- There is nothing between two bounds the near one of which is the far end. -/
theorem scan_of_startsPastEnd (store : Store)
    (past : Range.startsPastEnd lower upper reverse = true) :
    store.scan lower upper reverse = [] := by
  refine List.eq_nil_iff_forall_not_mem.2 fun e he => ?_
  obtain ⟨-, below, above⟩ := mem_scan.1 he
  cases reverse with
  | false =>
      obtain rfl : lower = .max := eq_of_beq past
      cases below
  | true =>
      obtain rfl : upper = .min := eq_of_beq past
      cases above

/-- Between a key and itself there is at most its entry. -/
theorem scan_key (store : Store) (key : Bytes) (reverse : Bool) :
    store.scan (.key key) (.key key) reverse
      = ((store.get? key).map fun v => ⟨key, v.value, v.counter⟩).toList := by
  -- the entries come strictly in order, so that there are no two with the same key
  have single : ∀ e ∈ store.scan (.key key) (.key key) reverse, e.key = key := by
    intro e he
    obtain ⟨-, below, above⟩ := mem_scan.1 he
    exact Std.le_antisymm (of_decide_eq_true above) (of_decide_eq_true below)
  have ordered := store.pairwise_scan (.key key) (.key key) reverse
  have members := @mem_scan store (.key key) (.key key) reverse
  cases scanned : store.scan (.key key) (.key key) reverse with
  | nil =>
      cases found : store.get? key with
      | none => rfl
      | some v =>
          have there : (⟨key, v.value, v.counter⟩ : Entry)
              ∈ store.scan (.key key) (.key key) reverse :=
            members.2 ⟨found, decide_eq_true (Std.le_refl key), decide_eq_true (Std.le_refl key)⟩
          rw [scanned] at there
          cases there
  | cons e rest =>
      rw [scanned] at single ordered members
      have here := single e (.head _)
      obtain ⟨found, -⟩ := members.1 (.head _)
      cases rest with
      | nil =>
          rw [here] at found
          rw [found, ← here]
          rfl
      | cons f rest =>
          have before : Entry.Before reverse e f := (List.pairwise_cons.1 ordered).1 f (.head _)
          have there := single f (.tail _ (.head _))
          cases reverse with
          | false =>
              have less : e.key < f.key := before
              rw [here, there] at less
              exact absurd less Std.lt_irrefl
          | true =>
              have less : f.key < e.key := before
              rw [here, there] at less
              exact absurd less Std.lt_irrefl

end Store

/-! ### Opening -/

namespace Range

variable {entries : List Entry} {lower upper : Bound} {reverse : Bool}

/-- Whether the near bound of a direction lets a key in. -/
def enters (lower upper : Bound) (reverse : Bool) (key : Bytes) : Bool :=
  if reverse then upper.admitsFromAbove key else lower.admitsFromBelow key

/-- The cursor is put where the near bound begins to let keys in. -/
theorem ahead_start (ascending : entries.Pairwise fun e f => e.key < f.key)
    (inside : startsPastEnd lower upper reverse = false) :
    (match (if reverse then upper else lower).key? with
      | some key => (Cursor.ofEntries entries reverse).seek key
      | none => (Cursor.ofEntries entries reverse).rewind).ahead
      = (Entry.inOrder reverse entries).filter fun e => enters lower upper reverse e.key := by
  have everything : ∀ list : List Entry, list.filter (fun _ => true) = list :=
    fun list => List.filter_eq_self.2 fun _ _ => rfl
  cases reverse with
  | false =>
      cases lower with
      | min => exact (Cursor.ahead_rewind _).trans (everything _).symm
      | max => cases inside
      | key lower => exact Cursor.ahead_seek (.ofEntries entries false) lower ascending
  | true =>
      cases upper with
      | min => cases inside
      | max => exact (Cursor.ahead_rewind _).trans (everything _).symm
      | key upper => exact Cursor.ahead_seek (.ofEntries entries true) upper ascending

/-- **A range that is opened has the entries left that both bounds let in.** -/
theorem left_onCursor (id : StoreId) (store : Store)
    (inside : startsPastEnd lower upper reverse = false) :
    (onCursor id (.ofEntries store.snapshot reverse) lower upper reverse).left
      = store.scan lower upper reverse := by
  -- past the first entry that the far bound keeps out there is none that it lets in
  have closed : ((Entry.inOrder reverse store.snapshot).filter fun e =>
      enters lower upper reverse e.key).Pairwise fun e f =>
        (onCursor id (.ofEntries store.snapshot reverse) lower upper reverse).reaches f.key = true →
        (onCursor id (.ofEntries store.snapshot reverse) lower upper reverse).reaches e.key
          = true := by
    refine ((Entry.pairwise_inOrder reverse store.snapshot_ascending).filter _).imp ?_
    intro e f before
    cases reverse with
    | false => exact Bound.admitsFromAbove_of_lt before
    | true => exact Bound.admitsFromBelow_of_lt before
  have opened : (onCursor id (.ofEntries store.snapshot reverse) lower upper reverse).left
      = ((Entry.inOrder reverse store.snapshot).filter fun e =>
          enters lower upper reverse e.key).takeWhile fun e =>
        (onCursor id (.ofEntries store.snapshot reverse) lower upper reverse).reaches e.key := by
    rw [← ahead_start store.snapshot_ascending inside]
    rfl
  rw [opened, takeWhile_eq_filter closed, List.filter_filter, Entry.inOrder_filter, Store.scan]
  refine congrArg _ (List.filter_congr fun e _ => ?_)
  cases reverse with
  | false => exact Bool.and_comm _ _
  | true => rfl

end Range

/-- **A range is opened**, and has the entries left that both bounds let in. -/
theorem RangeOpening.completes (db : Database) (id : StoreId) (lower upper : Bound)
    (reverse : Bool) :
    ∃ range opened, Completes db (RangeOpening.start id lower upper reverse) (.ok range) opened ∧
      range.Placed ∧ range.left = (db.backend.store id).scan lower upper reverse ∧
      range.isClosed = Range.startsPastEnd lower upper reverse := by
  unfold RangeOpening.start
  split
  · rename_i past
    refine ⟨_, db, .finished _ _, (fun _ hc => nomatch hc), ?_, past.symm⟩
    rw [Store.scan_of_startsPastEnd _ past]
    rfl
  · rename_i inside
    refine ⟨_, _, .waiting (.finished _ _), Range.placed_onCursor _ _ _ _ _, ?_, ?_⟩
    · exact Range.left_onCursor id (db.backend.store id) (Bool.eq_false_iff.2 inside)
    · exact (Bool.eq_false_iff.2 inside).symm

/-! ### Pulling while others go on -/

namespace Range

/-- The ways to pull an entry. -/
inductive Way
  /-- As a result, which at the end is a failure. -/
  | tryNext
  /-- As an item of an iteration, of which there is none at the end. -/
  | iterate

/-- What a pull answers. -/
inductive Answer
  /-- The entry, or a failure. -/
  | result (r : Except Error Entry)
  /-- An item, if there is one. -/
  | item (i : Option (Except Error Entry))

/-- The answer when this entry is next, or none is left. -/
def Way.tells : Way → Option Entry → Answer
  | .tryNext, some e => .result (.ok e)
  | .tryNext, none => .result (.error .endOfRange)
  | .iterate, next => .item (next.map .ok)

end Range

/-- Pulls in one of the ways. -/
def Database.pullBy (db : Database) (range : Range) : Range.Way → Range.Answer × Range × Database
  | .tryNext => ((db.pull range).map .result id)
  | .iterate => ((db.next range).map .item id)

namespace Range

variable {range : Range}

/-- The answers of several pulls, and the range after them.  Every pull finds a database of its own,
whatever has been done to the stores since the one before. -/
def walk (range : Range) : List (Way × Database) → List Answer × Range
  | [] => ([], range)
  | (way, db) :: rest =>
      let (answer, after, _) := db.pullBy range way
      let (answers, last) := after.walk rest
      (answer :: answers, last)

/-- A pull answers with the first entry that is left, and leaves the others; after the last one the
range is closed. -/
theorem pullBy_spec (placed : range.Placed) (db : Database) (way : Way) :
    (db.pullBy range way).1 = way.tells range.left.head? ∧
      (db.pullBy range way).2.1.Placed ∧ (db.pullBy range way).2.1.left = range.left.tail ∧
      (db.pullBy range way).2.1.isClosed = (range.isClosed || range.left.isEmpty) := by
  cases h : range.left with
  | nil =>
      have pulled := pull_of_left_nil placed h
      cases closed : range.isClosed with
      | false =>
          rw [closed, if_neg Bool.false_ne_true] at pulled
          cases way <;> simp only [Database.pullBy, Database.next, Database.pull, pulled] <;>
            exact ⟨rfl, placed_close range, rfl, rfl⟩
      | true =>
          rw [closed, if_pos rfl] at pulled
          cases way <;> simp only [Database.pullBy, Database.next, Database.pull, pulled] <;>
            exact ⟨rfl, placed, h, closed⟩
  | cons e rest =>
      obtain ⟨pulled, after⟩ := pull_of_left_cons placed h
      have same : range.next.isClosed = (range.isClosed || false) := by
        obtain ⟨store, cursor, lower, upper, reverse⟩ := range
        cases cursor <;> rfl
      cases way <;> simp only [Database.pullBy, Database.next, Database.pull, pulled] <;>
        exact ⟨rfl, placed.next, after, same⟩

/-- **The answers are the entries that are left, one by one, and then the end**; after more pulls
than there were entries the range is closed. -/
theorem walk_eq (placed : range.Placed) (pulls : List (Way × Database)) :
    (range.walk pulls).1 = pulls.mapIdx (fun i p => p.1.tells range.left[i]?) ∧
      (range.walk pulls).2.isClosed
        = (range.isClosed || decide (range.left.length < pulls.length)) := by
  induction pulls generalizing range with
  | nil => exact ⟨rfl, (Bool.or_false _).symm⟩
  | cons p rest ih =>
      obtain ⟨answer, placed', left, closed⟩ := pullBy_spec placed p.2 p.1
      obtain ⟨answers, last⟩ := ih placed'
      refine ⟨?_, ?_⟩
      · rw [List.mapIdx_cons, ← List.head?_eq_getElem?, ← answer]
        refine congrArg _ (answers.trans ?_)
        simp only [left, List.getElem?_tail]
      · refine last.trans ?_
        rw [closed, left, Bool.or_assoc]
        refine congrArg _ ?_
        cases range.left with
        | nil => exact (decide_eq_true (Nat.succ_pos _)).symm
        | cons e more => exact decide_eq_decide.2 Nat.succ_lt_succ_iff.symm

end Range

/-! ### Ranges of a table -/

/-- **The range between two bounds gives the entries of the snapshot that both let in**, whatever is
written between the pulls: each once, with the value and the counter that it had when the range was
opened, in the order of the direction, and after them the end.  All documents are those between the
two ends, and there are as many as the table has then. -/
theorem Table.between_walk (db : Database) (table : Table) (lower upper : Bound)
    (reverse : Bool) :
    let entries := (db.backend.store table.documents).scan lower upper reverse
    (∃ range opened, Completes db (table.between lower upper reverse) (.ok range) opened ∧
      ∀ pulls,
        (range.walk pulls).1 = pulls.mapIdx (fun i p => p.1.tells entries[i]?) ∧
        (range.walk pulls).2.isClosed = (Range.startsPastEnd lower upper reverse
          || decide (entries.length < pulls.length))) ∧
    (∀ e, e ∈ entries ↔
      (db.backend.store table.documents).get? e.key = some ⟨e.value, e.counter⟩ ∧
        lower.admitsFromBelow e.key = true ∧ upper.admitsFromAbove e.key = true) ∧
    entries.Pairwise (Entry.Before reverse) ∧
    (db.backend.store table.documents).scan lower upper true
      = ((db.backend.store table.documents).scan lower upper false).reverse ∧
    table.all reverse = table.between .min .max reverse ∧
    ((db.backend.store table.documents).scan .min .max reverse).length = db.count table := by
  intro entries
  obtain ⟨range, opened, done, placed, left, closed⟩ :=
    RangeOpening.completes db table.documents lower upper reverse
  refine ⟨⟨range, opened, done, fun pulls => ?_⟩, fun e => Store.mem_scan,
    Store.pairwise_scan _ _ _ _, Store.scan_true _ _ _, rfl, Store.length_scan_min_max _ _⟩
  rw [← closed, show entries = range.left from left.symm]
  exact Range.walk_eq placed pulls

end DocStore
