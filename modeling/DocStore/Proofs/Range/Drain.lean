/-
What a range has left.

A range is described by the entries that it is still going to give.  A pull gives the first of them
and leaves the others, and pulling all of it gives all of them; when there are none, the range
closes and stays closed.

* `Range.left`, `Range.Placed` — the entries that are left, and a range whose cursor is on one of
  its entries or past the end;
* `Range.pull_of_left_cons`, `Range.pull_of_left_nil` — **what a pull gives, and what is left
  after it;**
* `Range.drain_eq_left` — all pulls together give the entries that are left;
* `Range.drain_all` — **a range over everything gives all entries, in their order.**
-/

import DocStore.Proofs.Range.Cursors
import DocStore.Range
import Mathlib.Data.List.TakeWhile

set_option autoImplicit false

namespace DocStore

namespace Range

variable {range : Range}

/-- The entries that the range is still going to give. -/
def left (range : Range) : List Entry :=
  range.cursor.elim [] fun cursor => cursor.ahead.takeWhile fun e => range.reaches e.key

/-- The cursor, if there is one, is on one of its entries or past the end. -/
def Placed (range : Range) : Prop :=
  ∀ cursor, range.cursor = some cursor → cursor.Placed

/-- The range after a pull that has given an entry. -/
def next (range : Range) : Range :=
  { range with cursor := range.cursor.map Cursor.next }

theorem Placed.next (placed : range.Placed) : range.next.Placed := by
  intro cursor hc
  obtain ⟨before, hb, rfl⟩ := Option.map_eq_some_iff.1 hc
  exact (placed before hb).next

theorem placed_close (range : Range) : range.close.Placed :=
  fun _ hc => nomatch hc

/-! ### Pulling -/

/-- **A pull gives the first entry that is left, and leaves the others.** -/
theorem pull_of_left_cons (placed : range.Placed) {e : Entry} {rest : List Entry}
    (h : range.left = e :: rest) :
    range.pull = .entry e range.next ∧ range.next.left = rest := by
  obtain ⟨store, cursor, lower, upper, reverse⟩ := range
  cases cursor with
  | none => cases h
  | some cursor =>
      have on := Cursor.current?_eq_head? (placed cursor rfl)
      have after := Cursor.ahead_next (placed cursor rfl)
      simp only [left, Option.elim_some] at h
      -- the entries that are left are the first ones ahead, as far as the bound reaches
      cases ahead : cursor.ahead with
      | nil =>
          rw [ahead] at h
          cases h
      | cons f more =>
          rw [ahead] at on h after
          by_cases reached : (⟨store, some cursor, lower, upper, reverse⟩ : Range).reaches f.key
          · simp only [List.takeWhile_cons, if_pos reached] at h
            obtain ⟨rfl, rfl⟩ := List.cons.inj h
            refine ⟨?_, ?_⟩
            · simp only [pull, on, List.head?_cons, if_pos reached]
              rfl
            · simp only [left, next, Option.map_some, Option.elim_some, after, List.tail_cons]
              rfl
          · simp only [List.takeWhile_cons, if_neg reached] at h
            cases h

/-- **When nothing is left, a pull closes the range**, unless it is closed already. -/
theorem pull_of_left_nil (placed : range.Placed) (h : range.left = []) :
    range.pull = if range.isClosed then .nothing else .ended range.close := by
  obtain ⟨store, cursor, lower, upper, reverse⟩ := range
  cases cursor with
  | none => rfl
  | some cursor =>
      have on := Cursor.current?_eq_head? (placed cursor rfl)
      simp only [left, Option.elim_some] at h
      cases ahead : cursor.ahead with
      | nil =>
          rw [ahead] at on
          simp only [pull, on, List.head?_nil]
          rfl
      | cons f more =>
          rw [ahead] at on h
          have beyond : ¬ (⟨store, some cursor, lower, upper, reverse⟩ : Range).reaches f.key := by
            intro reached
            simp only [List.takeWhile_cons, if_pos reached] at h
            cases h
          simp only [pull, on, List.head?_cons, if_neg beyond]
          rfl

/-! ### Pulling all of it -/

theorem length_left_le (range : Range) : range.left.length ≤ range.size := by
  obtain ⟨store, cursor, lower, upper, reverse⟩ := range
  cases cursor with
  | none => exact Nat.le_refl 0
  | some cursor =>
      have ahead : cursor.ahead.length ≤ cursor.entries.length := by
        unfold Cursor.ahead
        split
        · exact Nat.zero_le _
        · split
          · rw [List.length_reverse, List.length_take]
            omega
          · rw [List.length_drop]
            omega
      exact Nat.le_trans (List.takeWhile_prefix _).length_le ahead

theorem drainUpTo_eq_left (placed : range.Placed) {fuel : Nat}
    (enough : range.left.length ≤ fuel) : drainUpTo fuel range = range.left := by
  induction fuel generalizing range with
  -- a pull costs one unit of fuel and takes one entry away
  | zero => rw [drainUpTo, List.length_eq_zero_iff.1 (Nat.le_zero.1 enough)]
  | succ fuel ih =>
      rw [drainUpTo]
      cases h : range.left with
      | nil =>
          rw [pull_of_left_nil placed h]
          cases range.isClosed <;> rfl
      | cons e rest =>
          obtain ⟨pulled, after⟩ := pull_of_left_cons placed h
          rw [h, List.length_cons] at enough
          rw [pulled]
          dsimp only
          rw [ih placed.next (by rw [after]; omega), after]

/-- All pulls together give the entries that are left. -/
theorem drain_eq_left (placed : range.Placed) : range.drain = range.left :=
  drainUpTo_eq_left placed range.length_left_le

/-! ### Opening -/

/-- A range is opened on one of its entries, or past the end. -/
theorem placed_onCursor (store : StoreId) (cursor : Cursor) (lower upper : Bound)
    (reverse : Bool) : (onCursor store cursor lower upper reverse).Placed := by
  intro opened ho
  simp only [onCursor] at ho
  obtain rfl := Option.some.inj ho
  split
  · exact Cursor.placed_seek _ _
  · exact Cursor.placed_rewind _

/-- **A range over everything gives all entries, in their order.** -/
theorem drain_all (store : StoreId) (entries : List Entry) :
    (onCursor store (.ofEntries entries false) .min .max false).drain = entries := by
  rw [drain_eq_left (placed_onCursor _ _ _ _ _)]
  have ahead := Cursor.ahead_rewind (.ofEntries entries false)
  simp only [left, onCursor, Bound.key?, Bool.false_eq_true, if_false, Option.elim_some, ahead]
  exact List.takeWhile_eq_self_iff.2 fun e _ => rfl

end Range

end DocStore
