/-
What a cursor has ahead of it.

A cursor is a position in a list, but whoever moves it wants to know which entries are still to
come.  This module describes a cursor by the list of these, and each move by what it does to that
list; the two directions differ only in the order of the entries.

* `Entry.inOrder`, `Entry.Before` — entries in a direction, and which of two comes first;
* `Cursor.Placed` — a cursor that is on one of its entries, or past the end;
* `Cursor.ahead` — the entries from the position on;
* `Cursor.current?_eq_head?`, `Cursor.ahead_next` — the entry at the position is the first of them,
  and going on drops it;
* `Cursor.ahead_rewind`, `Cursor.ahead_seek` — **after rewinding all entries are ahead, and after
  seeking a key those that the direction has from this key on.**
-/

import DocStore.Cursor
import Mathlib.Data.List.Basic
import Mathlib.Order.Basic

set_option autoImplicit false

namespace DocStore

/-! ### Lists in an order -/

section InOrder

variable {α : Type} {l : List α} {p : α → Bool}

/-- Where a condition holds of all elements before one of which it holds, those that satisfy it are
the first ones. -/
theorem takeWhile_eq_filter (closed : l.Pairwise fun a b => p b = true → p a = true) :
    l.takeWhile p = l.filter p := by
  induction l with
  | nil => rfl
  | cons a l ih =>
      obtain ⟨first, rest⟩ := List.pairwise_cons.1 closed
      by_cases ha : p a = true
      · rw [List.takeWhile_cons_of_pos ha, List.filter_cons_of_pos ha, ih rest]
      · -- none of the later elements satisfies it either
        have none : ∀ b ∈ l, ¬ p b = true := fun b hb h => ha (first b hb h)
        rw [List.takeWhile_cons_of_neg ha, List.filter_cons_of_neg ha,
          List.filter_eq_nil_iff.2 none]

/-- The others are the last ones. -/
theorem drop_length_takeWhile (closed : l.Pairwise fun a b => p b = true → p a = true) :
    l.drop (l.takeWhile p).length = l.filter fun a => !p a := by
  induction l with
  | nil => rfl
  | cons a l ih =>
      obtain ⟨first, rest⟩ := List.pairwise_cons.1 closed
      by_cases ha : p a = true
      · rw [List.takeWhile_cons_of_pos ha, List.length_cons, List.drop_succ_cons, ih rest,
          List.filter_cons_of_neg (by simp [ha])]
      · have all : ∀ b ∈ a :: l, (!p b) = true := by
          intro b hb
          rcases List.mem_cons.1 hb with rfl | hb
          · simp [ha]
          · simpa using fun h => ha (first b hb h)
        rw [List.takeWhile_cons_of_neg ha, List.length_nil, List.drop_zero,
          List.filter_eq_self.2 all]

theorem take_length_takeWhile : l.take (l.takeWhile p).length = l.takeWhile p := by
  induction l with
  | nil => rfl
  | cons a l ih =>
      by_cases ha : p a = true
      · rw [List.takeWhile_cons_of_pos ha, List.length_cons, List.take_succ_cons, ih]
      · rw [List.takeWhile_cons_of_neg ha, List.length_nil, List.take_zero]

end InOrder

/-! ### Directions -/

namespace Entry

/-- Entries in a direction. -/
def inOrder (reverse : Bool) (entries : List Entry) : List Entry :=
  if reverse then entries.reverse else entries

/-- The first entry comes before the second one. -/
def Before (reverse : Bool) (e f : Entry) : Prop :=
  if reverse then f.key < e.key else e.key < f.key

/-- The entry is at a key, or the direction has it beyond that key. -/
def atOrBeyond (reverse : Bool) (key : Bytes) (e : Entry) : Bool :=
  if reverse then decide (e.key ≤ key) else decide (key ≤ e.key)

theorem inOrder_filter (reverse : Bool) (entries : List Entry) (p : Entry → Bool) :
    (inOrder reverse entries).filter p = inOrder reverse (entries.filter p) := by
  cases reverse with
  | false => rfl
  | true => exact List.filter_reverse

@[simp] theorem mem_inOrder {reverse : Bool} {entries : List Entry} {e : Entry} :
    e ∈ inOrder reverse entries ↔ e ∈ entries := by
  cases reverse with
  | false => exact Iff.rfl
  | true => exact List.mem_reverse

@[simp] theorem length_inOrder (reverse : Bool) (entries : List Entry) :
    (inOrder reverse entries).length = entries.length := by
  cases reverse with
  | false => rfl
  | true => exact List.length_reverse

/-- Ascending entries come one before the other in either direction. -/
theorem pairwise_inOrder (reverse : Bool) {entries : List Entry}
    (ascending : entries.Pairwise fun e f => e.key < f.key) :
    (inOrder reverse entries).Pairwise (Before reverse) := by
  cases reverse with
  | false => exact ascending
  | true => exact List.pairwise_reverse.2 ascending

end Entry

/-! ### Cursors -/

namespace Cursor

variable {cursor : Cursor}

/-- A cursor that is on one of its entries, or past the end. -/
def Placed (cursor : Cursor) : Prop :=
  ∀ i, cursor.position = some i → i < cursor.entries.length

/-- The entries from the position on. -/
def ahead (cursor : Cursor) : List Entry :=
  match cursor.position with
  | none => []
  | some i =>
      if cursor.reverse then (cursor.entries.take (i + 1)).reverse else cursor.entries.drop i

theorem placed_rewind (cursor : Cursor) : cursor.rewind.Placed := by
  intro i hi
  simp only [rewind] at hi ⊢
  split at hi
  · cases hi
  · rename_i filled
    have : 0 < cursor.entries.length := by
      rw [List.length_pos_iff]
      simpa using filled
    split at hi
    · obtain rfl := Option.some.inj hi
      omega
    · obtain rfl := Option.some.inj hi
      exact this

theorem Placed.next (placed : cursor.Placed) : cursor.next.Placed := by
  intro i hi
  simp only [Cursor.next] at hi ⊢
  split at hi
  · cases hi
  · rename_i j hj
    have := placed j hj
    split at hi
    · split at hi
      · cases hi
      · obtain rfl := Option.some.inj hi
        omega
    · split at hi
      · obtain rfl := Option.some.inj hi
        assumption
      · cases hi

theorem placed_seek (cursor : Cursor) (key : Bytes) : (cursor.seek key).Placed := by
  have upTo : countUpTo cursor.entries key ≤ cursor.entries.length :=
    (List.takeWhile_prefix _).length_le
  intro i hi
  simp only [seek] at hi ⊢
  split at hi
  · split at hi
    · cases hi
    · obtain rfl := Option.some.inj hi
      omega
  · split at hi
    · obtain rfl := Option.some.inj hi
      assumption
    · cases hi

/-- The entry at the position is the first one ahead. -/
theorem current?_eq_head? (placed : cursor.Placed) : cursor.current? = cursor.ahead.head? := by
  obtain ⟨entries, position, reverse⟩ := cursor
  cases position with
  | none => rfl
  | some i =>
      have inside : i < entries.length := placed i rfl
      cases reverse with
      | false => exact List.head?_drop.symm
      | true =>
          simp only [current?, ahead, if_true, Option.bind_some, List.head?_reverse,
            List.getLast?_take, if_neg (Nat.succ_ne_zero i), Nat.add_sub_cancel,
            List.getElem?_eq_getElem inside, Option.some_or]

/-- Going on drops the first entry ahead. -/
theorem ahead_next (placed : cursor.Placed) : cursor.next.ahead = cursor.ahead.tail := by
  obtain ⟨entries, position, reverse⟩ := cursor
  cases position with
  | none => rfl
  | some i =>
      have inside : i < entries.length := placed i rfl
      cases reverse with
      | false =>
          simp only [ahead, next, Bool.false_eq_true, if_false, List.tail_drop]
          by_cases more : i + 1 < entries.length
          · simp only [if_pos more]
          · simp only [if_neg more]
            exact (List.drop_eq_nil_of_le (Nat.le_of_not_lt more)).symm
      | true =>
          simp only [ahead, next, if_true, List.tail_reverse]
          cases i with
          | zero =>
              -- on the lowest key there is nothing further down
              cases entries with
              | nil => rfl
              | cons e rest => rfl
          | succ i =>
              simp only [if_neg (Nat.succ_ne_zero i), Nat.add_sub_cancel]
              by_cases more : i + 2 < entries.length
              · rw [List.dropLast_take more]
                rfl
              · -- the position was the highest key, so that all entries were ahead
                have last : entries.length = i + 2 := by omega
                rw [← last, List.take_length, List.dropLast_eq_take, last]
                rfl

/-- After rewinding all entries are ahead. -/
theorem ahead_rewind (cursor : Cursor) :
    cursor.rewind.ahead = Entry.inOrder cursor.reverse cursor.entries := by
  obtain ⟨entries, position, reverse⟩ := cursor
  cases entries with
  | nil => cases reverse <;> rfl
  | cons e rest =>
      cases reverse with
      | false => rfl
      | true =>
          simp only [ahead, rewind, List.isEmpty_cons, Bool.false_eq_true, if_false, if_true,
            Entry.inOrder, List.length_cons, Nat.add_sub_cancel]
          rw [List.take_of_length_le (by simp)]

section Closed

variable {entries : List Entry} (ascending : entries.Pairwise fun e f => e.key < f.key)

include ascending

/-- In front of an entry below a key all are below it. -/
theorem below_closed (key : Bytes) :
    entries.Pairwise fun e f => decide (f.key < key) = true → decide (e.key < key) = true :=
  ascending.imp fun less h => decide_eq_true (Std.lt_trans less (of_decide_eq_true h))

/-- In front of an entry at a key or below it all are below it. -/
theorem upTo_closed (key : Bytes) :
    entries.Pairwise fun e f => decide (f.key ≤ key) = true → decide (e.key ≤ key) = true :=
  ascending.imp fun less h =>
    decide_eq_true (Std.le_trans (Std.le_of_lt less) (of_decide_eq_true h))

end Closed

/-- **After seeking a key the entries are ahead that the direction has from this key on.** -/
theorem ahead_seek (cursor : Cursor) (key : Bytes)
    (ascending : cursor.entries.Pairwise fun e f => e.key < f.key) :
    (cursor.seek key).ahead = (Entry.inOrder cursor.reverse cursor.entries).filter
      (Entry.atOrBeyond cursor.reverse key) := by
  obtain ⟨entries, position, reverse⟩ := cursor
  cases reverse with
  | false =>
      have ahead : (Cursor.seek ⟨entries, position, false⟩ key).ahead
          = entries.drop (countBelow entries key) := by
        simp only [seek, Cursor.ahead, Bool.false_eq_true, if_false]
        by_cases more : countBelow entries key < entries.length
        · simp only [if_pos more]
        · simp only [if_neg more]
          exact (List.drop_eq_nil_of_le (Nat.le_of_not_lt more)).symm
      rw [ahead, countBelow, drop_length_takeWhile (below_closed ascending key)]
      refine List.filter_congr fun e _ => ?_
      simp only [Entry.atOrBeyond, Bool.false_eq_true, if_false, ← decide_not, Std.not_lt]
  | true =>
      have ahead : (Cursor.seek ⟨entries, position, true⟩ key).ahead
          = (entries.take (countUpTo entries key)).reverse := by
        simp only [seek, Cursor.ahead, if_true]
        by_cases none : countUpTo entries key = 0
        · simp only [none, if_true, List.take_zero, List.reverse_nil]
        · simp only [if_neg none, Nat.sub_add_cancel (Nat.pos_of_ne_zero none)]
      rw [ahead, countUpTo, take_length_takeWhile,
        takeWhile_eq_filter (upTo_closed ascending key), Entry.inOrder_filter]
      rfl

end Cursor

end DocStore
