/-
A cursor is a place in a sorted list.

Whoever holds a cursor may move it as he likes: on by one entry, back to the beginning, or to a key,
also when it has run past the end.  This module proves where it is after any such moves.  What a
move does to the entries ahead is known; here it is said without them, of keys alone: the cursor is
on the first entry, in its direction, of those that the move looks for.

A key is sought by counting the entries in front of it.  As these are the first ones, halving the
list finds their number, too.

* `Cursor.Move`, `Cursor.moves` — the moves, and a cursor after several of them;
* `Cursor.OnFirst` — a cursor on the first entry with a property, or past the end if there is none;
* `Cursor.onFirst_of_mem_ahead` — a cursor with exactly these entries ahead is on the first of them;
* `bisect`, `Cursor.halved` — halving an interval, and the place of a key that is found like this;
* `Cursor.position_seek` — **seeking by halving finds the same place**;
* `Cursor.moves_place` — **every move goes to the first entry that it looks for, from wherever the
  cursor is, and going on visits each entry ahead once and ends.**
-/

import DocStore.Proofs.Range.Cursors

set_option autoImplicit false

namespace DocStore

/-! ### The order of a direction -/

namespace Entry

variable {reverse : Bool} {d e f : Entry}

theorem Before.irrefl (reverse : Bool) (e : Entry) : ¬ Before reverse e e := by
  cases reverse with
  | false => exact Std.lt_irrefl
  | true => exact Std.lt_irrefl

theorem Before.trans (first : Before reverse d e) (second : Before reverse e f) :
    Before reverse d f := by
  cases reverse with
  | false => exact Std.lt_trans first second
  | true => exact Std.lt_trans second first

theorem Before.asymm (h : Before reverse d e) : ¬ Before reverse e d :=
  fun back => Before.irrefl reverse d (h.trans back)

end Entry

/-! ### Halving -/

/-- Halves an interval until nothing is left of it: what comes behind the middle is kept where the
condition holds of the middle, and what comes before it where it does not. -/
def bisect (p : Nat → Bool) (low high : Nat) : Nat :=
  if low < high then
    if p (low + (high - low) / 2) then bisect p (low + (high - low) / 2 + 1) high
    else bisect p low (low + (high - low) / 2)
  else low
termination_by high - low

/-- **Halving finds the place up to which a condition holds**, and from which on it does not. -/
theorem bisect_eq {p : Nat → Bool} {low high k : Nat} (from' : low ≤ k) (upTo : k ≤ high)
    (holds : ∀ i, i < k → p i = true) (fails : ∀ i, k ≤ i → i < high → p i = false) :
    bisect p low high = k := by
  fun_induction bisect p low high with
  | case1 low high more middle ih =>
      -- the condition holds in the middle, so that the place comes behind it
      refine ih (Nat.not_lt.1 fun early => ?_) upTo fails
      rw [fails _ (Nat.lt_succ_iff.1 early) (by omega)] at middle
      cases middle
  | case2 low high more middle ih =>
      have late : k ≤ low + (high - low) / 2 :=
        Nat.not_lt.1 fun early => middle (holds _ early)
      exact ih from' late fun i behind before => fails i behind (by omega)
  | case3 low high none => exact Nat.le_antisymm from' (Nat.le_trans upTo (Nat.not_lt.1 none))

section Bisecting

variable {α : Type} {l : List α} {p : α → Bool}

/-- The elements for which a condition holds, where these are the first ones, are counted by
halving. -/
theorem bisect_takeWhile (closed : l.Pairwise fun a b => p b = true → p a = true) :
    bisect (fun i => l[i]?.any p) 0 l.length = (l.takeWhile p).length := by
  have within : (l.takeWhile p).length ≤ l.length := (List.takeWhile_prefix p).length_le
  refine bisect_eq (Nat.zero_le _) within (fun i early => ?_) (fun i late inside => ?_)
  · have inside : i < l.length := Nat.lt_of_lt_of_le early within
    rw [List.getElem?_eq_getElem inside]
    refine List.all_eq_true.1 (@List.all_takeWhile α p l) _ ?_
    rw [← take_length_takeWhile]
    exact List.mem_take_iff_getElem.2 ⟨i, by omega, rfl⟩
  · have behind : l[i] ∈ l.drop (l.takeWhile p).length :=
      List.mem_drop_iff_getElem.2 ⟨i - (l.takeWhile p).length, by omega, by simp [late]⟩
    rw [drop_length_takeWhile closed, List.mem_filter] at behind
    rw [List.getElem?_eq_getElem inside]
    simpa using behind.2

end Bisecting

namespace Cursor

/-! ### Moves -/

/-- A move of a cursor. -/
inductive Move
  /-- On by one entry. -/
  | next
  /-- To the first entry of the direction. -/
  | rewind
  /-- To a key. -/
  | seek (key : Bytes)

/-- A cursor after a move. -/
def move (cursor : Cursor) : Move → Cursor
  | .next => cursor.next
  | .rewind => cursor.rewind
  | .seek key => cursor.seek key

/-- A cursor after several moves. -/
def moves (cursor : Cursor) (list : List Move) : Cursor :=
  list.foldl move cursor

/-- A cursor on the first entry, in its direction, of those with a property; it is past the end if
there is none. -/
structure OnFirst (cursor : Cursor) (p : Entry → Prop) : Prop where
  first : ∀ e, cursor.current? = some e →
    e ∈ cursor.entries ∧ p e ∧ ∀ d ∈ cursor.entries, p d → d = e ∨ Entry.Before cursor.reverse e d
  ended : cursor.current? = none ↔ ∀ d ∈ cursor.entries, ¬ p d

/-- Where a key is, found by halving. -/
def halved (cursor : Cursor) (key : Bytes) : Option Nat :=
  if cursor.reverse then
    let upTo := bisect (fun i => cursor.entries[i]?.any fun e => e.key ≤ key) 0
      cursor.entries.length
    if upTo = 0 then none else some (upTo - 1)
  else
    let below := bisect (fun i => cursor.entries[i]?.any fun e => e.key < key) 0
      cursor.entries.length
    if below < cursor.entries.length then some below else none

section Places

variable {cursor : Cursor}

/-- **Seeking by halving finds the same place.** -/
theorem position_seek (cursor : Cursor) (key : Bytes)
    (ascending : cursor.entries.Pairwise fun e f => e.key < f.key) :
    (cursor.seek key).position = cursor.halved key := by
  simp only [seek, halved, countBelow, countUpTo, bisect_takeWhile (below_closed ascending key),
    bisect_takeWhile (upTo_closed ascending key)]
  rfl

/-- The entries ahead are the last ones of the direction. -/
theorem ahead_suffix (cursor : Cursor) :
    cursor.ahead <:+ Entry.inOrder cursor.reverse cursor.entries := by
  obtain ⟨entries, position, reverse⟩ := cursor
  cases position with
  | none => exact List.nil_suffix
  | some i =>
      cases reverse with
      | false => exact List.drop_suffix i entries
      | true => exact List.reverse_suffix.2 (List.take_prefix (i + 1) entries)

variable (placed : cursor.Placed) (ascending : cursor.entries.Pairwise fun e f => e.key < f.key)

include ascending in
/-- The entries ahead come in order. -/
theorem pairwise_ahead : cursor.ahead.Pairwise (Entry.Before cursor.reverse) :=
  (Entry.pairwise_inOrder cursor.reverse ascending).sublist cursor.ahead_suffix.sublist

include placed in
theorem ahead_eq_nil_iff : cursor.ahead = [] ↔ cursor.current? = none := by
  rw [current?_eq_head? placed, List.head?_eq_none_iff]

include placed ascending in
/-- **A cursor with exactly these entries ahead is on the first of them.** -/
theorem onFirst_of_mem_ahead {p : Entry → Prop}
    (members : ∀ d, d ∈ cursor.ahead ↔ d ∈ cursor.entries ∧ p d) : cursor.OnFirst p := by
  refine ⟨fun e here => ?_, ?_⟩
  · rw [current?_eq_head? placed] at here
    obtain ⟨rest, ahead⟩ := List.head?_eq_some_iff.1 here
    have ordered := cursor.pairwise_ahead ascending
    rw [ahead, List.pairwise_cons] at ordered
    obtain ⟨there, holds⟩ := (members e).1 (ahead ▸ List.mem_cons_self)
    refine ⟨there, holds, fun d hd hp => ?_⟩
    have mem := (members d).2 ⟨hd, hp⟩
    rw [ahead] at mem
    exact (List.mem_cons.1 mem).imp id (ordered.1 d)
  · rw [← ahead_eq_nil_iff placed, List.eq_nil_iff_forall_not_mem]
    exact forall_congr' fun d => (not_congr (members d)).trans not_and

include placed ascending in
/-- **Behind the entry on which a cursor is**, those are ahead that the direction has after it. -/
theorem mem_tail_ahead {e : Entry} (here : cursor.current? = some e) (d : Entry) :
    d ∈ cursor.ahead.tail ↔ d ∈ cursor.entries ∧ Entry.Before cursor.reverse e d := by
  obtain ⟨rest, ahead⟩ := List.head?_eq_some_iff.1 ((current?_eq_head? placed).symm.trans here)
  obtain ⟨passed, whole⟩ := cursor.ahead_suffix
  rw [ahead] at whole
  have ordered := Entry.pairwise_inOrder cursor.reverse ascending
  rw [← whole, List.pairwise_append, List.pairwise_cons] at ordered
  obtain ⟨-, ⟨after, -⟩, before⟩ := ordered
  rw [ahead, List.tail_cons, ← @Entry.mem_inOrder cursor.reverse cursor.entries d, ← whole,
    List.mem_append, List.mem_cons]
  constructor
  · exact fun hd => ⟨.inr (.inr hd), after d hd⟩
  · rintro ⟨hd | rfl | hd, later⟩
    · exact absurd (before d hd e List.mem_cons_self) later.asymm
    · exact absurd later (Entry.Before.irrefl _ d)
    · exact hd

include placed ascending in
/-- Ahead of a cursor are the entry on which it is and those that the direction has after it. -/
theorem mem_ahead (d : Entry) :
    d ∈ cursor.ahead ↔ d ∈ cursor.entries ∧
      ∃ e, cursor.current? = some e ∧ (d = e ∨ Entry.Before cursor.reverse e d) := by
  cases here : cursor.current? with
  | none => simp [(ahead_eq_nil_iff placed).2 here]
  | some e =>
      obtain ⟨rest, ahead⟩ := List.head?_eq_some_iff.1 ((current?_eq_head? placed).symm.trans here)
      have there : e ∈ cursor.entries :=
        Entry.mem_inOrder.1 (cursor.ahead_suffix.mem (ahead ▸ List.mem_cons_self))
      have later := mem_tail_ahead placed ascending here d
      rw [ahead, List.tail_cons] at later
      rw [ahead, List.mem_cons, later]
      constructor
      · rintro (rfl | ⟨hd, after⟩)
        · exact ⟨there, d, rfl, .inl rfl⟩
        · exact ⟨hd, e, rfl, .inr after⟩
      · rintro ⟨hd, _, ⟨⟩, same | after⟩
        · exact .inl same
        · exact .inr ⟨hd, after⟩

/-! ### Each move -/

theorem onFirst_rewind (ascending : cursor.entries.Pairwise fun e f => e.key < f.key) :
    cursor.rewind.OnFirst fun _ => True := by
  refine onFirst_of_mem_ahead (placed_rewind cursor) ascending fun d => ?_
  rw [ahead_rewind, Entry.mem_inOrder]
  exact (and_true _).symm.to_iff

theorem onFirst_seek (ascending : cursor.entries.Pairwise fun e f => e.key < f.key) (key : Bytes) :
    (cursor.seek key).OnFirst fun e => Entry.atOrBeyond cursor.reverse key e = true := by
  refine onFirst_of_mem_ahead (placed_seek cursor key) ascending fun d => ?_
  rw [ahead_seek cursor key ascending, List.mem_filter, Entry.mem_inOrder]
  rfl

include placed ascending in
theorem onFirst_next {e : Entry} (here : cursor.current? = some e) :
    cursor.next.OnFirst (Entry.Before cursor.reverse e) := by
  refine onFirst_of_mem_ahead placed.next ascending fun d => ?_
  rw [ahead_next placed]
  exact mem_tail_ahead placed ascending here d

/-! ### Many moves -/

/-- Moves neither change the entries nor turn a cursor round, and leave it on an entry or past the
end. -/
theorem move_keeps (cursor : Cursor) (m : Move) :
    (cursor.move m).entries = cursor.entries ∧ (cursor.move m).reverse = cursor.reverse ∧
      (cursor.Placed → (cursor.move m).Placed) := by
  cases m with
  | next => exact ⟨rfl, rfl, Placed.next⟩
  | rewind => exact ⟨rfl, rfl, fun _ => placed_rewind cursor⟩
  | seek key => exact ⟨rfl, rfl, fun _ => placed_seek cursor key⟩

theorem moves_keep (cursor : Cursor) (list : List Move) :
    (cursor.moves list).entries = cursor.entries ∧
      (cursor.moves list).reverse = cursor.reverse ∧
      (cursor.Placed → (cursor.moves list).Placed) := by
  induction list generalizing cursor with
  | nil => exact ⟨rfl, rfl, id⟩
  | cons m list ih =>
      obtain ⟨entries, reverse, placed⟩ := cursor.move_keeps m
      obtain ⟨entries', reverse', placed'⟩ := ih (cursor.move m)
      exact ⟨entries'.trans entries, reverse'.trans reverse, placed' ∘ placed⟩

include placed in
/-- Going on again and again drops the entries ahead one by one. -/
theorem ahead_moves_next (n : Nat) :
    (cursor.moves (List.replicate n .next)).ahead = cursor.ahead.drop n := by
  induction n generalizing cursor with
  | zero => rfl
  | succ n ih =>
      have later : (cursor.moves (List.replicate (n + 1) .next)).ahead
          = cursor.next.ahead.drop n := ih placed.next
      rw [later, ahead_next placed, List.drop_tail]

include placed in
theorem current?_moves_next (n : Nat) :
    (cursor.moves (List.replicate n .next)).current? = cursor.ahead[n]? := by
  have placed' := (cursor.moves_keep (List.replicate n .next)).2.2 placed
  rw [current?_eq_head? placed', ahead_moves_next placed, List.head?_drop]

end Places

/-- **A cursor is a place in a sorted list.**  After any moves of a cursor over ascending entries, in
either direction: it is on one of these entries or past the end; back at the beginning it is on the
first entry, and at a key on the nearest entry that the direction has there or beyond, which halving
finds as well; on from an entry it is on the one right behind it, and past the end it stays until it
is moved otherwise; and going on visits the entry on which it is and those behind it, in order and
each of them once, and then ends. -/
theorem moves_place {entries : List Entry} (ascending : entries.Pairwise fun e f => e.key < f.key)
    (reverse : Bool) (list : List Move) :
    let cursor := (ofEntries entries reverse).moves list
    (cursor.entries = entries ∧ cursor.reverse = reverse ∧ cursor.Placed) ∧
    cursor.rewind.OnFirst (fun _ => True) ∧
    (∀ key, (cursor.seek key).OnFirst (fun e => Entry.atOrBeyond reverse key e = true) ∧
      (cursor.seek key).position = cursor.halved key) ∧
    (∀ e, cursor.current? = some e → cursor.next.OnFirst (Entry.Before reverse e)) ∧
    (cursor.current? = none →
      ∀ n, (cursor.moves (List.replicate n .next)).current? = none) ∧
    (∀ d, d ∈ cursor.ahead ↔ d ∈ entries ∧
      ∃ e, cursor.current? = some e ∧ (d = e ∨ Entry.Before reverse e d)) ∧
    cursor.ahead.Pairwise (Entry.Before reverse) ∧
    ∀ n, (cursor.moves (List.replicate n .next)).current? = cursor.ahead[n]? := by
  intro cursor
  have kept : cursor.entries = entries ∧ cursor.reverse = reverse ∧ cursor.Placed := by
    obtain ⟨same, turned, placed⟩ := (ofEntries entries reverse).moves_keep list
    exact ⟨same, turned, placed (placed_rewind _)⟩
  clear_value cursor
  obtain ⟨rfl, rfl, placed⟩ := kept
  refine ⟨⟨rfl, rfl, placed⟩, onFirst_rewind ascending, fun key => ⟨onFirst_seek ascending key,
    position_seek cursor key ascending⟩, fun e => onFirst_next placed ascending, fun ended n => ?_,
    mem_ahead placed ascending, pairwise_ahead ascending, current?_moves_next placed⟩
  rw [current?_moves_next placed, (ahead_eq_nil_iff placed).2 ended]
  rfl

/-- Backwards, a key between two entries is sought, and then the cursor goes on past the lowest one. -/
theorem moves_place_of_three :
    let entries : List Entry := [⟨[0x61], [1], 1⟩, ⟨[0x63], [2], 2⟩, ⟨[0x65], [3], 3⟩]
    let sought := (ofEntries entries true).moves [.next, .seek [0x64]]
    let ended := (ofEntries entries true).moves [.next, .seek [0x64], .next, .next]
    (entries.Pairwise fun e f => e.key < f.key) ∧
      (sought.current? = some ⟨[0x63], [2], 2⟩ ∧
        sought.next.OnFirst (Entry.Before true ⟨[0x63], [2], 2⟩)) ∧
      (ended.current? = none ∧ ∀ n, (ended.moves (List.replicate n .next)).current? = none) ∧
      (ended.seek [0x64]).OnFirst (fun e => Entry.atOrBeyond true [0x64] e = true) ∧
      ended.halved [0x64] = some 1 := by
  intro entries sought ended
  have ascending : entries.Pairwise fun e f => e.key < f.key := by decide
  obtain ⟨-, -, -, next, -⟩ := moves_place ascending true [.next, .seek [0x64]]
  obtain ⟨-, -, seek, -, stays, -⟩ :=
    moves_place ascending true [.next, .seek [0x64], .next, .next]
  have here : sought.current? = some ⟨[0x63], [2], 2⟩ := by decide
  have past : ended.current? = none := by decide
  have place : (ended.seek [0x64]).position = some 1 := by decide
  exact ⟨ascending, ⟨here, next _ here⟩, ⟨past, stays past⟩, (seek [0x64]).1,
    (seek [0x64]).2.symm.trans place⟩

end Cursor

end DocStore
