/-
Cursors: positions in a snapshot of a store.

* `Cursor` — the entries of a store at one moment, a direction and a position;
* `Cursor.next`, `Cursor.rewind`, `Cursor.seek` — the moves;
* `Cursor.current?` — the entry at the position; there is none past the end.

A cursor is not moved by writes: its entries are those of the moment at which it was opened.
-/

import DocStore.Store

set_option autoImplicit false

namespace DocStore

/-- A position in a snapshot. -/
structure Cursor where
  /-- The entries, by ascending key. -/
  entries : List Entry
  /-- The position, counted from the lowest key; none past the end. -/
  position : Option Nat
  /-- Whether the cursor moves towards lower keys. -/
  reverse : Bool

namespace Cursor

/-- The entry at the position. -/
def current? (cursor : Cursor) : Option Entry :=
  cursor.position.bind (cursor.entries[·]?)

/-- Goes to the first entry of the direction. -/
def rewind (cursor : Cursor) : Cursor :=
  { cursor with
    position :=
      if cursor.entries.isEmpty then none
      else if cursor.reverse then some (cursor.entries.length - 1)
      else some 0 }

/-- A cursor on the first entry of a direction. -/
def ofEntries (entries : List Entry) (reverse : Bool) : Cursor :=
  rewind ⟨entries, none, reverse⟩

/-- Goes on by one entry; past the last one there is no position. -/
def next (cursor : Cursor) : Cursor :=
  { cursor with
    position := match cursor.position with
      | none => none
      | some i =>
          if cursor.reverse then if i = 0 then none else some (i - 1)
          else if i + 1 < cursor.entries.length then some (i + 1)
          else none }

/-- How many entries have a key below the given one. -/
def countBelow (entries : List Entry) (key : Bytes) : Nat :=
  (entries.takeWhile fun e => e.key < key).length

/-- How many entries have a key below the given one or that key. -/
def countUpTo (entries : List Entry) (key : Bytes) : Nat :=
  (entries.takeWhile fun e => e.key ≤ key).length

/-- Goes to the nearest entry of the direction whose key is the given one or beyond it. -/
def seek (cursor : Cursor) (key : Bytes) : Cursor :=
  { cursor with
    position :=
      if cursor.reverse then
        let upTo := countUpTo cursor.entries key
        if upTo = 0 then none else some (upTo - 1)
      else
        let below := countBelow cursor.entries key
        if below < cursor.entries.length then some below else none }

end Cursor

end DocStore
