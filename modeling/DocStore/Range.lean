/-
Ranges: entries between two bounds, pulled one at a time.

* `Range` — a cursor between two bounds, or nothing once the range is closed;
* `Range.startsPastEnd`, `Range.closed`, `Range.onCursor` — opening: a range that starts past the
  end of the keys never has a cursor;
* `Range.pull`, `Range.drain` — the next entry, and all that are left.

A range gives its cursor up when it meets the end of its entries or a key past its far bound.
Whoever pulls then has to release the cursor at the store.
-/

import DocStore.Bound
import DocStore.Cursor

set_option autoImplicit false

namespace DocStore

/-- The number by which a store is known to those who hold it. -/
abbrev StoreId := Nat

/-- Entries of a store between two bounds. -/
structure Range where
  /-- The store. -/
  store : StoreId
  /-- The cursor; none once the range is closed. -/
  cursor : Option Cursor
  /-- The lower bound. -/
  lower : Bound
  /-- The upper bound. -/
  upper : Bound
  /-- Whether the entries come by descending key. -/
  reverse : Bool

namespace Range

/-! ### Opening -/

/-- Whether there can be no entry because the near bound is the far end of the keys. -/
def startsPastEnd (lower upper : Bound) (reverse : Bool) : Bool :=
  if reverse then upper == .min else lower == .max

/-- A range without a cursor. -/
def closed (store : StoreId) (lower upper : Bound) (reverse : Bool) : Range :=
  ⟨store, none, lower, upper, reverse⟩

/-- A range on a fresh cursor, which is put on the first entry inside the near bound. -/
def onCursor (store : StoreId) (cursor : Cursor) (lower upper : Bound) (reverse : Bool) : Range :=
  let start := if reverse then upper else lower
  let cursor := match start.key? with
    | some key => cursor.seek key
    | none => cursor.rewind
  ⟨store, some cursor, lower, upper, reverse⟩

/-- Whether the range has given up its cursor, or never had one. -/
def isClosed (range : Range) : Bool :=
  range.cursor.isNone

/-- The range without its cursor. -/
def close (range : Range) : Range :=
  { range with cursor := none }

/-! ### Pulling -/

/-- Whether the far bound lets a key in. -/
def reaches (range : Range) (key : Bytes) : Bool :=
  if range.reverse then range.lower.admitsFromBelow key else range.upper.admitsFromAbove key

/-- What a pull gives. -/
inductive Pull
  /-- An entry, and the range after it. -/
  | entry (e : Entry) (rest : Range)
  /-- The end: the range is closed now, and its cursor is to be released. -/
  | ended (rest : Range)
  /-- Nothing: the range was closed before. -/
  | nothing

/-- The next entry. -/
def pull (range : Range) : Pull :=
  match range.cursor with
  | none => .nothing
  | some cursor =>
      match cursor.current? with
      | none => .ended range.close
      | some e =>
          if range.reaches e.key then .entry e { range with cursor := some cursor.next }
          else .ended range.close

/-- How many entries the cursor of a range can have left at most. -/
def size (range : Range) : Nat :=
  range.cursor.elim 0 fun cursor => cursor.entries.length

/-- The entries that at most so many pulls give. -/
def drainUpTo : (fuel : Nat) → Range → List Entry
  | 0, _ => []
  | fuel + 1, range =>
      match range.pull with
      | .entry e rest => e :: drainUpTo fuel rest
      | _ => []

/-- All entries that are left. -/
def drain (range : Range) : List Entry :=
  drainUpTo range.size range

end Range

end DocStore
