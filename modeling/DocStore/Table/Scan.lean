/-
Ranges of documents.

* `RangeOpening` — the operation: open a cursor on a store, unless the range starts past the end;
* `Table.between`, `Table.all` — the documents between two bounds, and all of them;
* `Entry.decode`, `decodeEntries` — entries as documents of a shape.
-/

import DocStore.Call
import DocStore.Table.Read

set_option autoImplicit false

namespace DocStore

/-- A range that is being opened. -/
structure RangeOpening where
  /-- The store. -/
  store : StoreId
  /-- The lower bound. -/
  lower : Bound
  /-- The upper bound. -/
  upper : Bound
  /-- Whether the entries come by descending key. -/
  reverse : Bool

namespace RangeOpening

/-- Begins to open a range. -/
def start (store : StoreId) (lower upper : Bound) (reverse : Bool) :
    Progress RangeOpening (Except Error Range) :=
  if Range.startsPastEnd lower upper reverse then
    .finished (.ok (.closed store lower upper reverse))
  else .waiting ⟨store, lower, upper, reverse⟩

instance : Task RangeOpening (Except Error Range) where
  call o := .iter o.store o.reverse
  resume o reply :=
    match reply with
    | .cursor (.ok cursor) => .finished (.ok (.onCursor o.store cursor o.lower o.upper o.reverse))
    | .cursor (.error e) => .finished (.error e)
    | _ => .waiting o

end RangeOpening

namespace Table

/-- The documents between two bounds, both included. -/
def between (table : Table) (lower upper : Bound) (reverse : Bool) :
    Progress RangeOpening (Except Error Range) :=
  RangeOpening.start table.documents lower upper reverse

/-- All documents. -/
def all (table : Table) (reverse : Bool) : Progress RangeOpening (Except Error Range) :=
  table.between .min .max reverse

end Table

/-! ### Entries as documents -/

namespace Entry

/-- The key of an entry as text. -/
def keyText (e : Entry) : String :=
  Utf8.lossy e.key

/-- An entry as a document of a shape. -/
def decode (e : Entry) (shape : Shape) : Except Error (Versioned Value) :=
  Versioned.decode ⟨e.value, e.counter⟩ shape

end Entry

/-- Entries as documents of a shape, with their keys; the first one that is none makes all fail. -/
def decodeEntries (shape : Shape) (entries : List Entry) :
    Except Error (List (String × Versioned Value)) :=
  entries.mapM fun e => (e.decode shape).map fun document => (e.keyText, document)

end DocStore
