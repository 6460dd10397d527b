/-
TOML documents: the values that they hold, and the rules by which tables grow.

* `Toml.Value` — the values; `Toml.Entries` — the entries of a table, in the order of their
  definition and each key once;
* `Toml.Origin` — what a table was defined by, which decides who may still add to it;
* `Toml.assign` — a `key = value` line inside a table;
* `Toml.openTable`, `Toml.addRow` — a `[header]` line and a `[[header]]` line;
* `Toml.within` — a change to the table that a header has opened.

Each of them fails when the document defines something twice or adds to what is closed.
-/

set_option autoImplicit false

namespace DocStore

namespace Toml

/-! ### Values -/

/-- A number with a fraction or an exponent, as it is written. -/
inductive Real
  /-- The number `± digits * 10 ^ exponent`. -/
  | decimal (negative : Bool) (digits : Nat) (exponent : Int)
  | infinite (negative : Bool)
  | nan (negative : Bool)
  deriving DecidableEq

/-- A day of the calendar. -/
structure Date where
  /-- The year, of four digits. -/
  year : Nat
  /-- The month, from 1. -/
  month : Nat
  /-- The day of the month, from 1. -/
  day : Nat
  deriving DecidableEq

/-- A time of the day. -/
structure Time where
  /-- The hour, up to 23. -/
  hour : Nat
  /-- The minute, up to 59. -/
  minute : Nat
  /-- The second, up to 60, for a leap second. -/
  second : Nat
  /-- The fraction of a second, in billionths. -/
  nanosecond : Nat
  deriving DecidableEq

/-- A point in time, as much of it as is said. -/
inductive Moment
  /-- A day. -/
  | date (d : Date)
  /-- A time on any day. -/
  | time (t : Time)
  /-- A time on a day, in some place. -/
  | local (d : Date) (t : Time)
  /-- A time on a day, in a place whose clocks are this many minutes ahead of universal time. -/
  | instant (d : Date) (t : Time) (ahead : Int)
  deriving DecidableEq

/-- What a table was defined by. -/
inductive Origin
  /-- A header of its own. -/
  | header
  /-- The header of a table inside it; a header of its own may still come. -/
  | implied
  /-- The dots in the key of an entry. -/
  | dotted
  /-- Braces, between which all of it stands. -/
  | inline
  deriving DecidableEq

/-- A value of a document. -/
inductive Value
  | string (text : String)
  | integer (n : Int64)
  | real (x : Real)
  | boolean (b : Bool)
  | moment (m : Moment)
  | array (items : List Value)
  /-- A table with its entries. -/
  | table (origin : Origin) (entries : List (String × Value))
  /-- The tables of one `[[header]]`: the last one, and those before it, latest first. -/
  | tables (last : List (String × Value)) (earlier : List (List (String × Value)))
  deriving Inhabited

/-- The entries of a table, in the order of their definition. -/
abbrev Entries :=
  List (String × Value)

/-! ### Entries -/

/-- The value of a key. -/
def find? (key : String) : Entries → Option Value
  | [] => none
  | (k, v) :: rest => if key = k then some v else find? key rest

/-- Puts a value at a key: in place of the value that is there, or else at the end. -/
def put (key : String) (value : Value) : Entries → Entries
  | [] => [(key, value)]
  | (k, v) :: rest => if key = k then (key, value) :: rest else (k, v) :: put key value rest

/-- The value that was put is found, and no other value is touched. -/
theorem find?_put (key other : String) (value : Value) (entries : Entries) :
    find? other (put key value entries)
      = if other = key then some value else find? other entries := by
  induction entries with
  | nil => by_cases h : other = key <;> simp [put, find?, h]
  | cons e rest ih =>
      obtain ⟨k, v⟩ := e
      unfold put
      split
      · rename_i h
        subst h
        by_cases h : other = key <;> simp [find?, h]
      · rename_i h
        by_cases h' : other = k
        · subst h'
          simp [find?, Ne.symm h]
        · simp [find?, h', ih]

/-! ### How tables grow -/

/-- Gives a value to a key, which the dots of its text divide into parts.  The parts before the last
one lead through tables that dots or headers inside them have defined, or define them.  The table
where they end has to be `direct`: the one that the line stands in, or one defined by dots.  The
last part must not have a value there. -/
def assign (value : Value) : (direct : Bool) → (key : List String) → Entries → Option Entries
  | _, [], _ => none
  | direct, [part], entries =>
      if direct && (find? part entries).isNone then some (put part value entries) else none
  | _, part :: key, entries =>
      match find? part entries with
      | none =>
          (assign value true key []).map fun inner => put part (.table .dotted inner) entries
      | some (.table .implied inner) =>
          (assign value false key inner).map fun inner => put part (.table .implied inner) entries
      | some (.table .dotted inner) =>
          (assign value true key inner).map fun inner => put part (.table .dotted inner) entries
      | some (.tables last earlier) =>
          (assign value false key last).map fun last => put part (.tables last earlier) entries
      | some _ => none

/-- The entries that a list of keys with values defines, one after the other. -/
def assignAll (entries : List (List String × Value)) : Option Entries :=
  entries.foldlM (fun made e => assign e.2 true e.1 made) []

/-- Changes the table that one part of a header leads to: a new one, a table that is there, or the
last one of several. -/
def inside (part : String) (change : Entries → Option Entries) (entries : Entries) :
    Option Entries :=
  match find? part entries with
  | none => (change []).map fun inner => put part (.table .implied inner) entries
  | some (.table .inline _) => none
  | some (.table origin inner) =>
      (change inner).map fun inner => put part (.table origin inner) entries
  | some (.tables last earlier) =>
      (change last).map fun last => put part (.tables last earlier) entries
  | some _ => none

/-- Changes the table that a header leads to. -/
def within (change : Entries → Option Entries) : (header : List String) → Entries → Option Entries
  | [] => change
  | part :: header => inside part (within change header)

/-- Opens the table of a header: a new one, or one that headers inside it have implied. -/
def openTable : (header : List String) → Entries → Option Entries
  | [], _ => none
  | [part], entries =>
      match find? part entries with
      | none => some (put part (.table .header []) entries)
      | some (.table .implied inner) => some (put part (.table .header inner) entries)
      | some _ => none
  | part :: header, entries => inside part (openTable header) entries

/-- Adds one more table to those of a header, or the first one. -/
def addRow : (header : List String) → Entries → Option Entries
  | [], _ => none
  | [part], entries =>
      match find? part entries with
      | none => some (put part (.tables [] []) entries)
      | some (.tables last earlier) => some (put part (.tables [] (last :: earlier)) entries)
      | some _ => none
  | part :: header, entries => inside part (addRow header) entries

/-! ### Documents -/

/-- What a line of a document says. -/
inductive Statement
  /-- The lines that follow belong to a table. -/
  | header (key : List String)
  /-- The lines that follow belong to one more table of several. -/
  | row (key : List String)
  /-- A key has a value, in the table that the line belongs to. -/
  | entry (key : List String) (value : Value)

/-- A document of which some lines have been read. -/
structure Document where
  /-- All that has been defined. -/
  root : Entries
  /-- The header of the table that the next line belongs to. -/
  current : List String

namespace Document

/-- The document without lines. -/
def empty : Document :=
  ⟨[], []⟩

/-- The document with one more line. -/
def add? (document : Document) : Statement → Option Document
  | .header key => (openTable key document.root).map fun root => ⟨root, key⟩
  | .row key => (addRow key document.root).map fun root => ⟨root, key⟩
  | .entry key value =>
      (within (assign value true key) document.current document.root).map fun root =>
        { document with root := root }

end Document

/-- What the lines of a document define. -/
def ofStatements? (statements : List Statement) : Option Entries :=
  (statements.foldlM Document.add? Document.empty).map (·.root)

end Toml

end DocStore
