/-
Names of tables and indexes, and of the keyspaces that belong to them.

* `Name.validate` — a name has between 1 and 125 bytes, of whatever characters;
* `Name.qualified` — an index together with its table;
* `Name.documents`, `Name.buckets` — the keyspaces of a table's documents and of an index's
  buckets.  The names in them are written in hexadecimal, so that no name can look like two.
-/

import DocStore.Error
import DocStore.Text.Utf8

set_option autoImplicit false

namespace DocStore

namespace Name

/-- The greatest number of bytes of a name. -/
def maxLength : Nat :=
  125

/-- Accepts a text that is a name. -/
def validate (name : String) : Except Error Unit :=
  let length := (Utf8.encode name).length
  if length = 0 ∨ maxLength < length then .error (.badIdentifier name) else .ok ()

/-- The name of an index with that of its table. -/
def qualified (table index : String) : String :=
  table ++ "/" ++ index

/-- The keyspace of a table's documents. -/
def documents (table : String) : String :=
  "t." ++ Bytes.hex (Utf8.encode table)

/-- The keyspace of an index's buckets. -/
def buckets (table index : String) : String :=
  "i." ++ Bytes.hex (Utf8.encode table) ++ "." ++ Bytes.hex (Utf8.encode index)

end Name

end DocStore
