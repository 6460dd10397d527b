/-
The compact text of a JSON tree.

* `Number.text` — integers in decimal, floats as the shortest text that reads back;
* `Json.escape`, `Json.quoted` — strings: the quotation mark, the backslash and the controls are
  escaped, every other character stands for itself;
* `Json.text` — a whole tree, without blanks.
-/

import DocStore.Bytes
import DocStore.Json
import DocStore.Number.Shortest

set_option autoImplicit false

namespace DocStore

/-- An integer in decimal. -/
def Integer.text (n : Integer) : List Char :=
  (if n.val < 0 then ['-'] else []) ++ Nat.toDigits 10 n.val.natAbs

/-- A number as JSON writes it. -/
def Number.text : Number → List Char
  | .int n => n.text
  | .float x => x.val.text

namespace Json

/-! ### Strings -/

/-- One character inside quotation marks. -/
def escape (c : Char) : List Char :=
  if c = '"' then ['\\', '"']
  else if c = '\\' then ['\\', '\\']
  else if c = '\x08' then ['\\', 'b']
  else if c = '\t' then ['\\', 't']
  else if c = '\n' then ['\\', 'n']
  else if c = '\x0c' then ['\\', 'f']
  else if c = '\r' then ['\\', 'r']
  else if c.toNat < 0x20 then
    ['\\', 'u', '0', '0', Bytes.hexDigit (c.toNat / 16), Bytes.hexDigit (c.toNat % 16)]
  else [c]

/-- A string between quotation marks. -/
def quoted (s : String) : List Char :=
  ['"'] ++ s.toList.flatMap escape ++ ['"']

/-! ### Trees -/

mutual

/-- The compact text of a tree. -/
def text : Json → List Char
  | .null => ['n', 'u', 'l', 'l']
  | .bool true => ['t', 'r', 'u', 'e']
  | .bool false => ['f', 'a', 'l', 's', 'e']
  | .number n => n.text
  | .string s => quoted s
  | .array [] => ['[', ']']
  | .array (item :: rest) => ['['] ++ item.text ++ textOfItems rest
  | .object [] => ['\x7b', '\x7d']
  | .object ((key, value) :: rest) =>
      ['\x7b'] ++ quoted key ++ [':'] ++ value.text ++ textOfMembers rest

/-- The items after the first one, and the end of the array. -/
def textOfItems : List Json → List Char
  | [] => [']']
  | item :: rest => [','] ++ item.text ++ textOfItems rest

/-- The members after the first one, and the end of the object. -/
def textOfMembers : List (String × Json) → List Char
  | [] => ['\x7d']
  | (key, value) :: rest => [','] ++ quoted key ++ [':'] ++ value.text ++ textOfMembers rest

end

end Json

end DocStore
