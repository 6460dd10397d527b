/-
Text between quotation marks, as messages show a name or a key.

* `Quoted.escape` — how one character is written: the quotation mark, the backslash and the usual
  controls with a backslash, characters without a glyph of their own by number, all others as
  they are;
* `Quoted.quote` — a whole text, with the quotation marks around it.
-/

import DocStore.Bytes
import DocStore.Text.Unprintable

set_option autoImplicit false

namespace DocStore

namespace Quoted

/-- The lower-case hexadecimal digits of a number, without leading zeros. -/
def hexDigits (n : Nat) : List Char :=
  Nat.toDigits 16 n

/-- A character by number: a backslash, the letter u, and the hexadecimal code point in braces. -/
def byNumber (c : Char) : List Char :=
  ['\\', 'u', '\x7b'] ++ hexDigits c.toNat ++ ['\x7d']

/-- One character as it is written between quotation marks. -/
def escape (c : Char) : List Char :=
  if c = '"' then ['\\', '"']
  else if c = '\\' then ['\\', '\\']
  else if c = '\n' then ['\\', 'n']
  else if c = '\r' then ['\\', 'r']
  else if c = '\t' then ['\\', 't']
  else if c = '\x00' then ['\\', '0']
  else if CharSet.unprintable.contains c then byNumber c
  else [c]

/-- A text between quotation marks. -/
def quote (text : String) : String :=
  String.ofList (['"'] ++ text.toList.flatMap escape ++ ['"'])

end Quoted

end DocStore
