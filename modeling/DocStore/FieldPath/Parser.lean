/-
Reading paths.

* `FieldPath.ParseError` — what is wrong with a text that is no path, with its position, counted in
  characters from 0;
* `FieldPath.isKeyChar` — the characters of a key: letters and digits of any script, `_` and `-`;
* `FieldPath.parse`, `FieldPath.parseField` — the path that a text is, and the same for a path that
  has to have a step.

The reader takes one character at a time.  Its state says what it is in the middle of: nothing
(`between`), a dot whose key has not begun (`afterDot`), a key, or a bracket.  One dot at the very
beginning of the text is skipped.
-/

import DocStore.FieldPath
import DocStore.Text.Alphanumeric

set_option autoImplicit false

namespace DocStore

namespace FieldPath

/-- What is wrong with a text that is no path. -/
inductive ParseError
  /-- There is no key between a dot and this position. -/
  | emptyKey (position : Nat)
  /-- The bracket at this position is never closed. -/
  | unclosedBracket (position : Nat)
  /-- The text that begins at this position, inside brackets, is no position of an array. -/
  | invalidIndex (position : Nat) (text : String)
  /-- No step begins with this character. -/
  | unexpectedChar (char : Char) (position : Nat)
  /-- The path has no step, and must have one. -/
  | root
  deriving DecidableEq

/-- What is wrong, in words. -/
def ParseError.message : ParseError → String
  | .emptyKey position => s!"empty key in path at position {position}"
  | .unclosedBracket position => s!"unclosed bracket starting at position {position}"
  | .invalidIndex position text => s!"invalid array index at position {position}: {text}"
  | .unexpectedChar char position => s!"unexpected character '{char}' at position {position}"
  | .root => "path must name at least one field"

/-- Whether a character may stand in a key. -/
def isKeyChar (c : Char) : Bool :=
  CharSet.alphanumeric.contains c || c == '_' || c == '-'

/-! ### Positions in arrays -/

/-- The number that decimal digits denote, or `none` when there is another character. -/
def digits? (text : List Char) : Option Nat :=
  text.foldl
    (fun n c => n.bind fun n =>
      if '0' ≤ c ∧ c ≤ '9' then some (n * 10 + (c.toNat - '0'.toNat)) else none)
    (some 0)

/-- The position that a text in brackets denotes: decimal digits, after a plus sign or not, for a
number below `2 ^ 64`. -/
def position? (text : List Char) : Option Nat :=
  let digits := match text with
    | '+' :: rest => rest
    | _ => text
  if digits.isEmpty then none
  else (digits? digits).filter (· < 0x10000000000000000)

/-! ### The reader -/

/-- What the reader is in the middle of. -/
inductive State
  /-- Nothing: a step has just ended, or none has begun. -/
  | between
  /-- A dot has been read, and its key has not begun. -/
  | afterDot
  /-- A key, of which these characters have been read, the last one first. -/
  | inKey (chars : List Char)
  /-- A bracket that opened at this position; these characters have been read since, the last one
  first. -/
  | inBracket (opened : Nat) (chars : List Char)

/-- Begins a step with the character at a position. -/
def begin (c : Char) (position : Nat) : Except ParseError State :=
  if c = '[' then .ok (.inBracket position [])
  else if isKeyChar c then .ok (.inKey [c])
  else .error (.unexpectedChar c position)

/-- Reads the character at a position where no step is open. -/
def next (c : Char) (position : Nat) : Except ParseError State :=
  if c = '.' then .ok .afterDot else begin c position

/-- The step that a bracket is once it is closed. -/
def closeBracket (opened : Nat) (chars : List Char) : Except ParseError Segment :=
  match position? chars.reverse with
  | some n => .ok (.index n)
  | none => .error (.invalidIndex (opened + 1) (String.ofList chars.reverse))

/-- The key that ends here. -/
def closeKey (chars : List Char) : Segment :=
  .key (String.ofList chars.reverse)

/-- Reads the rest of a text from a position on: the steps that end in it. -/
def scan : State → (position : Nat) → List Char → Except ParseError (List Segment)
  | .between, _, [] => .ok []
  | .afterDot, position, [] => .error (.emptyKey position)
  | .inKey chars, _, [] => .ok [closeKey chars]
  | .inBracket opened _, _, [] => .error (.unclosedBracket opened)
  | .between, position, c :: rest =>
      match next c position with
      | .ok state => scan state (position + 1) rest
      | .error e => .error e
  | .afterDot, position, c :: rest =>
      if c = '.' ∨ c = '[' then .error (.emptyKey position)
      else match begin c position with
        | .ok state => scan state (position + 1) rest
        | .error e => .error e
  | .inKey chars, position, c :: rest =>
      if isKeyChar c then scan (.inKey (c :: chars)) (position + 1) rest
      else match next c position with
        | .ok state =>
            (scan state (position + 1) rest).map (closeKey chars :: ·)
        | .error e => .error e
  | .inBracket opened chars, position, c :: rest =>
      if c = ']' then
        match closeBracket opened chars with
        | .ok segment => (scan .between (position + 1) rest).map (segment :: ·)
        | .error e => .error e
      else scan (.inBracket opened (c :: chars)) (position + 1) rest

/-- The steps that a text says. -/
def parseChars : List Char → Except ParseError (List Segment)
  | ['.'] => .error (.emptyKey 1)
  | '.' :: rest => scan .between 1 rest
  | chars => scan .between 0 chars

/-- The path that a text is. -/
def parse (text : String) : Except ParseError FieldPath :=
  (parseChars text.toList).map FieldPath.mk

/-- The path that a text is, which must have a step. -/
def parseField (text : String) : Except ParseError FieldPath :=
  match parse text with
  | .ok path => if path.isRoot then .error .root else .ok path
  | .error e => .error e

end FieldPath

end DocStore
