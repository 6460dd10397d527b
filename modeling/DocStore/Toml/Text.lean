/-
The text of TOML documents.

* `Toml.key?` — a key, with dots or without;
* `Toml.value?` — a value;
* `Toml.statement?`, `Toml.statements?` — a line that says something, and all of them;
* `Toml.parse?` — what a text defines, if it is a document.

A reader takes the characters from some point of the text on.  It gives what it has read and the
characters that follow, or `none` when the text is no document.  Two limits keep the nesting of
what is read small: a key has at most 79 parts, and arrays and inline tables are nested in each
other at most 79 deep.
-/

import DocStore.Toml.Moment
import DocStore.Toml.Quoted

set_option autoImplicit false

namespace DocStore

namespace Toml

/-! ### Characters and lines -/

/-- The greatest number of parts of a key, and of arrays and inline tables in each other. -/
def nestingLimit : Nat :=
  79

/-- The text with `'\n'` alone at the end of every line, unless a carriage return stands elsewhere
than before one. -/
def unifyLines? : List Char → Option (List Char)
  | [] => some []
  | '\r' :: '\n' :: rest => (unifyLines? rest).map ('\n' :: ·)
  | c :: rest => if c = '\r' then none else (unifyLines? rest).map (c :: ·)

/-- The text without the mark that it may begin with. -/
def withoutMark : List Char → List Char
  | '\ufeff' :: rest => rest
  | text => text

/-- The text without the blanks that it begins with. -/
def skipBlanks (text : List Char) : List Char :=
  text.dropWhile isBlank

/-- The text without the white space and the comments that it begins with.  A comment ends at the
end of its line, and all its characters are plain. -/
def skipLines : (inComment : Bool) → List Char → List Char
  | _, [] => []
  | false, c :: rest =>
      if isSpace c then skipLines false rest
      else if c = '#' then skipLines true rest
      else c :: rest
  | true, c :: rest =>
      if c = '\n' then skipLines false rest
      else if isPlain c then skipLines true rest
      else c :: rest

/-- What follows the end of the line, before which blanks and a comment may stand. -/
def afterLine? (text : List Char) : Option (List Char) :=
  match skipBlanks text with
  | [] => some []
  | '\n' :: rest => some rest
  | '#' :: rest =>
      match rest.dropWhile isPlain with
      | [] => some []
      | '\n' :: rest => some rest
      | _ => none
  | _ => none

/-! ### Keys -/

/-- Whether a character may stand in a key without quotes. -/
def inBareKey (c : Char) : Bool :=
  c.isAlphanum || c == '_' || c == '-'

/-- One part of a key. -/
def keyPart? : List Char → Option (String × List Char)
  | '"' :: rest => (basic? rest).map fun r => (String.ofList r.1, r.2)
  | '\'' :: rest => (literal? rest).map fun r => (String.ofList r.1, r.2)
  | text =>
      let part := text.takeWhile inBareKey
      if part.isEmpty then none else some (String.ofList part, text.dropWhile inBareKey)

/-- The parts of a key, at most so many. -/
def keyParts? : (most : Nat) → List Char → Option (List String × List Char)
  | 0, _ => none
  | most + 1, text =>
      match keyPart? (skipBlanks text) with
      | none => none
      | some (part, rest) =>
          match skipBlanks rest with
          | '.' :: rest => (keyParts? most rest).map fun r => (part :: r.1, r.2)
          | rest => some ([part], rest)

/-- A key with the blanks around it, as its parts. -/
def key? (text : List Char) : Option (List String × List Char) :=
  keyParts? nestingLimit text

/-! ### Values without other values inside -/

/-- Whether a character may stand in a number, a truth value, a date or a time. -/
def inWord (c : Char) : Bool :=
  c.isAlphanum || c == '+' || c == '-' || c == '_' || c == '.' || c == ':'

/-- The word at the beginning of a text, and what follows it.  The blank between a day and a time
belongs to the word. -/
def word (text : List Char) : List Char × List Char :=
  let first := text.takeWhile inWord
  match text.dropWhile inWord with
  | ' ' :: c :: rest =>
      if isDigit c && (date? first).any (·.2.isEmpty) then
        (first ++ ' ' :: (c :: rest).takeWhile inWord, (c :: rest).dropWhile inWord)
      else (first, ' ' :: c :: rest)
  | rest => (first, rest)

/-- The value that a word denotes. -/
def ofWord? (text : List Char) : Option Value :=
  if text = ['t', 'r', 'u', 'e'] then some (.boolean true)
  else if text = ['f', 'a', 'l', 's', 'e'] then some (.boolean false)
  else match integer? text, real? text with
    | some n, _ => some (.integer n)
    | none, some x => some (.real x)
    | none, none => (moment? text).map .moment

/-- A value that is no array and no table. -/
def simpleValue? (text : List Char) : Option (Value × List Char) :=
  match string? text with
  | some (chars, rest) => some (.string (String.ofList chars), rest)
  | none => (ofWord? (word text).1).map (·, (word text).2)

/-! ### Arrays and inline tables -/

/-- The items of an array, up to the closing bracket, each of them read by `value?`.  A comma may
stand after the last one. -/
def items? (value? : List Char → Option (Value × List Char)) :
    (most : Nat) → List Char → Option (List Value × List Char)
  | 0, _ => none
  | most + 1, text =>
      match skipLines false text with
      | ']' :: rest => some ([], rest)
      | start =>
          match value? start with
          | none => none
          | some (item, rest) =>
              match skipLines false rest with
              | ']' :: rest => some ([item], rest)
              | ',' :: rest => (items? value? most rest).map fun r => (item :: r.1, r.2)
              | _ => none

/-- A key with its value, which is read by `value?`. -/
def entry? (value? : List Char → Option (Value × List Char)) (text : List Char) :
    Option ((List String × Value) × List Char) :=
  match key? text with
  | some (key, '=' :: rest) => (value? (skipBlanks rest)).map fun r => ((key, r.1), r.2)
  | _ => none

/-- The entries of an inline table, at least one, up to the closing brace. -/
def entries? (value? : List Char → Option (Value × List Char)) :
    (most : Nat) → List Char → Option (List (List String × Value) × List Char)
  | 0, _ => none
  | most + 1, text =>
      match entry? value? text with
      | none => none
      | some (entry, rest) =>
          match skipBlanks rest with
          | '}' :: rest => some ([entry], rest)
          | ',' :: rest => (entries? value? most rest).map fun r => (entry :: r.1, r.2)
          | _ => none

/-- An inline table after its opening brace. -/
def inlineTable? (value? : List Char → Option (Value × List Char)) (most : Nat)
    (text : List Char) : Option (Value × List Char) :=
  match skipBlanks text with
  | '}' :: rest => some (.table .inline [], rest)
  | _ =>
      match entries? value? most text with
      | some (entries, rest) => (assignAll entries).map fun made => (.table .inline made, rest)
      | none => none

/-- A value.  An array or a table has at most `most` entries, and holds at most `room` levels of
them, itself included. -/
def value? (most : Nat) : (room : Nat) → List Char → Option (Value × List Char)
  | room + 1, '[' :: rest =>
      (items? (value? most room) most rest).map fun r => (.array r.1, r.2)
  | room + 1, '{' :: rest => inlineTable? (value? most room) most rest
  | _, text => simpleValue? text

/-! ### Documents -/

/-- A statement, up to the end of its line. -/
def statement? (most : Nat) (text : List Char) : Option (Statement × List Char) :=
  match text with
  | '[' :: '[' :: rest =>
      match key? rest with
      | some (key, ']' :: ']' :: rest) => (afterLine? rest).map (.row key, ·)
      | _ => none
  | '[' :: rest =>
      match key? rest with
      | some (key, ']' :: rest) => (afterLine? rest).map (.header key, ·)
      | _ => none
  | _ =>
      match entry? (value? most nestingLimit) text with
      | some ((key, value), rest) => (afterLine? rest).map (.entry key value, ·)
      | none => none

/-- The statements of a text, at most so many; `most` is also the greatest size of an array or a
table between braces. -/
def statementsFrom? (most : Nat) : (left : Nat) → List Char → Option (List Statement)
  | left, text =>
      match left, skipLines false text with
      | _, [] => some []
      | 0, _ => none
      | left + 1, start =>
          match statement? most start with
          | some (statement, rest) => (statementsFrom? most left rest).map (statement :: ·)
          | none => none

/-- The statements of a document.  There are no more of them, and no more items in an array, than
characters. -/
def statements? (text : List Char) : Option (List Statement) :=
  statementsFrom? text.length text.length text

/-- What a text defines, if it is a document. -/
def parse? (text : String) : Option Entries :=
  ((unifyLines? (withoutMark text.toList)).bind statements?).bind ofStatements?

end Toml

end DocStore
