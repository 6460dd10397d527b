/-
Strings in TOML documents.

* `Toml.isPlain` — the characters that stand for themselves in strings and comments;
* `Toml.escape?` — what follows a backslash;
* `Toml.basic?`, `Toml.literal?` — a string of one line, with escapes in double quotes or without
  them in single quotes;
* `Toml.longBasic?`, `Toml.longLiteral?` — the same over several lines, in three quotes;
* `Toml.string?` — a string of any kind.

The readers of the kinds begin after the opening quotes.  They give the characters of the string and
the text that follows the closing quotes.  All text has lines that end with `'\n'` alone.
-/

import DocStore.Toml.Number

set_option autoImplicit false

namespace DocStore

namespace Toml

/-- Whether a character stands for itself: all but the control characters, and the tab. -/
def isPlain (c : Char) : Bool :=
  c == '\t' || (decide (' ' ≤ c) && c != '\x7f')

/-- Whether a character is white space inside a line. -/
def isBlank (c : Char) : Bool :=
  c == ' ' || c == '\t'

/-! ### Escapes -/

/-- The character whose number hexadecimal digits denote, unless it is a surrogate or too great. -/
def scalar? (digits : List Char) : Option Char :=
  if digits.contains '_' then none
  else match natural? 16 digits with
    | some n => if n.isValidChar then some (Char.ofNat n) else none
    | none => none

/-- The character that one letter after a backslash denotes. -/
def named? : Char → Option Char
  | 'b' => some '\x08'
  | 't' => some '\t'
  | 'n' => some '\n'
  | 'f' => some '\x0c'
  | 'r' => some '\r'
  | '"' => some '"'
  | '\\' => some '\\'
  | _ => none

/-- The character that an escape denotes, and what follows the escape. -/
def escape? : List Char → Option (Char × List Char)
  | 'u' :: a :: b :: c :: d :: rest => (scalar? [a, b, c, d]).map (·, rest)
  | 'U' :: a :: b :: c :: d :: e :: f :: g :: h :: rest =>
      (scalar? [a, b, c, d, e, f, g, h]).map (·, rest)
  | c :: rest => (named? c).map (·, rest)
  | [] => none

/-- An escape has at least one character. -/
theorem length_of_escape? {text rest : List Char} {c : Char} (h : escape? text = some (c, rest)) :
    rest.length < text.length := by
  unfold escape? at h
  split at h
  · obtain ⟨_, -, h⟩ := Option.map_eq_some_iff.1 h
    cases h
    simp only [List.length_cons]
    omega
  · obtain ⟨_, -, h⟩ := Option.map_eq_some_iff.1 h
    cases h
    simp only [List.length_cons]
    omega
  · obtain ⟨_, -, h⟩ := Option.map_eq_some_iff.1 h
    cases h
    simp
  · cases h

/-! ### Strings of one line -/

/-- A string in double quotes. -/
def basic? : List Char → Option (List Char × List Char)
  | [] => none
  | '"' :: rest => some ([], rest)
  | '\\' :: rest =>
      match _h : escape? rest with
      | some (c, rest) => (basic? rest).map fun r => (c :: r.1, r.2)
      | none => none
  | c :: rest => if isPlain c then (basic? rest).map fun r => (c :: r.1, r.2) else none
termination_by text => text.length
decreasing_by
  · have := length_of_escape? _h
    simp only [List.length_cons]
    omega
  · simp

/-- A string in single quotes. -/
def literal? : List Char → Option (List Char × List Char)
  | [] => none
  | '\'' :: rest => some ([], rest)
  | c :: rest => if isPlain c then (literal? rest).map fun r => (c :: r.1, r.2) else none

/-! ### Strings of several lines -/

/-- What the text after three quotes adds to the string that they close: up to two quotes more. -/
def closing (quote : Char) : List Char → List Char × List Char
  | a :: b :: rest =>
      if a = quote ∧ b = quote then ([a, b], rest)
      else if a = quote then ([a], b :: rest)
      else ([], a :: b :: rest)
  | [a] => if a = quote then ([a], []) else ([], [a])
  | [] => ([], [])

/-- Whether nothing but blanks stands before the end of the line. -/
def endsLine (text : List Char) : Bool :=
  (text.dropWhile isBlank).head? == some '\n'

/-- Whether a character is white space, inside a line or between lines. -/
def isSpace (c : Char) : Bool :=
  isBlank c || c == '\n'

theorem length_dropWhile_le (p : Char → Bool) (text : List Char) :
    (text.dropWhile p).length ≤ text.length :=
  (List.dropWhile_suffix p).length_le

/-- A string in three double quotes.  A backslash at the end of a line joins it to the next text. -/
def longBasic? : List Char → Option (List Char × List Char)
  | [] => none
  | '"' :: '"' :: '"' :: rest => some (closing '"' rest)
  | '\\' :: rest =>
      if endsLine rest then longBasic? (rest.dropWhile isSpace)
      else match _h : escape? rest with
        | some (c, rest) => (longBasic? rest).map fun r => (c :: r.1, r.2)
        | none => none
  | c :: rest =>
      if isPlain c || c == '\n' then (longBasic? rest).map fun r => (c :: r.1, r.2) else none
termination_by text => text.length
decreasing_by
  · have := length_dropWhile_le isSpace rest
    simp only [List.length_cons]
    omega
  · have := length_of_escape? _h
    simp only [List.length_cons]
    omega
  · simp

/-- A string in three single quotes. -/
def longLiteral? : List Char → Option (List Char × List Char)
  | [] => none
  | '\'' :: '\'' :: '\'' :: rest => some (closing '\'' rest)
  | c :: rest =>
      if isPlain c || c == '\n' then (longLiteral? rest).map fun r => (c :: r.1, r.2) else none

/-- The text without the end of line that it begins with. -/
def withoutNewline : List Char → List Char
  | '\n' :: rest => rest
  | text => text

/-- The string at the beginning of a text, and what follows it. -/
def string? : List Char → Option (List Char × List Char)
  | '"' :: '"' :: '"' :: rest => longBasic? (withoutNewline rest)
  | '"' :: rest => basic? rest
  | '\'' :: '\'' :: '\'' :: rest => longLiteral? (withoutNewline rest)
  | '\'' :: rest => literal? rest
  | _ => none

end Toml

end DocStore
