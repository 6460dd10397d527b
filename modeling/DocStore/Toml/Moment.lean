/-
Dates and times in TOML documents.

* `Toml.daysIn` — the length of a month;
* `Toml.date?`, `Toml.time?` — a day or a time at the beginning of a text, and the rest of it;
* `Toml.moment?` — a whole text: a day, a time, or both, after which may stand how far the clocks
  are ahead of universal time.
-/

import DocStore.Toml.Number

set_option autoImplicit false

namespace DocStore

namespace Toml

/-! ### The calendar -/

/-- Whether a year has a 29th of February. -/
def isLeap (year : Nat) : Bool :=
  year % 4 == 0 && (year % 100 != 0 || year % 400 == 0)

/-- How many days a month has. -/
def daysIn (year month : Nat) : Nat :=
  if month = 2 then (if isLeap year then 29 else 28)
  else if month = 4 ∨ month = 6 ∨ month = 9 ∨ month = 11 then 30
  else 31

/-! ### The parts -/

/-- The number that digits denote, without underscores. -/
def plainDigits? (digits : List Char) : Option Nat :=
  if digits.all isDigit then natural? 10 digits else none

/-- The number that two digits denote, when it is between the least and the greatest. -/
def two? (a b : Char) (least greatest : Nat) : Option Nat :=
  match plainDigits? [a, b] with
  | some n => if least ≤ n ∧ n ≤ greatest then some n else none
  | none => none

/-- The day at the beginning of a text, and what follows it. -/
def date? : List Char → Option (Date × List Char)
  | a :: b :: c :: d :: '-' :: e :: f :: '-' :: g :: h :: rest =>
      match plainDigits? [a, b, c, d], two? e f 1 12 with
      | some year, some month =>
          (two? g h 1 (daysIn year month)).map fun day => (⟨year, month, day⟩, rest)
      | _, _ => none
  | _ => none

/-- The billionths that the digits after a point denote; those after the ninth are dropped. -/
def nanoseconds (digits : List Char) : Nat :=
  let kept := digits.take 9
  (plainDigits? kept).getD 0 * Nat.pow 10 (9 - kept.length)

/-- The time at the beginning of a text, and what follows it. -/
def time? : List Char → Option (Time × List Char)
  | a :: b :: ':' :: c :: d :: ':' :: e :: f :: rest =>
      match two? a b 0 23, two? c d 0 59, two? e f 0 60 with
      | some hour, some minute, some second =>
          match rest with
          | '.' :: rest =>
              let digits := rest.takeWhile isDigit
              if digits.isEmpty then none
              else some (⟨hour, minute, second, nanoseconds digits⟩, rest.dropWhile isDigit)
          | _ => some (⟨hour, minute, second, 0⟩, rest)
      | _, _, _ => none
  | _ => none

/-- How many minutes the hours and minutes of a text are. -/
def minutes? : List Char → Option Int
  | [a, b, ':', c, d] =>
      match two? a b 0 23, two? c d 0 59 with
      | some hour, some minute => some (hour * 60 + minute : Nat)
      | _, _ => none
  | _ => none

/-- How many minutes the clocks are ahead, as a text says. -/
def ahead? : List Char → Option Int
  | ['Z'] => some 0
  | ['z'] => some 0
  | '+' :: rest => minutes? rest
  | '-' :: rest => (minutes? rest).map (- ·)
  | _ => none

/-! ### Points in time -/

/-- The time of a day that a text is, with or without an offset. -/
def onDay? (day : Date) (text : List Char) : Option Moment :=
  match time? text with
  | some (time, []) => some (.local day time)
  | some (time, rest) => (ahead? rest).map (.instant day time)
  | none => none

/-- The point in time that a text denotes.  Between a day and a time stands a letter or a blank. -/
def moment? (text : List Char) : Option Moment :=
  match date? text with
  | some (day, []) => some (.date day)
  | some (day, c :: rest) => if c = 'T' ∨ c = 't' ∨ c = ' ' then onDay? day rest else none
  | none =>
      match time? text with
      | some (time, []) => some (.time time)
      | _ => none

end Toml

end DocStore
