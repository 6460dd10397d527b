/-
Plain documents and what is read from them.

The reader of documents accepts far more than any program writes.  Here is the part of the language
that files of settings are written in: blank lines, comments, headers of one part and natural
numbers given to keys.  A text that is put together from such lines is read as the lines say, with
as many statements as there are headers and entries, and the bound on the number of statements
never gets in the way.

* `Line`, `Line.text`, `Line.chars`, `Line.statement?` — a line, its text, and what it says;
* `Line.Plain` — its key stands without quotes, its comment has plain characters, its number fits
  a signed word of 64 bits;
* `natural?_toDigits`, `integer?_toDigits` — the digits of a number are read as the number;
* `key?_bare`, `value?_toDigits` — the parts of a line;
* `statement?_chars` — a line that says something is read as what it says;
* `statements?_chars`, `parse?_chars` — **the text of plain lines is read as what they say**, by
  induction on the lines.
-/

import DocStore.Toml.Text

set_option autoImplicit false

namespace DocStore

namespace Toml

/-! ### Lines -/

/-- A key that stands without quotes. -/
def IsBare (key : String) : Prop :=
  key.toList ≠ [] ∧ ∀ c ∈ key.toList, inBareKey c = true

-- by the list of the characters, as there is another way through all characters there are
instance (key : String) : Decidable (IsBare key) :=
  @instDecidableAnd _ _ _ (List.decidableBAll _ _)

/-- A line of a plain document. -/
inductive Line
  | blank
  /-- A comment, without the sign that it begins with. -/
  | comment (text : String)
  /-- The header of a table. -/
  | header (key : String)
  /-- A number given to a key. -/
  | entry (key : String) (n : Nat)

namespace Line

/-- The text of a line, without its end. -/
def text : Line → String
  | .blank => ""
  | .comment text => "#" ++ text
  | .header key => "[" ++ key ++ "]"
  | .entry key n => key ++ " = " ++ toString n

/-- The characters of a line, with its end. -/
def chars : Line → List Char
  | .blank => ['\n']
  | .comment text => '#' :: text.toList ++ ['\n']
  | .header key => '[' :: key.toList ++ [']', '\n']
  | .entry key n => key.toList ++ [' ', '=', ' '] ++ Nat.toDigits 10 n ++ ['\n']

/-- What a line says, if anything. -/
def statement? : Line → Option Statement
  | .blank => none
  | .comment _ => none
  | .header key => some (.header [key])
  | .entry key n => some (.entry [key] (.integer (Int64.ofInt n)))

/-- The line can be read as what it says. -/
def Plain : Line → Prop
  | .blank => True
  | .comment text => ∀ c ∈ text.toList, isPlain c = true
  | .header key => IsBare key
  | .entry key n => IsBare key ∧ n < 0x8000000000000000

instance : (line : Line) → Decidable line.Plain
  | .blank => inferInstanceAs (Decidable True)
  | .comment _ => List.decidableBAll _ _
  | .header key => inferInstanceAs (Decidable (IsBare key))
  | .entry key n => inferInstanceAs (Decidable (IsBare key ∧ n < 0x8000000000000000))

end Line

theorem Line.toList_text (line : Line) : line.text.toList ++ ['\n'] = line.chars := by
  cases line with
  | blank => rfl
  | comment words => simp [text, chars]
  | header key => simp [text, chars]
  | entry key n => simp [text, chars, Nat.toList_repr]

/-! ### Digits -/

/-- A decimal digit has the value that it has in Lean. -/
theorem digit?_of_isDigit {c : Char} (h : c.isDigit = true) :
    digit? 10 c = some (c.toNat - '0'.toNat) := by
  have range : '0' ≤ c ∧ c ≤ '9' := by
    simpa [Char.isDigit, Char.le_def] using h
  have small : c.toNat - '0'.toNat < 10 := by
    have : c.toNat ≤ '9'.toNat := range.2
    have : '9'.toNat = '0'.toNat + 9 := rfl
    omega
  simp only [digit?, if_pos range, if_pos small]

theorem ne_of_isDigit {c d : Char} (h : c.isDigit = true) (hd : d.isDigit = false) : c ≠ d := by
  rintro rfl
  rw [h] at hd
  cases hd

/-- Further digits are read on top of those before them. -/
theorem continue?_digits {digits : List Char} (h : ∀ c ∈ digits, c.isDigit = true) (n : Nat) :
    continue? 10 n digits = some (Nat.ofDigitChars 10 digits n) := by
  induction digits generalizing n with
  | nil => rfl
  | cons c digits ih =>
      obtain ⟨hc, hdigits⟩ := List.forall_mem_cons.1 h
      have plain : c ≠ '_' := ne_of_isDigit hc rfl
      rw [continue?]
      · simp only [digit?_of_isDigit hc, ih hdigits, Nat.mul_comm n 10]
        rfl
      · rintro _ _ rfl _
        exact plain rfl

/-- A number is printed in decimal digits. -/
theorem isDigit_of_mem {n : Nat} {c : Char} (h : c ∈ Nat.toDigits 10 n) : c.isDigit = true :=
  Nat.isDigit_of_mem_toDigits (by decide) (by decide) h

/-- A number is printed with at least one digit. -/
theorem exists_digit (n : Nat) :
    ∃ c rest, Nat.toDigits 10 n = c :: rest ∧ c.isDigit = true := by
  obtain ⟨c, rest, h⟩ := List.exists_cons_of_ne_nil (Nat.toDigits_ne_nil (n := n) (b := 10))
  exact ⟨c, rest, h, isDigit_of_mem (h ▸ List.mem_cons_self)⟩

/-- The digits of a number are read as the number. -/
theorem natural?_toDigits (n : Nat) : natural? 10 (Nat.toDigits 10 n) = some n := by
  have digits : ∀ c ∈ Nat.toDigits 10 n, c.isDigit = true := fun _ hc => isDigit_of_mem hc
  have value : Nat.ofDigitChars 10 (Nat.toDigits 10 n) 0 = n := Nat.ofDigitChars_ten_toDigits
  obtain ⟨c, rest, h, hc⟩ := exists_digit n
  rw [h] at digits value ⊢
  obtain ⟨-, hrest⟩ := List.forall_mem_cons.1 digits
  rw [Nat.ofDigitChars, List.foldl_cons, Nat.mul_zero, Nat.zero_add] at value
  simp only [natural?, digit?_of_isDigit hc, continue?_digits hrest]
  exact congrArg some value

/-- Only zero has digits that begin with a zero. -/
theorem eq_nil_of_toDigits {n : Nat} {rest : List Char} (h : Nat.toDigits 10 n = '0' :: rest) :
    rest = [] := by
  induction n using Nat.strongRecOn generalizing rest with
  | _ n ih =>
      by_cases small : n < 10
      · rw [Nat.toDigits_of_lt_base small] at h
        exact (List.cons.inj h).2.symm
      · rw [Nat.toDigits_of_base_le (by decide) (Nat.le_of_not_lt small)] at h
        obtain ⟨c, others, first, -⟩ := exists_digit (n / 10)
        rw [first] at h
        obtain ⟨rfl, -⟩ := List.cons.inj h
        have none := ih (n / 10) (by omega) first
        -- the number without its last digit would be zero
        have value : Nat.ofDigitChars 10 (Nat.toDigits 10 (n / 10)) 0 = n / 10 :=
          Nat.ofDigitChars_ten_toDigits
        rw [first, none] at value
        have zero : n / 10 = 0 := value.symm
        omega

/-- The digits of a number are a decimal number without a zero in front. -/
theorem decimal?_toDigits (n : Nat) : decimal? (Nat.toDigits 10 n) = some n := by
  rw [decimal?, natural?_toDigits]
  intro c rest h
  exact List.cons_ne_nil _ _ (eq_nil_of_toDigits h)

/-- **The digits of a number that fits are read as the integer.** -/
theorem integer?_toDigits {n : Nat} (h : n < 0x8000000000000000) :
    integer? (Nat.toDigits 10 n) = some (Int64.ofInt n) := by
  have fits : word? n = some (Int64.ofInt n) := if_pos ⟨by omega, by omega⟩
  -- no sign and no letter of a radix is a digit
  have sign : ∀ {c : Char}, c.isDigit = false → c ∉ Nat.toDigits 10 n := fun h hc =>
    ne_of_isDigit (isDigit_of_mem hc) h rfl
  rw [integer?]
  · rw [decimal?_toDigits, Option.bind_some, fits]
  · exact fun _ h => sign (c := 'x') rfl (by simp [h])
  · exact fun _ h => sign (c := 'o') rfl (by simp [h])
  · exact fun _ h => sign (c := 'b') rfl (by simp [h])
  · exact fun _ h => sign (c := '+') rfl (by simp [h])
  · exact fun _ h => sign (c := '-') rfl (by simp [h])

/-! ### Keys and values -/

/-- A key without quotes begins with one of its characters. -/
theorem IsBare.exists_cons {key : String} (bare : IsBare key) :
    ∃ c rest, key.toList = c :: rest ∧ inBareKey c = true := by
  obtain ⟨c, rest, h⟩ := List.exists_cons_of_ne_nil bare.1
  exact ⟨c, rest, h, bare.2 c (h ▸ List.mem_cons_self)⟩

/-- A character that stands in no key is not the first one of a key. -/
theorem IsBare.append_ne_cons {key : String} (bare : IsBare key) {c : Char}
    (h : inBareKey c = false) (rest other : List Char) : key.toList ++ rest ≠ c :: other := by
  obtain ⟨first, more, hkey, hfirst⟩ := bare.exists_cons
  intro eq
  rw [hkey] at eq
  obtain ⟨rfl, -⟩ := List.cons.inj eq
  rw [h] at hfirst
  cases hfirst

/-- A key without quotes is read up to its end. -/
theorem keyPart?_bare {key : String} (bare : IsBare key) {rest : List Char}
    (stop : rest.head?.all (!inBareKey ·) = true) :
    keyPart? (key.toList ++ rest) = some (key, rest) := by
  have all := bare.2
  have none : rest.takeWhile inBareKey = [] := by
    cases rest with
    | nil => rfl
    | cons c rest => exact List.takeWhile_cons_of_neg (by simpa using stop)
  have keep : rest.dropWhile inBareKey = rest := by
    cases rest with
    | nil => rfl
    | cons c rest => exact List.dropWhile_cons_of_neg (by simpa using stop)
  have taken : (key.toList ++ rest).takeWhile inBareKey = key.toList := by
    rw [List.takeWhile_append_of_pos all, none, List.append_nil]
  have dropped : (key.toList ++ rest).dropWhile inBareKey = rest := by
    rw [List.dropWhile_append_of_pos all, keep]
  rw [keyPart?]
  · simp only [taken, dropped, List.isEmpty_iff, if_neg bare.1, String.ofList_toList]
  · exact fun other => bare.append_ne_cons rfl rest other
  · exact fun other => bare.append_ne_cons rfl rest other

/-- A character of a key is no blank. -/
theorem isBlank_eq_false_of_bare {c : Char} (h : inBareKey c = true) : isBlank c = false := by
  rw [isBlank, Bool.or_eq_false_iff, beq_eq_false_iff_ne, beq_eq_false_iff_ne]
  constructor
  · rintro rfl
    exact absurd h (by decide)
  · rintro rfl
    exact absurd h (by decide)

/-- A text that begins with a key has no blanks in front. -/
theorem skipBlanks_bare {key : String} (bare : IsBare key) (rest : List Char) :
    skipBlanks (key.toList ++ rest) = key.toList ++ rest := by
  obtain ⟨c, more, hkey, hc⟩ := bare.exists_cons
  rw [hkey]
  exact List.dropWhile_cons_of_neg (by simp [isBlank_eq_false_of_bare hc])

/-- A key without quotes and without dots is read as itself. -/
theorem key?_bare {key : String} (bare : IsBare key) {rest : List Char}
    (stop : rest.head?.all (!inBareKey ·) = true) (single : (skipBlanks rest).head? ≠ some '.') :
    key? (key.toList ++ rest) = some ([key], skipBlanks rest) := by
  have one : ∀ most, keyParts? (most + 1) (key.toList ++ rest) = some ([key], skipBlanks rest) := by
    intro most
    simp only [keyParts?, skipBlanks_bare bare, keyPart?_bare bare stop]
    split
    · rename_i more point
      exact absurd (congrArg List.head? point) single
    · rfl
  exact one 78

/-- A number in front of the end of the line is a value. -/
theorem value?_toDigits {n : Nat} (h : n < 0x8000000000000000) (most room : Nat)
    (rest : List Char) :
    value? most room (Nat.toDigits 10 n ++ '\n' :: rest)
      = some (.integer (Int64.ofInt n), '\n' :: rest) := by
  have inWords : ∀ c ∈ Nat.toDigits 10 n, inWord c = true := fun c hc => by
    simp [inWord, Char.isAlphanum, isDigit_of_mem hc]
  obtain ⟨c, more, hn, hc⟩ := exists_digit n
  have word : word (Nat.toDigits 10 n ++ '\n' :: rest) = (Nat.toDigits 10 n, '\n' :: rest) := by
    have stop : inWord '\n' = false := rfl
    simp only [Toml.word, List.takeWhile_append_of_pos inWords,
      List.dropWhile_append_of_pos inWords, List.takeWhile_cons, List.dropWhile_cons, stop,
      Bool.false_eq_true, if_false, List.append_nil]
    rfl
  have value : ofWord? (Nat.toDigits 10 n) = some (.integer (Int64.ofInt n)) := by
    have notTrue : Nat.toDigits 10 n ≠ ['t', 'r', 'u', 'e'] := by
      intro h
      exact absurd (isDigit_of_mem (c := 't') (n := n) (by simp [h])) (by decide)
    have notFalse : Nat.toDigits 10 n ≠ ['f', 'a', 'l', 's', 'e'] := by
      intro h
      exact absurd (isDigit_of_mem (c := 'f') (n := n) (by simp [h])) (by decide)
    simp only [ofWord?, if_neg notTrue, if_neg notFalse, integer?_toDigits h]
  -- no quote and no bracket is a digit
  have start : ∀ {d : Char} (other : List Char), d.isDigit = false →
      Nat.toDigits 10 n ++ '\n' :: rest ≠ d :: other := by
    intro d other hd eq
    rw [hn] at eq
    exact ne_of_isDigit hc hd (List.cons.inj eq).1
  have string : string? (Nat.toDigits 10 n ++ '\n' :: rest) = none := by
    rw [string?]
    · exact fun _ => start _ rfl
    · exact fun _ => start _ rfl
    · exact fun _ => start _ rfl
    · exact fun _ => start _ rfl
  rw [value?]
  · simp only [simpleValue?, string, word, value, Option.map_some]
  · exact fun _ _ _ => start _ rfl
  · exact fun _ _ _ => start _ rfl

/-! ### Statements -/

/-- White space and comments in front of a statement are passed over. -/
theorem skipLines_chars {line : Line} (plain : line.Plain) (silent : line.statement? = none)
    (rest : List Char) : skipLines false (line.chars ++ rest) = skipLines false rest := by
  cases line with
  | blank => rfl
  | comment text =>
      have inside : ∀ text : List Char, (∀ c ∈ text, isPlain c = true) →
          skipLines true (text ++ '\n' :: rest) = skipLines false rest := by
        intro text
        induction text with
        | nil => intro _; rfl
        | cons c text ih =>
            intro h
            obtain ⟨hc, htext⟩ := List.forall_mem_cons.1 h
            have inLine : c ≠ '\n' := by
              rintro rfl
              exact absurd hc (by decide)
            rw [List.cons_append, skipLines, if_neg inLine, if_pos hc, ih htext]
      simpa [Line.chars, skipLines, isSpace, isBlank] using inside text.toList plain
  | header key => cases silent
  | entry key n => cases silent

/-- Nothing is passed over in front of a statement. -/
theorem skipLines_of_statement {line : Line} (plain : line.Plain) {statement : Statement}
    (said : line.statement? = some statement) (rest : List Char) :
    skipLines false (line.chars ++ rest) = line.chars ++ rest := by
  cases line with
  | blank => cases said
  | comment text => cases said
  | header key => rfl
  | entry key n =>
      obtain ⟨c, more, hkey, hc⟩ := plain.1.exists_cons
      have inLine : c ≠ '\n' := by
        rintro rfl
        exact absurd hc (by decide)
      have sign : c ≠ '#' := by
        rintro rfl
        exact absurd hc (by decide)
      simp only [Line.chars, hkey, List.cons_append, skipLines, isSpace,
        isBlank_eq_false_of_bare hc, beq_iff_eq, inLine, sign, Bool.false_or, if_false]

/-- **A line that says something is read as what it says**, up to its end. -/
theorem statement?_chars {line : Line} (plain : line.Plain) {statement : Statement}
    (said : line.statement? = some statement) (most : Nat) (rest : List Char) :
    statement? most (line.chars ++ rest) = some (statement, rest) := by
  cases line with
  | blank => cases said
  | comment text => cases said
  | header key =>
      cases said
      have read : key? (key.toList ++ ']' :: '\n' :: rest) = some ([key], ']' :: '\n' :: rest) :=
        key?_bare plain rfl (by simp [skipBlanks, isBlank])
      have text : (Line.header key).chars ++ rest = '[' :: (key.toList ++ ']' :: '\n' :: rest) := by
        simp [Line.chars]
      rw [text, Toml.statement?]
      · simp only [read]
        rfl
      · exact fun _ => IsBare.append_ne_cons plain rfl _ _
  | entry key n =>
      cases said
      obtain ⟨bare, fits⟩ := plain
      have text : (Line.entry key n).chars ++ rest
          = key.toList ++ ' ' :: '=' :: ' ' :: (Nat.toDigits 10 n ++ '\n' :: rest) := by
        simp [Line.chars]
      have read : key? (key.toList ++ ' ' :: '=' :: ' ' :: (Nat.toDigits 10 n ++ '\n' :: rest))
          = some ([key], '=' :: ' ' :: (Nat.toDigits 10 n ++ '\n' :: rest)) :=
        key?_bare bare rfl (by simp [skipBlanks, isBlank])
      have blanks : skipBlanks (' ' :: (Nat.toDigits 10 n ++ '\n' :: rest))
          = Nat.toDigits 10 n ++ '\n' :: rest := by
        obtain ⟨c, more, hn, hc⟩ := exists_digit n
        have keep : isBlank c = false :=
          isBlank_eq_false_of_bare (by simp [inBareKey, Char.isAlphanum, hc])
        rw [hn]
        exact (List.dropWhile_cons_of_pos rfl).trans (List.dropWhile_cons_of_neg (by simp [keep]))
      rw [text, Toml.statement?]
      · simp only [read, entry?, blanks, value?_toDigits fits, Option.map_some]
        rfl
      · exact fun _ => bare.append_ne_cons rfl _ _
      · exact fun _ => bare.append_ne_cons rfl _ _

/-! ### Documents -/

/-- Two texts that differ in what is passed over have the same statements. -/
theorem statementsFrom?_of_skipLines {text other : List Char}
    (h : skipLines false text = skipLines false other) (most left : Nat) :
    statementsFrom? most left text = statementsFrom? most left other := by
  cases left <;> unfold statementsFrom? <;> rw [h]

/-- The lines of a text are read one after the other, if as many statements are admitted. -/
theorem statementsFrom?_chars {lines : List Line} (plain : ∀ line ∈ lines, line.Plain)
    (most : Nat) {left : Nat} (room : (lines.filterMap Line.statement?).length ≤ left) :
    statementsFrom? most left (lines.flatMap Line.chars)
      = some (lines.filterMap Line.statement?) := by
  induction lines generalizing left with
  | nil => cases left <;> rfl
  | cons line lines ih =>
      obtain ⟨first, others⟩ := List.forall_mem_cons.1 plain
      rw [List.flatMap_cons]
      cases said : line.statement? with
      | none =>
          rw [List.filterMap_cons_none said] at room ⊢
          rw [statementsFrom?_of_skipLines (skipLines_chars first said _), ih others room]
      | some statement =>
          rw [List.filterMap_cons_some said] at room ⊢
          obtain ⟨left, rfl⟩ : ∃ n, left = n + 1 := ⟨left - 1, by simp at room; omega⟩
          have start := skipLines_of_statement first said (lines.flatMap Line.chars)
          have read := statement?_chars first said most (lines.flatMap Line.chars)
          have rest := ih others (Nat.le_of_succ_le_succ room)
          cases text : line.chars ++ lines.flatMap Line.chars with
          | nil =>
              rw [text] at read
              cases read
          | cons c more =>
              rw [text] at start read
              unfold statementsFrom?
              simp only [start, read, rest, Option.map_some]

/-- No line is without text. -/
theorem Line.length_chars_pos (line : Line) : 0 < line.chars.length := by
  cases line with
  | entry key n =>
      simp only [Line.chars, List.length_append, List.length_cons, List.length_nil]
      omega
  | _ => exact Nat.zero_lt_succ _

/-- A text has at least as many characters as statements. -/
theorem length_filterMap_statement?_le (lines : List Line) :
    (lines.filterMap Line.statement?).length ≤ (lines.flatMap Line.chars).length := by
  induction lines with
  | nil => exact Nat.le_refl 0
  | cons line lines ih =>
      have pos := line.length_chars_pos
      rw [List.flatMap_cons, List.length_append]
      cases said : line.statement? with
      | none =>
          rw [List.filterMap_cons_none said]
          omega
      | some statement =>
          rw [List.filterMap_cons_some said, List.length_cons]
          omega

/-- **The statements of a text of plain lines are those that the lines say.** -/
theorem statements?_chars {lines : List Line} (plain : ∀ line ∈ lines, line.Plain) :
    statements? (lines.flatMap Line.chars) = some (lines.filterMap Line.statement?) :=
  statementsFrom?_chars plain _ (length_filterMap_statement?_le lines)

/-- A text without carriage returns has the ends of its lines as they should be. -/
theorem unifyLines?_eq_some {text : List Char} (h : ∀ c ∈ text, c ≠ '\r') :
    unifyLines? text = some text := by
  induction text with
  | nil => rfl
  | cons c text ih =>
      obtain ⟨hc, htext⟩ := List.forall_mem_cons.1 h
      rw [unifyLines?, if_neg hc, ih htext, Option.map_some]
      rintro _ rfl
      exact fun _ => hc rfl

/-- No line has a carriage return in it. -/
theorem Line.Plain.ne_return {line : Line} (plain : line.Plain) : ∀ c ∈ line.chars, c ≠ '\r' := by
  rintro _ h rfl
  cases line with
  | blank => simp [Line.chars] at h
  | comment text =>
      have inside : '\r' ∈ text.toList := by simpa [Line.chars] using h
      exact absurd (plain _ inside) (by decide)
  | header key =>
      have inside : '\r' ∈ key.toList := by simpa [Line.chars] using h
      exact absurd (plain.2 _ inside) (by decide)
  | entry key n =>
      have inside : '\r' ∈ key.toList ∨ '\r' ∈ Nat.toDigits 10 n := by simpa [Line.chars] using h
      cases inside with
      | inl inside => exact absurd (plain.1.2 _ inside) (by decide)
      | inr inside => exact absurd (isDigit_of_mem inside) (by decide)

/-- No line begins with a mark. -/
theorem Line.Plain.withoutMark {line : Line} (plain : line.Plain) (rest : List Char) :
    withoutMark (line.chars ++ rest) = line.chars ++ rest := by
  cases line with
  | blank => rfl
  | comment text => rfl
  | header key => rfl
  | entry key n =>
      obtain ⟨c, more, hkey, hc⟩ := plain.1.exists_cons
      rw [Line.chars, hkey, Toml.withoutMark]
      rintro _ h
      obtain ⟨rfl, -⟩ := List.cons.inj h
      exact absurd hc (by decide)

/-- **A text of plain lines is the document that the lines define.** -/
theorem parse?_chars {lines : List Line} (plain : ∀ line ∈ lines, line.Plain) {text : String}
    (h : text.toList = lines.flatMap Line.chars) :
    parse? text = ofStatements? (lines.filterMap Line.statement?) := by
  have ends : ∀ c ∈ lines.flatMap Line.chars, c ≠ '\r' := by
    intro c hc
    obtain ⟨line, mem, hc⟩ := List.mem_flatMap.1 hc
    exact (plain line mem).ne_return c hc
  have mark : withoutMark (lines.flatMap Line.chars) = lines.flatMap Line.chars := by
    cases lines with
    | nil => rfl
    | cons line lines => exact (plain line List.mem_cons_self).withoutMark _
  rw [parse?, h, mark, unifyLines?_eq_some ends, Option.bind_some, statements?_chars plain,
    Option.bind_some]

end Toml

end DocStore
