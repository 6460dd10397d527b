/-
The texts that are paths.

A path is written as its steps one after another: keys with a dot in front of them, and positions in
brackets; the first key needs no dot, and the whole text may begin with one.  The reader holds to
this grammar but for three liberties: in front of a first key it takes a second dot, after a closing
bracket it takes a key without a dot, and it takes a plus sign in front of the digits of a position.
The grammar here is one for both manners, with a `Leniency` that says which liberties are allowed.

The reader goes character by character, and what it is in the middle of says which rest it still
accepts (`Completes`); one character more, and the rest is one character shorter.

* `IsKey`, `IsPosition`, `Steps`, `Written` — keys, positions, the steps after the first one, and
  whole texts, with the segments that they say;
* `position?_eq_some_iff` — the reader of positions;
* `scan_eq_ok_iff` — **in every state the reader accepts the rests that complete what is open**;
* `Plain` — the texts that take none of the liberties, said of neighbouring characters;
* `parse_eq_ok_iff` — **the reader accepts exactly the lenient grammar, and on plain texts exactly
  the plain one.**
-/

import DocStore.FieldPath.Parser
import Mathlib.Data.List.Chain

set_option autoImplicit false

namespace DocStore

namespace FieldPath

/-! ### The grammar -/

/-- The liberties that a grammar of paths can allow. -/
structure Leniency where
  /-- A first key may have two dots in front of it. -/
  secondDot : Bool
  /-- A key may follow a closing bracket without a dot. -/
  gluedKey : Bool
  /-- The digits of a position may have a plus sign in front of them. -/
  plusSign : Bool

/-- No liberty. -/
def Leniency.plain : Leniency :=
  ⟨false, false, false⟩

/-- All liberties. -/
def Leniency.lenient : Leniency :=
  ⟨true, true, true⟩

/-- A text is a key: at least one character, and only those that may stand in keys. -/
def IsKey (text : List Char) : Prop :=
  text ≠ [] ∧ ∀ c ∈ text, isKeyChar c = true

/-- A text denotes a position: at least one decimal digit, and only digits, which denote a number
below `2 ^ 64`. -/
def IsPosition (manner : Leniency) (text : List Char) (n : Nat) : Prop :=
  ∃ sign digits, text = sign ++ digits ∧ (sign = [] ∨ manner.plusSign = true ∧ sign = ['+']) ∧
    digits ≠ [] ∧ (∀ c ∈ digits, c.isDigit = true) ∧
    Nat.ofDigitChars 10 digits 0 = n ∧ n < 0x10000000000000000

/-- A text is a sequence of steps after the first one.  A key has a dot in front of it; only where
`glued` says so, the first step may be a key without one. -/
inductive Steps (manner : Leniency) : (glued : Bool) → List Char → List Segment → Prop
  /-- There is no further step. -/
  | nil {glued : Bool} : Steps manner glued [] []
  /-- A key. -/
  | key {glued : Bool} {dot name rest : List Char} {segments : List Segment}
      (dotted : dot = ['.'] ∨ glued = true ∧ dot = []) (named : IsKey name)
      (more : Steps manner false rest segments) :
      Steps manner glued (dot ++ name ++ rest) (.key (String.ofList name) :: segments)
  /-- A position in brackets. -/
  | index {glued : Bool} {text rest : List Char} {n : Nat} {segments : List Segment}
      (position : IsPosition manner text n) (more : Steps manner manner.gluedKey rest segments) :
      Steps manner glued ('[' :: text ++ ']' :: rest) (.index n :: segments)

/-- A text is a path with these segments: nothing, or a first step, after a dot or not, and the
steps after it. -/
inductive Written (manner : Leniency) : List Char → List Segment → Prop
  /-- The path without a step. -/
  | nil : Written manner [] []
  /-- A path that begins with a key. -/
  | key {dots name rest : List Char} {segments : List Segment}
      (dotted : dots = [] ∨ dots = ['.'] ∨ manner.secondDot = true ∧ dots = ['.', '.'])
      (named : IsKey name) (more : Steps manner false rest segments) :
      Written manner (dots ++ name ++ rest) (.key (String.ofList name) :: segments)
  /-- A path that begins with a position. -/
  | index {dots text rest : List Char} {n : Nat} {segments : List Segment}
      (dotted : dots = [] ∨ dots = ['.']) (position : IsPosition manner text n)
      (more : Steps manner manner.gluedKey rest segments) :
      Written manner (dots ++ '[' :: text ++ ']' :: rest) (.index n :: segments)

/-! ### Characters -/

theorem isKeyChar_dot : isKeyChar '.' = false := by
  decide

theorem isKeyChar_open : isKeyChar '[' = false := by
  decide

theorem isKeyChar_close : isKeyChar ']' = false := by
  decide

theorem ne_dot_of_isKeyChar {c : Char} (h : isKeyChar c = true) : c ≠ '.' := by
  rintro rfl
  cases isKeyChar_dot.symm.trans h

theorem ne_open_of_isKeyChar {c : Char} (h : isKeyChar c = true) : c ≠ '[' := by
  rintro rfl
  cases isKeyChar_open.symm.trans h

theorem ne_close_of_isKeyChar {c : Char} (h : isKeyChar c = true) : c ≠ ']' := by
  rintro rfl
  cases isKeyChar_close.symm.trans h

theorem IsKey.exists_cons {name : List Char} (h : IsKey name) :
    ∃ c rest, name = c :: rest ∧ isKeyChar c = true ∧ ∀ d ∈ rest, isKeyChar d = true := by
  obtain ⟨nonempty, chars⟩ := h
  obtain ⟨c, rest, rfl⟩ := List.exists_cons_of_ne_nil nonempty
  exact ⟨c, rest, rfl, chars c List.mem_cons_self, fun d hd => chars d (List.mem_cons_of_mem c hd)⟩

/-! ### Positions -/

/-- A character between the digits nought and nine is a decimal digit. -/
theorem isDigit_iff (c : Char) : c.isDigit = true ↔ '0' ≤ c ∧ c ≤ '9' := by
  simp only [Char.isDigit, Bool.and_eq_true, decide_eq_true_eq]
  exact Iff.rfl

/-- Digits are read as the number that they denote, whatever has been read before them. -/
theorem digits?_eq_some_iff (text : List Char) (n : Nat) :
    digits? text = some n ↔
      (∀ c ∈ text, c.isDigit = true) ∧ Nat.ofDigitChars 10 text 0 = n := by
  unfold digits?
  generalize 0 = read
  induction text generalizing read with
  | nil => simp [Nat.ofDigitChars]
  | cons c rest ih =>
      rw [List.foldl_cons, Option.bind_some]
      by_cases digit : '0' ≤ c ∧ c ≤ '9'
      · rw [if_pos digit, ih, List.forall_mem_cons, and_iff_right ((isDigit_iff c).2 digit),
          Nat.mul_comm]
        rfl
      · have stuck : ∀ rest : List Char, rest.foldl
            (fun n c => n.bind fun n =>
              if '0' ≤ c ∧ c ≤ '9' then some (n * 10 + (c.toNat - '0'.toNat)) else none)
            (none : Option Nat) = none := by
          intro rest
          induction rest with
          | nil => rfl
          | cons d rest ih => exact ih
        rw [if_neg digit, stuck]
        refine iff_of_false nofun fun h => digit ((isDigit_iff c).1 ?_)
        exact h.1 c List.mem_cons_self

/-- **The reader of positions** takes digits, after a plus sign or not, for a number that fits. -/
theorem position?_eq_some_iff (text : List Char) (n : Nat) :
    position? text = some n ↔ IsPosition .lenient text n := by
  have read : ∀ digits : List Char,
      (if digits.isEmpty then none
        else (digits? digits).filter (· < 0x10000000000000000)) = some n ↔
      digits ≠ [] ∧ (∀ c ∈ digits, c.isDigit = true) ∧
        Nat.ofDigitChars 10 digits 0 = n ∧ n < 0x10000000000000000 := by
    intro digits
    cases digits with
    | nil => simp
    | cons c rest =>
        rw [if_neg (by simp), Option.filter_eq_some_iff, digits?_eq_some_iff]
        simp [and_assoc]
  constructor
  · intro h
    unfold position? at h
    split at h
    · exact ⟨['+'], _, rfl, .inr ⟨rfl, rfl⟩, (read _).1 h⟩
    · exact ⟨[], _, rfl, .inl rfl, (read _).1 h⟩
  · rintro ⟨sign, digits, rfl, rfl | ⟨-, rfl⟩, nonempty, all, value⟩
    · unfold position?
      split
      · rename_i rest signed
        -- a plus sign is no digit
        rw [List.nil_append] at signed
        subst signed
        exact absurd (all '+' List.mem_cons_self) (by decide)
      · exact (read digits).2 ⟨nonempty, all, value⟩
    · exact (read digits).2 ⟨nonempty, all, value⟩

/-- A position is written with digits and a plus sign at most. -/
theorem IsPosition.notMem {manner : Leniency} {text : List Char} {n : Nat}
    (h : IsPosition manner text n) {c : Char} (noDigit : c.isDigit = false) (noPlus : c ≠ '+') :
    c ∉ text := by
  obtain ⟨sign, digits, rfl, signed, -, all, -⟩ := h
  intro mem
  rcases List.mem_append.1 mem with mem | mem
  · rcases signed with rfl | ⟨-, rfl⟩
    · cases mem
    · exact noPlus (List.mem_singleton.1 mem)
  · cases noDigit.symm.trans (all c mem)

/-! ### The states of the reader -/

/-- The rest of a text completes what the reader is in the middle of, and says these segments. -/
def State.Completes : State → List Char → List Segment → Prop
  | .between, rest, segments => Steps .lenient true rest segments
  | .afterDot, rest, segments => ∃ name after more, rest = name ++ after ∧ IsKey name ∧
      segments = .key (String.ofList name) :: more ∧ Steps .lenient false after more
  | .inKey read, rest, segments => ∃ name after more, rest = name ++ after ∧
      (∀ c ∈ name, isKeyChar c = true) ∧
      segments = .key (String.ofList (read.reverse ++ name)) :: more ∧
      Steps .lenient false after more
  | .inBracket _ read, rest, segments => ∃ text after n more, rest = text ++ ']' :: after ∧
      ']' ∉ text ∧ position? (read.reverse ++ text) = some n ∧ segments = .index n :: more ∧
      Steps .lenient true after more

/-- Steps that are not glued on go on no key: they begin with a dot or a bracket. -/
theorem Steps.isKeyChar_eq_false {manner : Leniency} {c : Char} {rest : List Char}
    {segments : List Segment} (h : Steps manner false (c :: rest) segments) :
    isKeyChar c = false := by
  generalize text : c :: rest = chars at h
  cases h with
  | nil => cases text
  | key dotted named more =>
      rcases dotted with rfl | ⟨glued, -⟩
      · rw [(List.cons.inj text).1]
        exact isKeyChar_dot
      · cases glued
  | index position more =>
      rw [(List.cons.inj text).1]
      exact isKeyChar_open

/-- **The first character of further steps** opens what the others complete. -/
theorem steps_cons_iff {glued : Bool} {c : Char} (rest : List Char) (segments : List Segment)
    (position : Nat) (may : glued = true ∨ isKeyChar c = false) :
    Steps .lenient glued (c :: rest) segments ↔
      ∃ state, next c position = .ok state ∧ state.Completes rest segments := by
  constructor
  · intro h
    generalize text : c :: rest = chars at h
    cases h with
    | nil => cases text
    | @key _ dot name after more dotted named steps =>
        rcases dotted with rfl | ⟨-, rfl⟩
        · obtain ⟨rfl, rfl⟩ := List.cons.inj text
          exact ⟨.afterDot, rfl, name, after, more, rfl, named, rfl, steps⟩
        · obtain ⟨d, name, rfl, isKey, others⟩ := named.exists_cons
          obtain ⟨rfl, rfl⟩ := List.cons.inj text
          refine ⟨.inKey [c], ?_, name, after, more, rfl, others, rfl, steps⟩
          rw [next, if_neg (ne_dot_of_isKeyChar isKey), begin, if_neg (ne_open_of_isKeyChar isKey),
            if_pos isKey]
    | @index _ digits after n more isPosition steps =>
        obtain ⟨rfl, rfl⟩ := List.cons.inj text
        exact ⟨.inBracket position [], rfl, digits, after, n, more, rfl,
          isPosition.notMem rfl (by decide), (position?_eq_some_iff digits n).2 isPosition, rfl,
          steps⟩
  · rintro ⟨state, begun, completes⟩
    unfold next begin at begun
    split at begun
    · subst c
      obtain rfl := Except.ok.inj begun
      obtain ⟨name, after, more, rfl, named, rfl, steps⟩ := completes
      exact .key (.inl rfl) named steps
    · split at begun
      · subst c
        obtain rfl := Except.ok.inj begun
        obtain ⟨digits, after, n, more, rfl, -, isPosition, rfl, steps⟩ := completes
        exact .index ((position?_eq_some_iff digits n).1 isPosition) steps
      · split at begun
        · rename_i isKey
          obtain rfl := Except.ok.inj begun
          obtain ⟨name, after, more, rfl, others, rfl, steps⟩ := completes
          have glue : glued = true := may.resolve_right (by simp [isKey])
          exact .key (.inr ⟨glue, rfl⟩)
            ⟨List.cons_ne_nil c name, List.forall_mem_cons.2 ⟨isKey, others⟩⟩ steps
        · cases begun

theorem steps_nil_iff {manner : Leniency} {glued : Bool} {segments : List Segment} :
    Steps manner glued [] segments ↔ segments = [] := by
  constructor
  · intro h
    generalize text : [] = chars at h
    cases h with
    | nil => rfl
    | key dotted named more =>
        obtain ⟨d, name, rfl, -⟩ := named.exists_cons
        simp at text
    | index position more => cases text
  · rintro rfl
    exact .nil

namespace State

/-! ### What completes a state, character by character -/

theorem not_completes_afterDot_nil (segments : List Segment) :
    ¬ afterDot.Completes [] segments := by
  rintro ⟨name, after, more, text, named, -⟩
  exact named.1 (List.append_eq_nil_iff.1 text.symm).1

theorem completes_afterDot_cons (c : Char) (rest : List Char) (segments : List Segment) :
    afterDot.Completes (c :: rest) segments ↔
      isKeyChar c = true ∧ (inKey [c]).Completes rest segments := by
  constructor
  · rintro ⟨name, after, more, text, named, rfl, steps⟩
    obtain ⟨d, name, rfl, isKey, others⟩ := named.exists_cons
    obtain ⟨rfl, rfl⟩ := List.cons.inj text
    exact ⟨isKey, name, after, more, rfl, others, rfl, steps⟩
  · rintro ⟨isKey, name, after, more, rfl, others, rfl, steps⟩
    exact ⟨c :: name, after, more, rfl,
      ⟨List.cons_ne_nil c name, List.forall_mem_cons.2 ⟨isKey, others⟩⟩, rfl, steps⟩

theorem completes_inKey_nil (read : List Char) (segments : List Segment) :
    (inKey read).Completes [] segments ↔ segments = [closeKey read] := by
  constructor
  · rintro ⟨name, after, more, text, -, rfl, steps⟩
    obtain ⟨rfl, rfl⟩ := List.append_eq_nil_iff.1 text.symm
    rw [steps_nil_iff.1 steps, List.append_nil]
    rfl
  · rintro rfl
    exact ⟨[], [], [], rfl, nofun, by rw [List.append_nil]; rfl, .nil⟩

/-- A key goes on as long as there are characters for it, and then the next step begins. -/
theorem completes_inKey_cons (read : List Char) (c : Char) (rest : List Char)
    (segments : List Segment) :
    (inKey read).Completes (c :: rest) segments ↔
      if isKeyChar c then (inKey (c :: read)).Completes rest segments
      else ∃ more, segments = closeKey read :: more ∧ Steps .lenient false (c :: rest) more := by
  constructor
  · rintro ⟨name, after, more, text, chars, rfl, steps⟩
    cases name with
    | nil =>
        obtain rfl : c :: rest = after := text
        rw [steps.isKeyChar_eq_false, if_neg Bool.false_ne_true, List.append_nil]
        exact ⟨more, rfl, steps⟩
    | cons d name =>
        obtain ⟨rfl, rfl⟩ := List.cons.inj text
        obtain ⟨isKey, others⟩ := List.forall_mem_cons.1 chars
        rw [if_pos isKey]
        exact ⟨name, after, more, rfl, others, by simp, steps⟩
  · split
    · rename_i isKey
      rintro ⟨name, after, more, rfl, others, rfl, steps⟩
      exact ⟨c :: name, after, more, rfl, List.forall_mem_cons.2 ⟨isKey, others⟩, by simp, steps⟩
    · rintro ⟨more, rfl, steps⟩
      exact ⟨[], c :: rest, more, rfl, nofun, by rw [List.append_nil]; rfl, steps⟩

theorem not_completes_inBracket_nil (opened : Nat) (read : List Char) (segments : List Segment) :
    ¬ (inBracket opened read).Completes [] segments := by
  rintro ⟨text, after, n, more, closed, -⟩
  simp at closed

/-- A bracket goes on up to the first closing one. -/
theorem completes_inBracket_cons (opened : Nat) (read : List Char) (c : Char) (rest : List Char)
    (segments : List Segment) :
    (inBracket opened read).Completes (c :: rest) segments ↔
      if c = ']' then ∃ n more, position? read.reverse = some n ∧ segments = .index n :: more ∧
        Steps .lenient true rest more
      else (inBracket opened (c :: read)).Completes rest segments := by
  constructor
  · rintro ⟨text, after, n, more, closed, open', position, rfl, steps⟩
    cases text with
    | nil =>
        obtain ⟨rfl, rfl⟩ := List.cons.inj closed
        rw [List.append_nil] at position
        rw [if_pos rfl]
        exact ⟨n, more, position, rfl, steps⟩
    | cons d text =>
        obtain ⟨rfl, rfl⟩ := List.cons.inj closed
        obtain ⟨other, open'⟩ := not_or.1 (mt List.mem_cons.2 open')
        rw [if_neg (Ne.symm other)]
        exact ⟨text, after, n, more, rfl, open', by simpa using position, rfl, steps⟩
  · split
    · subst c
      rintro ⟨n, more, position, rfl, steps⟩
      exact ⟨[], rest, n, more, rfl, List.not_mem_nil, by simpa using position, rfl, steps⟩
    · rename_i other
      rintro ⟨text, after, n, more, rfl, open', position, rfl, steps⟩
      have more' : ']' ∉ c :: text := List.not_mem_cons_of_ne_of_not_mem (Ne.symm other) open'
      exact ⟨c :: text, after, n, more, rfl, more', by simpa using position, rfl, steps⟩

end State

/-! ### The reader -/

/-- **In every state the reader accepts exactly the rests that complete what is open**, and gives
the segments that they say. -/
theorem scan_eq_ok_iff (state : State) (position : Nat) (chars : List Char)
    (segments : List Segment) :
    scan state position chars = .ok segments ↔ state.Completes chars segments := by
  induction chars generalizing state position segments with
  | nil =>
      cases state with
      | between =>
          rw [scan, Except.ok.injEq, eq_comm]
          exact steps_nil_iff.symm
      | afterDot => exact iff_of_false nofun (State.not_completes_afterDot_nil segments)
      | inKey read => rw [scan, State.completes_inKey_nil, Except.ok.injEq, eq_comm]
      | inBracket opened read =>
          exact iff_of_false nofun (State.not_completes_inBracket_nil opened read segments)
  | cons c rest ih =>
      -- a step that begins with this character is read as the rest completes what it opens
      have begins : ∀ {glued : Bool} (segments : List Segment), glued = true ∨ isKeyChar c = false →
          ((∃ state, next c position = .ok state ∧ scan state (position + 1) rest = .ok segments) ↔
            Steps .lenient glued (c :: rest) segments) := by
        intro glued segments may
        simp only [ih]
        exact (steps_cons_iff rest segments position may).symm
      have goesOn : ∀ (segment : Segment) (tail : Except ParseError (List Segment)),
          tail.map (segment :: ·) = .ok segments ↔
            ∃ more, segments = segment :: more ∧ tail = .ok more := by
        intro segment tail
        cases tail <;> simp [Except.map, eq_comm]
      cases state with
      | between =>
          rw [scan, State.Completes, ← begins segments (.inl rfl)]
          cases next c position <;> simp
      | afterDot =>
          rw [scan, State.completes_afterDot_cons]
          split
          · rename_i empty
            refine iff_of_false nofun fun h => ?_
            exact empty.elim (ne_dot_of_isKeyChar h.1) (ne_open_of_isKeyChar h.1)
          · rename_i other
            rw [begin, if_neg (not_or.1 other).2]
            by_cases isKey : isKeyChar c = true
            · simp [isKey, ih]
            · simp [isKey]
      | inKey read =>
          rw [scan, State.completes_inKey_cons]
          by_cases isKey : isKeyChar c = true
          · rw [if_pos isKey, if_pos isKey, ih]
          · rw [if_neg isKey, if_neg isKey]
            simp only [← begins _ (.inr (by simpa using isKey))]
            cases next c position with
            | error e => simp
            | ok state => simp [goesOn]
      | inBracket opened read =>
          rw [scan, State.completes_inBracket_cons]
          by_cases closed : c = ']'
          · rw [if_pos closed, if_pos closed, closeBracket]
            cases position? read.reverse with
            | none => simp
            | some n =>
                simp only [goesOn, ih]
                simp [State.Completes]
          · rw [if_neg closed, if_neg closed, ih]

/-- After a dot at its beginning, a text has to go on with steps, of which the first one may be a
key without a dot or, a second time, one with a dot. -/
theorem written_dot_cons_iff (rest : List Char) (segments : List Segment) :
    Written .lenient ('.' :: rest) segments ↔ rest ≠ [] ∧ Steps .lenient true rest segments := by
  constructor
  · intro h
    generalize text : '.' :: rest = chars at h
    cases h with
    | nil => cases text
    | @key dots name after more dotted named steps =>
        obtain ⟨c, name, rfl, isKey, -⟩ := named.exists_cons
        rcases dotted with rfl | rfl | ⟨-, rfl⟩
        · exact absurd (List.cons.inj text).1.symm (ne_dot_of_isKeyChar isKey)
        · obtain rfl := (List.cons.inj text).2
          exact ⟨List.cons_ne_nil _ _, .key (.inr ⟨rfl, rfl⟩) named steps⟩
        · obtain rfl := (List.cons.inj text).2
          exact ⟨List.cons_ne_nil _ _, .key (.inl rfl) named steps⟩
    | @index dots digits after n more dotted position steps =>
        rcases dotted with rfl | rfl
        · cases text
        · obtain rfl := (List.cons.inj text).2
          exact ⟨List.cons_ne_nil _ _, .index position steps⟩
  · rintro ⟨nonempty, steps⟩
    cases steps with
    | nil => exact absurd rfl nonempty
    | key dotted named more =>
        rcases dotted with rfl | ⟨-, rfl⟩
        · exact .key (.inr (.inr ⟨rfl, rfl⟩)) named more
        · exact .key (.inr (.inl rfl)) named more
    | index position more => exact .index (.inr rfl) position more

/-- A text that does not begin with a dot is one of steps, of which the first one may be a key
without a dot. -/
theorem written_iff_steps {chars : List Char} (undotted : ∀ rest, chars ≠ '.' :: rest)
    (segments : List Segment) :
    Written .lenient chars segments ↔ Steps .lenient true chars segments := by
  constructor
  · intro h
    cases h with
    | nil => exact .nil
    | key dotted named more =>
        rcases dotted with rfl | rfl | ⟨-, rfl⟩
        · exact .key (.inr ⟨rfl, rfl⟩) named more
        · exact absurd rfl (undotted _)
        · exact absurd rfl (undotted _)
    | index dotted position more =>
        rcases dotted with rfl | rfl
        · exact .index position more
        · exact absurd rfl (undotted _)
  · intro h
    cases h with
    | nil => exact .nil
    | key dotted named more =>
        rcases dotted with rfl | ⟨-, rfl⟩
        · exact absurd rfl (undotted _)
        · exact .key (.inl rfl) named more
    | index position more => exact .index (.inl rfl) position more

/-- **A text is read as a path exactly if the lenient grammar has it.** -/
theorem parseChars_eq_ok_iff (chars : List Char) (segments : List Segment) :
    parseChars chars = .ok segments ↔ Written .lenient chars segments := by
  unfold parseChars
  split
  · rw [written_dot_cons_iff]
    exact iff_of_false nofun fun h => h.1 rfl
  · rename_i rest more
    rw [scan_eq_ok_iff, written_dot_cons_iff]
    exact (and_iff_right more).symm
  · rename_i other
    rw [scan_eq_ok_iff, written_iff_steps other]
    rfl

theorem parse_eq_ok_iff_parseChars (text : String) (path : FieldPath) :
    parse text = .ok path ↔ parseChars text.toList = .ok path.segments := by
  obtain ⟨segments⟩ := path
  unfold parse
  cases parseChars text.toList <;> simp [Except.map]

/-! ### Plain texts -/

/-- Two characters can stand next to each other in a path that takes no liberty: no key begins right
after a closing bracket, and no plus sign stands after an opening one. -/
def Neighbours (c d : Char) : Prop :=
  (c = ']' → isKeyChar d = false) ∧ (c = '[' → d ≠ '+')

instance : DecidableRel Neighbours :=
  fun _ _ => inferInstanceAs (Decidable (_ ∧ _))

/-- A text takes none of the liberties: it does not begin with two dots, and no two neighbours in it
belong to a glued key or a signed position. -/
structure Plain (text : List Char) : Prop where
  oneDot : ¬ ['.', '.'] <+: text
  neighbours : text.IsChain Neighbours

theorem neighbours_of_isKeyChar {c : Char} (h : isKeyChar c = true) (d : Char) : Neighbours c d :=
  ⟨fun close => absurd close (ne_close_of_isKeyChar h),
    fun opened => absurd opened (ne_open_of_isKeyChar h)⟩

theorem neighbours_of_isDigit {c : Char} (h : c.isDigit = true) (d : Char) : Neighbours c d := by
  constructor
  · rintro rfl
    exact absurd h (by decide)
  · rintro rfl
    exact absurd h (by decide)

/-- What can have any neighbour can stand in front of anything. -/
theorem isChain_append_of_free {R : Char → Char → Prop} {text rest : List Char}
    (free : ∀ c ∈ text, ∀ d, R c d) (h : rest.IsChain R) : (text ++ rest).IsChain R := by
  induction text with
  | nil => exact h
  | cons c text ih =>
      obtain ⟨first, others⟩ := List.forall_mem_cons.1 free
      exact List.isChain_cons.2 ⟨fun d _ => first d, ih others⟩

theorem IsPosition.lenient {text : List Char} {n : Nat} (h : IsPosition .plain text n) :
    IsPosition .lenient text n := by
  obtain ⟨sign, digits, text, rfl | ⟨signed, -⟩, value⟩ := h
  · exact ⟨[], digits, text, .inl rfl, value⟩
  · cases signed

/-- The plain grammar is part of the lenient one. -/
theorem Steps.lenient {glued may : Bool} {chars : List Char} {segments : List Segment}
    (h : Steps .plain glued chars segments) (still : glued = true → may = true) :
    Steps .lenient may chars segments := by
  induction h generalizing may with
  | nil => exact .nil
  | key dotted named more ih =>
      refine .key ?_ named (ih nofun)
      rcases dotted with rfl | ⟨glue, rfl⟩
      · exact .inl rfl
      · exact .inr ⟨still glue, rfl⟩
  | index position more ih => exact .index position.lenient (ih nofun)

theorem Written.lenient {chars : List Char} {segments : List Segment}
    (h : Written .plain chars segments) : Written .lenient chars segments := by
  cases h with
  | nil => exact .nil
  | key dotted named more =>
      refine .key ?_ named (more.lenient nofun)
      rcases dotted with rfl | rfl | ⟨second, -⟩
      · exact .inl rfl
      · exact .inr (.inl rfl)
      · cases second
  | index dotted position more => exact .index dotted position.lenient (more.lenient nofun)

/-- Digits in brackets are plain where what follows them is, and does not begin with a key. -/
theorem IsPosition.neighbours {text rest : List Char} {n : Nat} (h : IsPosition .plain text n)
    (more : rest.IsChain Neighbours) (ends : ∀ c ∈ rest.head?, isKeyChar c = false) :
    ('[' :: text ++ ']' :: rest).IsChain Neighbours := by
  obtain ⟨sign, digits, rfl, rfl | ⟨signed, -⟩, nonempty, all, -⟩ := h
  · rw [List.nil_append]
    have closed : (']' :: rest).IsChain Neighbours :=
      List.isChain_cons.2 ⟨fun c hc => ⟨fun _ => ends c hc, nofun⟩, more⟩
    refine List.isChain_cons.2 ⟨fun c hc => ⟨nofun, fun _ => ?_⟩,
      isChain_append_of_free (fun c hc => neighbours_of_isDigit (all c hc)) closed⟩
    obtain ⟨d, digits, rfl⟩ := List.exists_cons_of_ne_nil nonempty
    obtain rfl : d = c := Option.some.inj hc
    rintro rfl
    exact absurd (all '+' List.mem_cons_self) (by decide)
  · cases signed

/-- Further steps of the plain grammar take no liberty. -/
theorem Steps.neighbours {chars : List Char} {segments : List Segment}
    (h : Steps .plain false chars segments) : chars.IsChain Neighbours := by
  generalize unglued : false = glued at h
  induction h with
  | nil => exact .nil
  | key dotted named more ih =>
      have name := isChain_append_of_free
        (fun c hc => neighbours_of_isKeyChar (named.2 c hc)) (ih rfl)
      rcases dotted with rfl | ⟨glue, -⟩
      · exact List.isChain_cons.2 ⟨fun c _ => ⟨nofun, nofun⟩, name⟩
      · rw [← unglued] at glue
        cases glue
  | @index _ text rest n segments position more ih =>
      refine position.neighbours (ih rfl) fun c hc => ?_
      obtain ⟨after, rfl⟩ := List.head?_eq_some_iff.1 hc
      exact more.isKeyChar_eq_false

/-- A position is plain if no plus sign stands after the opening bracket. -/
theorem IsPosition.plain {text rest : List Char} {n : Nat} (h : IsPosition .lenient text n)
    (unsigned : ('[' :: text ++ rest).IsChain Neighbours) : IsPosition .plain text n := by
  obtain ⟨sign, digits, rfl, rfl | ⟨-, rfl⟩, value⟩ := h
  · exact ⟨[], digits, rfl, .inl rfl, value⟩
  · have next := (List.isChain_cons_cons.1 unsigned).1
    exact absurd rfl (next.2 rfl)

/-- Further steps that take no liberty are those of the plain grammar, if they do not begin with a
glued key. -/
theorem Steps.plain {glued : Bool} {chars : List Char} {segments : List Segment}
    (h : Steps .lenient glued chars segments) (apart : chars.IsChain Neighbours)
    (unglued : glued = true → ∀ c ∈ chars.head?, isKeyChar c = false) :
    Steps .plain false chars segments := by
  induction h with
  | nil => exact .nil
  | @key _ dot name rest segments dotted named more ih =>
      rcases dotted with rfl | ⟨glue, rfl⟩
      · exact .key (.inl rfl) named (ih (List.isChain_append.1 apart).2.1 nofun)
      · obtain ⟨c, name, rfl, isKey, -⟩ := named.exists_cons
        exact absurd (unglued glue c rfl) (by simp [isKey])
  | @index _ text rest n segments position more ih =>
      obtain ⟨after, others⟩ := List.isChain_cons.1 (List.isChain_append.1 apart).2.1
      exact .index (position.plain apart) (ih others fun _ c hc => (after c hc).1 rfl)

/-- A text of the plain grammar takes no liberty. -/
theorem Written.isPlain {chars : List Char} {segments : List Segment}
    (h : Written .plain chars segments) : Plain chars := by
  cases h with
  | nil => exact ⟨by simp, .nil⟩
  | @key dots name rest segments dotted named more =>
      obtain ⟨c, name, rfl, isKey, -⟩ := named.exists_cons
      have noDot : '.' ≠ c := (ne_dot_of_isKeyChar isKey).symm
      -- with a dot in front of it, the first key is as the others
      have apart : ('.' :: (c :: name ++ rest)).IsChain Neighbours :=
        (Steps.key (.inl rfl) named more).neighbours
      rcases dotted with rfl | rfl | ⟨second, -⟩
      · exact ⟨by simp [noDot], (List.isChain_cons.1 apart).2⟩
      · exact ⟨by simp [noDot], apart⟩
      · cases second
  | @index dots text rest n segments dotted position more =>
      have apart : ('[' :: text ++ ']' :: rest).IsChain Neighbours :=
        (Steps.index position more).neighbours
      rcases dotted with rfl | rfl
      · exact ⟨by simp, apart⟩
      · exact ⟨by simp, List.isChain_cons.2 ⟨fun _ _ => ⟨nofun, nofun⟩, apart⟩⟩

/-- A text of the lenient grammar that takes no liberty is one of the plain grammar. -/
theorem Written.plain {chars : List Char} {segments : List Segment}
    (h : Written .lenient chars segments) (plain : Plain chars) :
    Written .plain chars segments := by
  obtain ⟨oneDot, apart⟩ := plain
  cases h with
  | nil => exact .nil
  | @key dots name rest segments dotted named more =>
      have steps := more.plain (List.isChain_append.1 apart).2.1 nofun
      rcases dotted with rfl | rfl | ⟨-, rfl⟩
      · exact .key (.inl rfl) named steps
      · exact .key (.inr (.inl rfl)) named steps
      · exact absurd (List.prefix_append ['.', '.'] (name ++ rest)) oneDot
  | @index dots text rest n segments dotted position more =>
      rw [List.append_assoc] at apart
      have bracket := (List.isChain_append.1 apart).2.1
      obtain ⟨after, others⟩ := List.isChain_cons.1 (List.isChain_append.1 bracket).2.1
      exact .index dotted (position.plain bracket)
        (more.plain others fun _ c hc => (after c hc).1 rfl)

/-! ### Dots -/

/-- No key is empty, but one in front of a first key: the text does not end with a dot, and no two
dots follow each other after the first character. -/
structure Dotted (text : List Char) : Prop where
  ending : text.getLast? ≠ some '.'
  apart : text.tail.IsChain fun c d => ¬ (c = '.' ∧ d = '.')

/-- In further steps no key is empty: none of their dots is the last character or has another dot
behind it. -/
theorem Steps.dotted {manner : Leniency} {glued : Bool} {chars : List Char}
    {segments : List Segment} (h : Steps manner glued chars segments) :
    chars.getLast? ≠ some '.' ∧ chars.IsChain fun c d => ¬ (c = '.' ∧ d = '.') := by
  induction h with
  | nil => exact ⟨by simp, .nil⟩
  | @key _ dot name rest segments dotted named more ih =>
      obtain ⟨ending, apart⟩ := ih
      have noDot : ∀ c ∈ name, c ≠ '.' := fun c hc => ne_dot_of_isKeyChar (named.2 c hc)
      refine ⟨fun last => ?_, ?_⟩
      · rw [List.getLast?_append, Option.or_eq_some_iff] at last
        rcases last with last | ⟨-, last⟩
        · exact ending last
        · rw [List.getLast?_append_of_ne_nil _ named.1] at last
          exact noDot '.' (List.mem_of_getLast? last) rfl
      · have free : (name ++ rest).IsChain fun c d => ¬ (c = '.' ∧ d = '.') :=
          isChain_append_of_free (fun c hc d dots => noDot c hc dots.1) apart
        rcases dotted with rfl | ⟨-, rfl⟩
        · refine List.isChain_cons.2 ⟨fun c hc dots => ?_, free⟩
          obtain ⟨d, name, rfl, -⟩ := named.exists_cons
          exact noDot d List.mem_cons_self ((Option.some.inj hc).trans dots.2)
        · exact free
  | @index _ text rest n segments position more ih =>
      obtain ⟨ending, apart⟩ := ih
      have noDot : ∀ c ∈ '[' :: text ++ [']'], c ≠ '.' := by
        rintro c hc rfl
        have inside : '.' ∉ text := position.notMem rfl (by decide)
        simp [inside] at hc
      rw [List.append_cons]
      refine ⟨fun last => ?_, isChain_append_of_free (fun c hc d dots => noDot c hc dots.1) apart⟩
      rw [List.getLast?_append, Option.or_eq_some_iff] at last
      rcases last with last | ⟨-, last⟩
      · exact ending last
      · exact noDot '.' (List.mem_of_getLast? last) rfl

/-- In a path no key is empty, but one in front of a first key. -/
theorem Written.isDotted {chars : List Char} {segments : List Segment}
    (h : Written .lenient chars segments) : Dotted chars := by
  by_cases dot : ∃ rest, chars = '.' :: rest
  · obtain ⟨rest, rfl⟩ := dot
    obtain ⟨nonempty, steps⟩ := (written_dot_cons_iff rest segments).1 h
    refine ⟨?_, steps.dotted.2⟩
    rw [← List.singleton_append, List.getLast?_append_of_ne_nil _ nonempty]
    exact steps.dotted.1
  · have steps := (written_iff_steps (not_exists.1 dot) segments).1 h
    exact ⟨steps.dotted.1, steps.dotted.2.tail⟩

/-! ### Texts -/

/-- **The reader accepts exactly the lenient grammar**, with the segments that it says.  On texts
that take none of the liberties this is the plain grammar, and texts that take one are not plain
paths; and in any text that is accepted, no key is empty but one in front of a first key. -/
theorem parse_eq_ok_iff (text : String) (path : FieldPath) :
    (parse text = .ok path ↔ Written .lenient text.toList path.segments) ∧
    (Written .plain text.toList path.segments ↔ parse text = .ok path ∧ Plain text.toList) ∧
    (parse text = .ok path → Dotted text.toList) := by
  have accepts : parse text = .ok path ↔ Written .lenient text.toList path.segments :=
    (parse_eq_ok_iff_parseChars text path).trans (parseChars_eq_ok_iff _ _)
  refine ⟨accepts, ⟨fun h => ⟨accepts.2 h.lenient, h.isPlain⟩, fun h => ?_⟩, fun h => ?_⟩
  · exact (accepts.1 h.1).plain h.2
  · exact (accepts.1 h).isDotted

/-- A text that takes all the liberties is a path, and not a plain one. -/
theorem parse_eq_ok_iff_of_liberties :
    let segments : List Segment := [.key "a", .index 1, .key "b"]
    Written .lenient "..a[+1]b".toList segments ∧ Dotted "..a[+1]b".toList ∧
      ¬ Written .plain "..a[+1]b".toList segments := by
  intro segments
  obtain ⟨accepts, plain, dotted⟩ := parse_eq_ok_iff "..a[+1]b" ⟨segments⟩
  have read : parse "..a[+1]b" = .ok ⟨segments⟩ := by decide
  exact ⟨accepts.1 read, dotted read, fun h => (plain.1 h).2.oneDot (by decide)⟩

/-- Each of the liberties lets a text be a path that the plain grammar does not have: two dots at
the beginning, a key glued to a bracket, and a signed position. -/
theorem parse_of_not_plain :
    (parse "..a" = .ok ⟨[.key "a"]⟩ ∧ ∀ segments, ¬ Written .plain "..a".toList segments) ∧
    (parse "[0]a" = .ok ⟨[.index 0, .key "a"]⟩ ∧
      ∀ segments, ¬ Written .plain "[0]a".toList segments) ∧
    (parse "[+0]" = .ok ⟨[.index 0]⟩ ∧ ∀ segments, ¬ Written .plain "[+0]".toList segments) := by
  refine ⟨⟨by decide, fun _ h => ?_⟩, ⟨by decide, fun _ h => ?_⟩, ⟨by decide, fun _ h => ?_⟩⟩
  · exact h.isPlain.oneDot (by decide)
  · exact absurd h.isPlain.neighbours (by decide)
  · exact absurd h.isPlain.neighbours (by decide)

end FieldPath

end DocStore
