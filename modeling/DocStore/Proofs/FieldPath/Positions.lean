/-
Where a text stops being a path.

Every error of the reader names a position, and says something about the characters there.  This
module proves that what it says is so, for every text.  The invariant goes with the states of the
reader: behind an open bracket stands all that was read since, and behind a dot the dot.

That no character is asked for behind the end of the text cannot be said of a reader that is handed
its characters one by one.  So the same reader is written down once more, going by positions: it
asks for the character at a position, as often as it likes and wherever it has gone on to, and to
ask where there is none is an outcome of its own.

* `ParseError.Describes` — what an error says of a text;
* `State.Behind` — what stands in front of a position where the reader is in a state;
* `describes_of_scan` — **the errors of the reader describe the text**;
* `ByPosition.Stop`, `ByPosition.parse` — the reader that goes by positions, and how it can end;
* `ByPosition.step_spec` — **one step read by positions is one step read by characters**;
* `parse_error_describes` — **errors tell the truth, and nothing is read past the end.**
-/

import DocStore.Proofs.FieldPath.Grammar

set_option autoImplicit false

namespace DocStore

namespace FieldPath

/-! ### What errors say -/

/-- What an error says of a text, whose characters are counted from 0. -/
def ParseError.Describes (text : List Char) : ParseError → Prop
  | .emptyKey position =>
      0 < position ∧ text[position - 1]? = some '.' ∧
        (position = text.length ∨ text[position]? = some '.' ∨ text[position]? = some '[')
  | .unclosedBracket position =>
      text[position]? = some '[' ∧ ∀ i, position < i → text[i]? ≠ some ']'
  | .invalidIndex position inside =>
      0 < position ∧ text[position - 1]? = some '[' ∧
        (∃ close, position ≤ close ∧ text[close]? = some ']' ∧
          (∀ i, position ≤ i → i < close → text[i]? ≠ some ']') ∧
          inside.toList = (text.drop position).take (close - position)) ∧
        ∀ n, ¬ IsPosition .lenient inside.toList n
  | .unexpectedChar char position =>
      text[position]? = some char ∧ isKeyChar char = false ∧ char ≠ '[' ∧ char ≠ '.'
  | .root => text = []

section Describing

variable {before rest : List Char}

/-- The character behind a part of a text. -/
theorem getElem?_length_append (before : List Char) (c : Char) (rest : List Char) :
    (before ++ c :: rest)[before.length]? = some c := by
  rw [List.getElem?_append_right (Nat.le_refl _), Nat.sub_self, List.getElem?_cons_zero]

/-- A character that does not occur behind a part of a text is at no position there. -/
theorem getElem?_ne_of_notMem {c : Char} (missing : c ∉ rest) {i : Nat}
    (behind : before.length ≤ i) : (before ++ rest)[i]? ≠ some c := by
  rw [List.getElem?_append_right behind]
  exact fun there => missing (List.mem_of_getElem? there)

theorem describes_emptyKey (ends : ∀ c ∈ rest.head?, c = '.' ∨ c = '[') :
    (ParseError.emptyKey (before.length + 1)).Describes (before ++ '.' :: rest) := by
  refine ⟨Nat.succ_pos _, getElem?_length_append before '.' rest, ?_⟩
  rw [List.append_cons]
  cases rest with
  | nil => exact .inl (by simp)
  | cons c rest =>
      have there := getElem?_length_append (before ++ ['.']) c rest
      rw [List.length_append] at there
      rcases ends c rfl with rfl | rfl
      · exact .inr (.inl there)
      · exact .inr (.inr there)

theorem describes_unclosedBracket (open' : ']' ∉ rest) :
    (ParseError.unclosedBracket before.length).Describes (before ++ '[' :: rest) := by
  refine ⟨getElem?_length_append before '[' rest, fun i behind => ?_⟩
  rw [List.append_cons]
  exact getElem?_ne_of_notMem open' (by simpa using Nat.succ_le_of_lt behind)

theorem describes_invalidIndex {inside : List Char} (open' : ']' ∉ inside)
    (noPosition : position? inside = none) :
    (ParseError.invalidIndex (before.length + 1) (String.ofList inside)).Describes
      (before ++ '[' :: (inside ++ ']' :: rest)) := by
  rw [List.append_cons]
  have opened : (before ++ ['[']).length = before.length + 1 := by simp
  refine ⟨Nat.succ_pos _, ?_,
    ⟨before.length + 1 + inside.length, Nat.le_add_right _ _, ?_, fun i from' upTo => ?_, ?_⟩, ?_⟩
  · rw [← List.append_cons]
    exact getElem?_length_append before '[' _
  · rw [← opened, ← List.length_append, ← List.append_assoc]
    exact getElem?_length_append (before ++ ['['] ++ inside) ']' rest
  · -- up to the closing bracket the text is what stands inside
    rw [← List.append_assoc, List.getElem?_append_left (by rwa [List.length_append, opened])]
    exact getElem?_ne_of_notMem open' (opened ▸ from')
  · rw [List.drop_left' opened, Nat.add_sub_cancel_left, List.take_left, String.toList_ofList]
  · intro n
    rw [String.toList_ofList, ← position?_eq_some_iff, noPosition]
    exact nofun

theorem describes_unexpectedChar {c : Char} (noKey : isKeyChar c = false) (noBracket : c ≠ '[')
    (noDot : c ≠ '.') :
    (ParseError.unexpectedChar c before.length).Describes (before ++ c :: rest) :=
  ⟨getElem?_length_append before c rest, noKey, noBracket, noDot⟩

end Describing

/-! ### The reader -/

/-- What stands in front of a position where the reader is in a state. -/
def State.Behind (before : List Char) : State → Prop
  | .between => True
  | .afterDot => ∃ earlier, before = earlier ++ ['.']
  | .inKey _ => True
  | .inBracket opened chars =>
      ∃ earlier, before = earlier ++ '[' :: chars.reverse ∧ earlier.length = opened ∧ ']' ∉ chars

/-- Where no step is open, a character opens what then stands in front of the next position, or it is
unexpected. -/
theorem next_cases (c : Char) (before rest : List Char) :
    (∃ state, next c before.length = .ok state ∧ state.Behind (before ++ [c])) ∨
      ∃ e, next c before.length = .error e ∧ e.Describes (before ++ c :: rest) := by
  unfold next begin
  split
  · subst c
    exact .inl ⟨.afterDot, rfl, before, rfl⟩
  · rename_i noDot
    split
    · subst c
      exact .inl ⟨_, rfl, before, rfl, rfl, List.not_mem_nil⟩
    · rename_i noBracket
      split
      · exact .inl ⟨_, rfl, trivial⟩
      · rename_i noKey
        exact .inr ⟨_, rfl,
          describes_unexpectedChar (Bool.eq_false_iff.2 noKey) noBracket noDot⟩

/-- Right after a dot a step is read as elsewhere, unless a dot or a bracket follows. -/
theorem scan_afterDot_cons {c : Char} (noDot : c ≠ '.') (noBracket : c ≠ '[') (position : Nat)
    (rest : List Char) : scan .afterDot position (c :: rest) = scan .between position (c :: rest) := by
  rw [scan, scan, if_neg (not_or.2 ⟨noDot, noBracket⟩), next, if_neg noDot]

/-- A character that does not belong to a key ends it, and is read as elsewhere. -/
theorem scan_inKey_cons {c : Char} (noKey : isKeyChar c = false) (chars : List Char)
    (position : Nat) (rest : List Char) :
    scan (.inKey chars) position (c :: rest)
      = (scan .between position (c :: rest)).map (closeKey chars :: ·) := by
  rw [scan, scan, if_neg (by simp [noKey])]
  cases next c position <;> rfl

theorem map_eq_error {segment : Segment} {tail : Except ParseError (List Segment)}
    {e : ParseError} (h : tail.map (segment :: ·) = .error e) : tail = .error e := by
  cases tail with
  | error d => exact h
  | ok segments => cases h

/-- At the end of the text a key or an index is missing, or a bracket is open. -/
theorem describes_of_scan_nil {state : State} {before : List Char} {e : ParseError}
    (behind : state.Behind before) (h : scan state before.length [] = .error e) :
    e.Describes before := by
  rw [← List.append_nil before]
  cases state with
  | between => cases h
  | inKey chars => cases h
  | afterDot =>
      obtain ⟨earlier, rfl⟩ := behind
      cases h
      rw [List.append_assoc, List.length_append]
      exact describes_emptyKey (by simp)
  | inBracket opened chars =>
      obtain ⟨earlier, rfl, rfl, open'⟩ := behind
      cases h
      rw [List.append_nil]
      exact describes_unclosedBracket (by simpa using open')

/-- A bracket that holds no index is reported as it stands. -/
theorem describes_of_closeBracket (earlier rest : List Char) {chars : List Char}
    (open' : ']' ∉ chars) {e : ParseError} (h : closeBracket earlier.length chars = .error e) :
    e.Describes (earlier ++ '[' :: chars.reverse ++ ']' :: rest) := by
  unfold closeBracket at h
  cases inside : position? chars.reverse with
  | some n =>
      rw [inside] at h
      cases h
  | none =>
      rw [inside] at h
      cases h
      rw [List.append_assoc]
      exact describes_invalidIndex (by simpa using open') inside

/-- **The errors of the reader describe the text**, wherever in it the reader stands. -/
theorem describes_of_scan {state : State} {before rest : List Char} {e : ParseError}
    (behind : state.Behind before) (h : scan state before.length rest = .error e) :
    e.Describes (before ++ rest) := by
  induction rest generalizing state before with
  | nil =>
      rw [List.append_nil]
      exact describes_of_scan_nil behind h
  | cons c rest ih =>
      -- the reader goes on behind the character
      have on : ∀ state : State, state.Behind (before ++ [c]) →
          scan state (before.length + 1) rest = .error e → e.Describes (before ++ c :: rest) := by
        intro state behind h
        rw [List.append_cons]
        exact ih behind (by simpa using h)
      have between : scan .between before.length (c :: rest) = .error e →
          e.Describes (before ++ c :: rest) := by
        intro h
        rw [scan] at h
        rcases next_cases c before rest with ⟨state, opened, behind⟩ | ⟨u, unexpected, describes⟩
        · rw [opened] at h
          exact on state behind h
        · rw [unexpected] at h
          cases h
          exact describes
      cases state with
      | between => exact between h
      | afterDot =>
          by_cases empty : c = '.' ∨ c = '['
          · obtain ⟨earlier, rfl⟩ := behind
            rw [scan, if_pos empty] at h
            cases h
            rw [List.append_assoc, List.length_append]
            exact describes_emptyKey (by simpa using empty)
          · obtain ⟨noDot, noBracket⟩ := not_or.1 empty
            exact between ((scan_afterDot_cons noDot noBracket _ rest).symm.trans h)
      | inKey chars =>
          by_cases isKey : isKeyChar c = true
          · rw [scan, if_pos isKey] at h
            exact on (.inKey (c :: chars)) trivial h
          · rw [scan_inKey_cons (Bool.eq_false_iff.2 isKey)] at h
            exact between (map_eq_error h)
      | inBracket opened chars =>
          obtain ⟨earlier, rfl, rfl, open'⟩ := behind
          rw [scan] at h
          split at h
          · rename_i closed
            subst closed
            cases closing : closeBracket earlier.length chars with
            | ok segment =>
                rw [closing] at h
                exact on .between trivial (map_eq_error h)
            | error d =>
                rw [closing] at h
                cases h
                exact describes_of_closeBracket earlier rest open' closing
          · rename_i other
            refine on (.inBracket earlier.length (c :: chars)) ⟨earlier, ?_, rfl, ?_⟩ h
            · simp
            · exact List.not_mem_cons_of_ne_of_not_mem (Ne.symm other) open'

/-- **The errors of the reader describe the text.** -/
theorem describes_of_parseChars {text : List Char} {e : ParseError}
    (h : parseChars text = .error e) : e.Describes text := by
  unfold parseChars at h
  split at h
  · cases h
    exact @describes_emptyKey [] [] (by simp)
  · exact @describes_of_scan .between ['.'] _ e trivial h
  · exact @describes_of_scan .between [] text e trivial h

/-! ### A reader that goes by positions -/

namespace ByPosition

/-- Why a text is not read to its end as a path. -/
inductive Stop
  /-- The character at this position was asked for, and the text is not that long. -/
  | pastEnd (position : Nat)
  /-- The text is no path. -/
  | rejected (error : ParseError)

/-- The character at a position. -/
def charAt (text : List Char) (position : Nat) : Except Stop Char :=
  match text[position]? with
  | some c => .ok c
  | none => .error (.pastEnd position)

/-- The characters from one position up to another one. -/
def slice (text : List Char) (first after : Nat) : Except Stop (List Char) :=
  if first ≤ after ∧ after ≤ text.length then .ok ((text.drop first).take (after - first))
  else .error (.pastEnd after)

/-- The next position from here on, possibly the end, where the condition does not hold. -/
def passWhile (p : Char → Bool) (text : List Char) (position : Nat) : Except Stop Nat :=
  if position < text.length then do
    let c ← charAt text position
    if p c then passWhile p text (position + 1) else .ok position
  else .ok position
termination_by text.length - position

/-- Where the step begins that is read from a position on: there, or behind a dot, which must not
be followed by a dot, a bracket or the end. -/
def passDot (text : List Char) (position : Nat) : Except Stop Nat := do
  let c ← charAt text position
  if c = '.' then
    if position + 1 < text.length then
      let d ← charAt text (position + 1)
      if d = '.' ∨ d = '[' then .error (.rejected (.emptyKey (position + 1)))
      else .ok (position + 1)
    else .error (.rejected (.emptyKey (position + 1)))
  else .ok position

/-- The position in the bracket that opens here, and where the text goes on behind the bracket. -/
def bracket (text : List Char) (opened : Nat) : Except Stop (Segment × Nat) := do
  let close ← passWhile (· ≠ ']') text (opened + 1)
  if close < text.length then
    let inside ← slice text (opened + 1) close
    match position? inside with
    | some n => .ok (.index n, close + 1)
    | none => .error (.rejected (.invalidIndex (opened + 1) (String.ofList inside)))
  else .error (.rejected (.unclosedBracket opened))

/-- The key that begins here, and where the text goes on behind it. -/
def key (text : List Char) (first : Nat) : Except Stop (Segment × Nat) := do
  let after ← passWhile isKeyChar text first
  let name ← slice text first after
  .ok (.key (String.ofList name), after)

/-- The step that begins here, and where the text goes on behind it. -/
def stepAt (text : List Char) (first : Nat) : Except Stop (Segment × Nat) := do
  let c ← charAt text first
  if c = '[' then bracket text first
  else if isKeyChar c then key text first
  else .error (.rejected (.unexpectedChar c first))

/-- The step that is read from a position on, and where the text goes on behind it. -/
def step (text : List Char) (position : Nat) : Except Stop (Segment × Nat) := do
  let first ← passDot text position
  stepAt text first

section Pieces

variable {before rest : List Char}

/-- What is done behind a reading that gave something. -/
theorem ok_bind {α β : Type} (a : α) (f : α → Except Stop β) : (Except.ok a >>= f) = f a := rfl

theorem charAt_append (before : List Char) (c : Char) (rest : List Char) :
    charAt (before ++ c :: rest) before.length = .ok c := by
  rw [charAt, getElem?_length_append]

theorem slice_append (before name rest : List Char) :
    slice (before ++ (name ++ rest)) before.length (before.length + name.length) = .ok name := by
  have within : before.length ≤ before.length + name.length ∧
      before.length + name.length ≤ (before ++ (name ++ rest)).length := by
    simp only [List.length_append]
    omega
  rw [slice, if_pos within, List.drop_left, Nat.add_sub_cancel_left, List.take_left]

/-- What is passed are the characters up to the first one for which the condition does not hold. -/
theorem passWhile_append (before : List Char) {p : Char → Bool} {name : List Char}
    (all : ∀ c ∈ name, p c = true) (ends : ∀ c ∈ rest.head?, p c = false) :
    passWhile p (before ++ (name ++ rest)) before.length = .ok (before.length + name.length) := by
  induction name generalizing before with
  | nil =>
      rw [passWhile]
      cases rest with
      | nil => simp
      | cons c rest =>
          rw [if_pos (by simp), List.nil_append, charAt_append, ok_bind]
          exact if_neg (by simp [ends c rfl])
  | cons c name ih =>
      obtain ⟨here, others⟩ := List.forall_mem_cons.1 all
      rw [passWhile, if_pos (by simp), List.cons_append, charAt_append, ok_bind, if_pos here]
      have later := ih (before ++ [c]) others
      rw [List.length_append, ← List.append_cons] at later
      refine later.trans (congrArg Except.ok ?_)
      simp only [List.length_cons, List.length_nil]
      omega

theorem key_append {name : List Char} (all : ∀ c ∈ name, isKeyChar c = true)
    (ends : ∀ c ∈ rest.head?, isKeyChar c = false) :
    key (before ++ (name ++ rest)) before.length
      = .ok (.key (String.ofList name), before.length + name.length) := by
  rw [key, passWhile_append before all ends, ok_bind, slice_append, ok_bind]

/-- A bracket is passed up to the first closing one. -/
theorem passWhile_bracket (before : List Char) {inside : List Char} (open' : ']' ∉ inside)
    (ends : ∀ c ∈ rest.head?, c = ']') :
    passWhile (· ≠ ']') (before ++ '[' :: (inside ++ rest)) (before.length + 1)
      = .ok (before.length + 1 + inside.length) := by
  have others : ∀ c ∈ inside, decide (c ≠ ']') = true :=
    fun c hc => decide_eq_true fun close => open' (close ▸ hc)
  have passed := passWhile_append (before ++ ['[']) others
    fun c hc => decide_eq_false (not_not.2 (ends c hc))
  rwa [List.length_append, ← List.append_cons] at passed

theorem bracket_closed {inside : List Char} (open' : ']' ∉ inside) :
    bracket (before ++ '[' :: (inside ++ ']' :: rest)) before.length
      = ((closeBracket before.length inside.reverse).mapError .rejected).map
          (·, before.length + 1 + inside.length + 1) := by
  have inner : slice (before ++ '[' :: (inside ++ ']' :: rest)) (before.length + 1)
      (before.length + 1 + inside.length) = .ok inside := by
    have cut := slice_append (before ++ ['[']) inside (']' :: rest)
    rwa [List.length_append, ← List.append_cons] at cut
  have within : before.length + 1 + inside.length
      < (before ++ '[' :: (inside ++ ']' :: rest)).length := by
    simp only [List.length_append, List.length_cons]
    omega
  rw [bracket, passWhile_bracket before open' (by simp), ok_bind, if_pos within, inner, ok_bind,
    closeBracket, List.reverse_reverse]
  cases position? inside <;> rfl

theorem bracket_open (open' : ']' ∉ rest) :
    bracket (before ++ '[' :: rest) before.length
      = .error (.rejected (.unclosedBracket before.length)) := by
  have passed := @passWhile_bracket [] before rest open' (by simp)
  rw [List.append_nil] at passed
  rw [bracket, passed, ok_bind]
  refine if_neg (Nat.not_lt.2 ?_)
  simp only [List.length_append, List.length_cons]
  omega

theorem passDot_of_ne {c : Char} (noDot : c ≠ '.') :
    passDot (before ++ c :: rest) before.length = .ok before.length := by
  rw [passDot, charAt_append, ok_bind, if_neg noDot]

theorem passDot_end :
    passDot (before ++ ['.']) before.length
      = .error (.rejected (.emptyKey (before.length + 1))) := by
  have ends : ¬ before.length + 1 < (before ++ ['.']).length := by simp
  rw [passDot, charAt_append, ok_bind, if_pos rfl, if_neg ends]

theorem passDot_cons (d : Char) :
    passDot (before ++ '.' :: d :: rest) before.length
      = if d = '.' ∨ d = '[' then .error (.rejected (.emptyKey (before.length + 1)))
        else .ok (before.length + 1) := by
  have within : before.length + 1 < (before ++ '.' :: d :: rest).length := by simp
  have behind : charAt (before ++ '.' :: d :: rest) (before.length + 1) = .ok d := by
    have there := charAt_append (before ++ ['.']) d rest
    rwa [List.length_append, ← List.append_cons] at there
  rw [passDot, charAt_append, ok_bind, if_pos rfl, if_pos within, behind, ok_bind]

/-! ### The same read by characters -/

theorem scan_inKey_append {name : List Char} (all : ∀ c ∈ name, isKeyChar c = true)
    (ends : ∀ c ∈ rest.head?, isKeyChar c = false) (read : List Char) (position : Nat) :
    scan (.inKey read) position (name ++ rest)
      = (scan .between (position + name.length) rest).map (closeKey (name.reverse ++ read) :: ·) := by
  induction name generalizing read position with
  | nil =>
      cases rest with
      | nil => rfl
      | cons c rest => exact scan_inKey_cons (ends c rfl) read position rest
  | cons c name ih =>
      obtain ⟨here, others⟩ := List.forall_mem_cons.1 all
      rw [List.cons_append, scan, if_pos here, ih others, List.length_cons, List.reverse_cons,
        List.append_assoc, List.singleton_append, Nat.add_right_comm, Nat.add_assoc]

theorem scan_inBracket_closed {inside : List Char} (open' : ']' ∉ inside) (opened : Nat)
    (read : List Char) (position : Nat) :
    scan (.inBracket opened read) position (inside ++ ']' :: rest)
      = (closeBracket opened (inside.reverse ++ read)).bind fun segment =>
          (scan .between (position + inside.length + 1) rest).map (segment :: ·) := by
  induction inside generalizing read position with
  | nil =>
      rw [List.nil_append, scan, if_pos rfl, List.reverse_nil, List.nil_append]
      cases closeBracket opened read <;> rfl
  | cons c inside ih =>
      obtain ⟨other, open'⟩ := not_or.1 (mt List.mem_cons.2 open')
      rw [List.cons_append, scan, if_neg (Ne.symm other), ih open', List.length_cons,
        List.reverse_cons, List.append_assoc, List.singleton_append, Nat.add_right_comm position,
        Nat.add_assoc position]

theorem scan_inBracket_open (open' : ']' ∉ rest) (opened : Nat) (read : List Char)
    (position : Nat) :
    scan (.inBracket opened read) position rest = .error (.unclosedBracket opened) := by
  induction rest generalizing read position with
  | nil => rfl
  | cons c rest ih =>
      obtain ⟨other, open'⟩ := not_or.1 (mt List.mem_cons.2 open')
      rw [scan, if_neg (Ne.symm other), ih open']

end Pieces

/-! ### Steps -/

/-- A step is read by positions as it is read by characters: either it is some characters and the
text goes on behind them, or both readers reject the text with the same error. -/
def Alike (read : Except Stop (Segment × Nat)) (position : Nat) (rest : List Char) : Prop :=
  (∃ segment consumed after, rest = consumed ++ after ∧ consumed ≠ [] ∧
    read = .ok (segment, position + consumed.length) ∧
    scan .between position rest
      = (scan .between (position + consumed.length) after).map (segment :: ·)) ∨
  ∃ e, read = .error (.rejected e) ∧ scan .between position rest = .error e

/-- A text begins with the characters up to the first one for which a condition does not hold. -/
theorem exists_takeWhile (p : Char → Bool) (text : List Char) :
    ∃ name rest, text = name ++ rest ∧ (∀ c ∈ name, p c = true) ∧
      ∀ c ∈ rest.head?, p c = false := by
  refine ⟨text.takeWhile p, text.dropWhile p, List.takeWhile_append_dropWhile.symm,
    List.all_eq_true.1 List.all_takeWhile, fun c hc => ?_⟩
  have fails := List.head?_dropWhile_not p text
  rwa [Option.mem_def.1 hc] at fails

/-- **The step that begins at a character** that is no dot. -/
theorem stepAt_spec (before : List Char) {c : Char} (noDot : c ≠ '.') (rest : List Char) :
    Alike (stepAt (before ++ c :: rest) before.length) before.length (c :: rest) := by
  have here : stepAt (before ++ c :: rest) before.length
      = if c = '[' then bracket (before ++ c :: rest) before.length
        else if isKeyChar c then key (before ++ c :: rest) before.length
        else .error (.rejected (.unexpectedChar c before.length)) := by
    rw [stepAt, charAt_append, ok_bind]
  rw [here]
  by_cases opens : c = '['
  · subst c
    rw [if_pos rfl]
    have scanned : scan .between before.length ('[' :: rest)
        = scan (.inBracket before.length []) (before.length + 1) rest := rfl
    by_cases closed : ']' ∈ rest
    · obtain ⟨inside, after, rfl, open'⟩ := List.eq_append_cons_of_mem closed
      rw [scan_inBracket_closed open', List.append_nil] at scanned
      rw [bracket_closed open']
      cases step : closeBracket before.length inside.reverse with
      | error e => exact .inr ⟨e, rfl, by rw [scanned, step]; rfl⟩
      | ok segment =>
          have passed : before.length + 1 + inside.length + 1
              = before.length + ('[' :: (inside ++ [']'])).length := by
            simp only [List.length_cons, List.length_append, List.length_nil]
            omega
          refine .inl ⟨segment, '[' :: (inside ++ [']']), after, by simp, List.cons_ne_nil _ _, ?_, ?_⟩
          · rw [← passed]
            rfl
          · rw [scanned, step, ← passed]
            rfl
    · exact .inr ⟨_, bracket_open closed, scanned.trans (scan_inBracket_open closed _ _ _)⟩
  · rw [if_neg opens]
    by_cases isKey : isKeyChar c = true
    · rw [if_pos isKey]
      obtain ⟨name, after, rfl, all, ends⟩ := exists_takeWhile isKeyChar rest
      have scanned : scan .between before.length (c :: (name ++ after))
          = scan (.inKey [c]) (before.length + 1) (name ++ after) := by
        rw [scan, next, if_neg noDot, begin, if_neg opens, if_pos isKey]
      rw [scan_inKey_append all ends, Nat.add_assoc, Nat.add_comm 1] at scanned
      refine .inl ⟨.key (String.ofList (c :: name)), c :: name, after, rfl, List.cons_ne_nil c name,
        key_append (List.forall_mem_cons.2 ⟨isKey, all⟩) ends, scanned.trans ?_⟩
      simp [closeKey]
    · rw [if_neg isKey]
      refine .inr ⟨_, rfl, ?_⟩
      rw [scan, next, if_neg noDot, begin, if_neg opens, if_neg isKey]

/-- **One step read by positions is one step read by characters.** -/
theorem step_spec (before : List Char) (c : Char) (rest : List Char) :
    Alike (step (before ++ c :: rest) before.length) before.length (c :: rest) := by
  by_cases dot : c = '.'
  · subst c
    have scanned : scan .between before.length ('.' :: rest)
        = scan .afterDot (before.length + 1) rest := rfl
    cases rest with
    | nil =>
        refine .inr ⟨.emptyKey (before.length + 1), ?_, scanned⟩
        rw [step, passDot_end]
        rfl
    | cons d rest =>
        by_cases empty : d = '.' ∨ d = '['
        · refine .inr ⟨.emptyKey (before.length + 1), ?_, ?_⟩
          · rw [step, passDot_cons, if_pos empty]
            rfl
          · rw [scanned, scan, if_pos empty]
        · obtain ⟨noDot, noBracket⟩ := not_or.1 empty
          rw [scan_afterDot_cons noDot noBracket] at scanned
          have behind : step (before ++ '.' :: d :: rest) before.length
              = stepAt (before ++ ['.'] ++ d :: rest) (before ++ ['.']).length := by
            rw [step, passDot_cons, if_neg empty, ok_bind, ← List.append_cons, List.length_append,
              List.length_singleton]
          have spec := stepAt_spec (before ++ ['.']) noDot rest
          rw [← behind, List.length_append, List.length_singleton] at spec
          rcases spec with ⟨segment, consumed, after, same, -, goes, more⟩ | ⟨e, stops, error⟩
          · have passed : before.length + 1 + consumed.length
                = before.length + ('.' :: consumed).length := by
              rw [List.length_cons]
              omega
            rw [passed] at goes more
            exact .inl ⟨segment, '.' :: consumed, after, congrArg _ same, List.cons_ne_nil _ _, goes,
              scanned.trans more⟩
          · exact .inr ⟨e, stops, scanned.trans error⟩
  · have here : step (before ++ c :: rest) before.length
        = stepAt (before ++ c :: rest) before.length := by
      rw [step, passDot_of_ne dot, ok_bind]
    rw [here]
    exact stepAt_spec before dot rest

/-- A step goes on. -/
theorem lt_of_step {text : List Char} {position after : Nat} {segment : Segment}
    (inside : position < text.length) (h : step text position = .ok (segment, after)) :
    position < after := by
  have split : text.take position ++ text[position] :: text.drop (position + 1) = text := by
    rw [List.getElem_cons_drop, List.take_append_drop]
  have length : (text.take position).length = position :=
    List.length_take_of_le (Nat.le_of_lt inside)
  have spec := step_spec (text.take position) text[position] (text.drop (position + 1))
  rw [split, length, h] at spec
  rcases spec with ⟨_, consumed, _, -, nonempty, goes, -⟩ | ⟨_, stops, -⟩
  · cases goes
    exact Nat.lt_add_of_pos_right (List.length_pos_iff.2 nonempty)
  · cases stops

/-! ### Whole texts -/

/-- The steps from a position on. -/
def stepsFrom (text : List Char) (position : Nat) : Except Stop (List Segment) :=
  if _ : position < text.length then
    match _ : step text position with
    | .ok (segment, after) => (stepsFrom text after).map (segment :: ·)
    | .error stop => .error stop
  else .ok []
termination_by text.length - position
decreasing_by
  have := lt_of_step (by assumption) (by assumption)
  omega

/-- The steps that a text says.  One dot at its beginning is passed. -/
def parse (text : List Char) : Except Stop (List Segment) :=
  if text.isEmpty then .ok []
  else do
    let c ← charAt text 0
    if c = '.' then
      if 1 < text.length then stepsFrom text 1 else .error (.rejected (.emptyKey 1))
    else stepsFrom text 0

theorem stepsFrom_end {text : List Char} {position : Nat} (h : text.length ≤ position) :
    stepsFrom text position = .ok [] := by
  rw [stepsFrom, dif_neg (Nat.not_lt.2 h)]

theorem stepsFrom_of_ok {text : List Char} {position after : Nat} {segment : Segment}
    (inside : position < text.length) (h : step text position = .ok (segment, after)) :
    stepsFrom text position = (stepsFrom text after).map (segment :: ·) := by
  rw [stepsFrom, dif_pos inside]
  split
  · rename_i read
    cases h.symm.trans read
    rfl
  · rename_i read
    cases h.symm.trans read

theorem stepsFrom_of_error {text : List Char} {position : Nat} {stop : Stop}
    (inside : position < text.length) (h : step text position = .error stop) :
    stepsFrom text position = .error stop := by
  rw [stepsFrom, dif_pos inside]
  split
  · rename_i read
    cases h.symm.trans read
  · rename_i read
    cases h.symm.trans read
    rfl

/-- **Read by positions, the rest of a text says what it says read by characters.** -/
theorem stepsFrom_eq (before rest : List Char) :
    stepsFrom (before ++ rest) before.length
      = (scan .between before.length rest).mapError .rejected := by
  -- every step leaves a shorter rest
  induction length : rest.length using Nat.strongRecOn generalizing before rest with
  | ind n ih =>
      cases rest with
      | nil =>
          rw [stepsFrom_end (by simp)]
          rfl
      | cons c rest =>
          have inside : before.length < (before ++ c :: rest).length := by simp
          rcases step_spec before c rest with
            ⟨segment, consumed, after, same, nonempty, goes, scanned⟩ | ⟨e, stops, scanned⟩
          · have shorter : after.length < n := by
              rw [← length, same, List.length_append]
              exact Nat.lt_add_of_pos_left (List.length_pos_iff.2 nonempty)
            have later := ih after.length shorter (before ++ consumed) after rfl
            rw [List.length_append, List.append_assoc, ← same] at later
            rw [stepsFrom_of_ok inside goes, scanned, later]
            cases scan .between (before.length + consumed.length) after <;> rfl
          · rw [stepsFrom_of_error inside stops, scanned]
            rfl

/-- **Both readers say the same of every text.** -/
theorem parse_eq (text : List Char) : parse text = (parseChars text).mapError .rejected := by
  cases text with
  | nil => rfl
  | cons c rest =>
      have first : charAt (c :: rest) 0 = .ok c := rfl
      rw [parse, if_neg (by simp), first, ok_bind]
      by_cases dot : c = '.'
      · subst c
        rw [if_pos rfl]
        cases rest with
        | nil => rfl
        | cons d rest => exact (if_pos (by simp)).trans (stepsFrom_eq ['.'] (d :: rest))
      · have other : parseChars (c :: rest) = scan .between 0 (c :: rest) := by
          rw [parseChars] <;> simp [dot]
        rw [if_neg dot, other]
        exact stepsFrom_eq [] (c :: rest)

end ByPosition

/-! ### Texts -/

/-- Only the text without a character is a path without a step. -/
theorem toList_eq_nil_of_isRoot {text : String} {path : FieldPath} (h : parse text = .ok path)
    (root : path.isRoot = true) : text.toList = [] := by
  have written := (parseChars_eq_ok_iff _ _).1 ((parse_eq_ok_iff_parseChars text path).1 h)
  rw [List.isEmpty_iff.1 root] at written
  generalize text.toList = chars at written
  cases written with
  | nil => rfl

/-- **Errors tell the truth, and nothing is read past the end.**  What the error of a rejected text
says is so, at its position; and that a path must have a step is said of the empty text alone, where
one is asked for.  A reader that goes by positions never asks for a character that is not there, and
ends as the other one does. -/
theorem parse_error_describes (text : String) :
    (∀ e, parse text = .error e → e.Describes text.toList ∧ e ≠ .root) ∧
    (∀ e, parseField text = .error e → e.Describes text.toList) ∧
    (∀ position, ByPosition.parse text.toList ≠ .error (.pastEnd position)) ∧
    ByPosition.parse text.toList = ((parse text).map segments).mapError .rejected := by
  have describes : ∀ e, parse text = .error e → e.Describes text.toList := by
    intro e h
    unfold parse at h
    cases read : parseChars text.toList with
    | ok segments =>
        rw [read] at h
        cases h
    | error d =>
        rw [read] at h
        cases h
        exact describes_of_parseChars read
  have same : ByPosition.parse text.toList = ((parse text).map segments).mapError .rejected := by
    rw [ByPosition.parse_eq, parse]
    cases parseChars text.toList <;> rfl
  refine ⟨fun e h => ⟨describes e h, ?_⟩, fun e h => ?_, fun position past => ?_, same⟩
  · rintro rfl
    -- the text would be empty, which is the path without a step
    have empty : text.toList = [] := describes _ h
    rw [parse, empty] at h
    cases h
  · unfold parseField at h
    split at h
    · rename_i path read
      split at h
      · rename_i root
        cases h
        exact toList_eq_nil_of_isRoot read root
      · cases h
    · rename_i d read
      cases h
      exact describes e read
  · rw [same] at past
    cases parsed : parse text <;> rw [parsed] at past <;> cases past

/-- A dot too many, an index that is only a sign, and a bracket that is left open. -/
theorem parse_error_describes_of_texts :
    (parse "ä..b" = .error (.emptyKey 2) ∧ (ParseError.emptyKey 2).Describes "ä..b".toList) ∧
    (parse "[0][+].é" = .error (.invalidIndex 4 "+") ∧
      (ParseError.invalidIndex 4 "+").Describes "[0][+].é".toList) ∧
    parseField "é[1[.a" = .error (.unclosedBracket 1) ∧
      (ParseError.unclosedBracket 1).Describes "é[1[.a".toList := by
  have dots : parse "ä..b" = .error (.emptyKey 2) := by decide
  have sign : parse "[0][+].é" = .error (.invalidIndex 4 "+") := by decide
  have bracket : parseField "é[1[.a" = .error (.unclosedBracket 1) := by decide
  exact ⟨⟨dots, ((parse_error_describes "ä..b").1 _ dots).1⟩,
    ⟨sign, ((parse_error_describes "[0][+].é").1 _ sign).1⟩,
    bracket, (parse_error_describes "é[1[.a").2.1 _ bracket⟩

end FieldPath

end DocStore
