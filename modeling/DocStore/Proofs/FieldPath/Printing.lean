/-
Paths and their texts.

A path is printed as its steps one after another, without the dot at the very beginning, and nothing
in a key is escaped.  So a key that has a dot or a bracket in it, or no character at all, is printed
as a text that says something else or nothing.  What can be said of all paths is that this is the
only way in which a text goes wrong: the printed text of a path is in the plain grammar, with the
path's own segments, exactly if every key is one of the grammar.

* `Segment.Named`, `Segment.Fits` — the key of a segment is a key of the grammar, and its position
  is a number that positions are read as;
* `steps_chars`, `written_chars` — **what is printed is in the plain grammar**, by induction on the
  segments;
* `Steps.segments`, `Written.segments` — what any text of the grammar says has keys of the grammar
  and positions that fit, by induction on the steps;
* `parse_toString_eq_ok_iff` — **a printed path is read back exactly if its keys are keys of the
  grammar, and every path that was read is one of these.**
-/

import DocStore.Proofs.FieldPath.Grammar

set_option autoImplicit false

namespace DocStore

namespace FieldPath

/-! ### Segments -/

/-- A segment is a position or has a key of the grammar. -/
def Segment.Named : Segment → Prop
  | .key name => IsKey name.toList
  | .index _ => True

/-- A segment is a key or has a position below `2 ^ 64`. -/
def Segment.Fits : Segment → Prop
  | .key _ => True
  | .index n => n < 0x10000000000000000

/-- All keys of a path are keys of the grammar. -/
def Named (path : FieldPath) : Prop :=
  ∀ segment ∈ path.segments, segment.Named

/-- All positions of a path are below `2 ^ 64`. -/
def Fits (path : FieldPath) : Prop :=
  ∀ segment ∈ path.segments, segment.Fits

/-! ### What is printed -/

/-- The digits of a number are a position that denotes it. -/
theorem isPosition_toDigits {n : Nat} (h : n < 0x10000000000000000) :
    IsPosition .plain (Nat.toDigits 10 n) n := by
  have digits : ∀ c ∈ Nat.toDigits 10 n, c.isDigit = true :=
    fun _ hc => Nat.isDigit_of_mem_toDigits (by decide) (by decide) hc
  exact ⟨[], _, rfl, .inl rfl, Nat.toDigits_ne_nil, digits, Nat.ofDigitChars_ten_toDigits, h⟩

/-- **Segments with keys of the grammar are printed as steps that say them.** -/
theorem steps_chars (segments : List Segment)
    (h : ∀ segment ∈ segments, segment.Named ∧ segment.Fits) :
    Steps .plain false (segments.flatMap Segment.chars) segments := by
  induction segments with
  | nil => exact .nil
  | cons segment segments ih =>
      obtain ⟨first, others⟩ := List.forall_mem_cons.1 h
      rw [List.flatMap_cons]
      cases segment with
      | key name =>
          have step : Steps .plain false (['.'] ++ name.toList ++ segments.flatMap Segment.chars)
              (.key (String.ofList name.toList) :: segments) :=
            .key (.inl rfl) first.1 (ih others)
          rw [String.ofList_toList] at step
          exact step
      | index n =>
          have step := @Steps.index .plain false _ _ _ _ (isPosition_toDigits first.2) (ih others)
          simpa [Segment.chars] using step

/-- The dot that is left out is one that a path may begin with or not. -/
theorem written_chars (path : FieldPath)
    (h : ∀ segment ∈ path.segments, segment.Named ∧ segment.Fits) :
    Written .plain path.chars path.segments := by
  obtain ⟨segments⟩ := path
  cases segments with
  | nil => exact .nil
  | cons segment segments =>
      obtain ⟨first, others⟩ := List.forall_mem_cons.1 h
      have steps := steps_chars segments others
      cases segment with
      | key name =>
          have path : Written .plain (name.toList ++ segments.flatMap Segment.chars)
              (.key (String.ofList name.toList) :: segments) :=
            .key (.inl rfl) first.1 steps
          rw [String.ofList_toList] at path
          exact path
      | index n =>
          have path := @Written.index .plain [] _ _ _ _ (.inl rfl)
            (isPosition_toDigits first.2) steps
          simpa [chars, Segment.chars] using path

/-! ### What is read -/

/-- The segments of further steps have keys of the grammar and positions that fit. -/
theorem Steps.segments {manner : Leniency} {glued : Bool} {chars : List Char}
    {segments : List Segment} (h : Steps manner glued chars segments) :
    ∀ segment ∈ segments, segment.Named ∧ segment.Fits := by
  induction h with
  | nil => exact nofun
  | @key _ _ name _ _ _ named _ ih =>
      have key : (Segment.key (String.ofList name)).Named := by
        rw [Segment.Named, String.toList_ofList]
        exact named
      exact List.forall_mem_cons.2 ⟨⟨key, trivial⟩, ih⟩
  | index position _ ih =>
      obtain ⟨-, -, -, -, -, -, -, fits⟩ := position
      exact List.forall_mem_cons.2 ⟨⟨trivial, fits⟩, ih⟩

/-- The segments of a path have keys of the grammar and positions that fit. -/
theorem Written.segments {manner : Leniency} {chars : List Char} {segments : List Segment}
    (h : Written manner chars segments) :
    ∀ segment ∈ segments, segment.Named ∧ segment.Fits := by
  cases h with
  | nil => exact nofun
  -- with a dot in front of it, a first step is as the others
  | key _ named more => exact (@Steps.key manner false _ _ _ _ (.inl rfl) named more).segments
  | index _ position more => exact (@Steps.index manner false _ _ _ _ position more).segments

/-- A text that is read as a path says keys of the grammar and positions that fit. -/
theorem named_fits_of_parse {text : String} {path : FieldPath} (h : parse text = .ok path) :
    path.Named ∧ path.Fits := by
  have written := (parseChars_eq_ok_iff _ _).1 ((parse_eq_ok_iff_parseChars text path).1 h)
  exact ⟨fun segment mem => (written.segments segment mem).1,
    fun segment mem => (written.segments segment mem).2⟩

/-! ### There and back -/

/-- A path with keys of the grammar and positions that fit is read back from what is printed. -/
theorem parse_toString_of_named {path : FieldPath} (named : path.Named) (fits : path.Fits) :
    parse path.toString = .ok path := by
  have written := written_chars path fun segment mem => ⟨named segment mem, fits segment mem⟩
  rw [parse_eq_ok_iff_parseChars, toString, String.toList_ofList, parseChars_eq_ok_iff]
  exact written.lenient

/-- **A printed path is read back exactly if all its keys are keys of the grammar**, whatever else
its keys are, as long as its positions fit.  Every path that some text is read as has such keys and
such positions, so that printing it and reading that again gives what the first text gave. -/
theorem parse_toString_eq_ok_iff (path : FieldPath) :
    (path.Fits → (parse path.toString = .ok path ↔ path.Named)) ∧
    ∀ text : String, parse text = .ok path →
      path.Named ∧ path.Fits ∧ parse path.toString = parse text := by
  constructor
  · intro fits
    exact ⟨fun h => (named_fits_of_parse h).1, fun named => parse_toString_of_named named fits⟩
  · intro text read
    obtain ⟨named, fits⟩ := named_fits_of_parse read
    exact ⟨named, fits, (parse_toString_of_named named fits).trans read.symm⟩

/-- A text with all the liberties is read, printed without them and read again; and a key with a dot
in it is printed as two keys. -/
theorem parse_toString_eq_ok_iff_of_liberties :
    let path : FieldPath := ⟨[.key "a", .index 1, .key "b"]⟩
    let dotted : FieldPath := ⟨[.key "a.b"]⟩
    path.toString = "a[1].b" ∧ parse path.toString = parse "..a[+1]b" ∧
      ¬ dotted.Named ∧ parse dotted.toString = .ok ⟨[.key "a", .key "b"]⟩ := by
  intro path dotted
  have other : parse dotted.toString = .ok ⟨[.key "a", .key "b"]⟩ := by decide
  have fits : dotted.Fits := by simp [Fits, dotted, Segment.Fits]
  obtain ⟨-, -, again⟩ := (parse_toString_eq_ok_iff path).2 "..a[+1]b" (by decide)
  refine ⟨by decide, again, fun named => ?_, other⟩
  have back := ((parse_toString_eq_ok_iff dotted).1 fits).2 named
  exact absurd (back.symm.trans other) (by decide)

end FieldPath

end DocStore
