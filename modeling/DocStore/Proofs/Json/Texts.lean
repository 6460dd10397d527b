/-
The compact text of a JSON tree tells the tree.

A text can be read from the left without ever looking back.  Its first character tells the kind of
the tree; a string ends at the first quotation mark that is not escaped; an array and an object end
at their closing bracket; and a number ends where the numeric characters end, which is at a comma,
at a bracket or at the end of the whole text.  So a text that is followed by something that does not
go on a number determines both the tree and what follows.

* `Json.unescape?` — the first character inside quotation marks, and what comes after it;
* `Json.quoted_append_inj` — a quoted string and what comes after it;
* `Json.Kind`, `Json.kindOf?` — what a tree is, and the kind that a first character tells;
* `Json.text_append_inj` — a tree and what comes after it;
* `Json.text_injective` — **different trees have different texts.**
-/

import DocStore.Proofs.Number.Texts

set_option autoImplicit false

namespace DocStore

namespace Json

open DecimalText (isNumeric)

/-! ### Strings -/

/-- The number that a lower-case hexadecimal digit stands for. -/
def hexValue (c : Char) : Nat :=
  if c.toNat < 58 then c.toNat - 48 else c.toNat - 87

theorem hexValue_hexDigit : ∀ n < 16, hexValue (Bytes.hexDigit n) = n := by
  decide

/-- The first character inside quotation marks and what comes after it, or `none` at the closing
mark. -/
def unescape? : List Char → Option (Char × List Char)
  | [] => none
  | '"' :: _ => none
  | '\\' :: 'b' :: rest => some ('\x08', rest)
  | '\\' :: 't' :: rest => some ('\t', rest)
  | '\\' :: 'n' :: rest => some ('\n', rest)
  | '\\' :: 'f' :: rest => some ('\x0c', rest)
  | '\\' :: 'r' :: rest => some ('\r', rest)
  | '\\' :: 'u' :: '0' :: '0' :: high :: low :: rest =>
      some (Char.ofNat (16 * hexValue high + hexValue low), rest)
  | '\\' :: c :: rest => some (c, rest)
  | c :: rest => some (c, rest)

/-- Every character is read back from its escape. -/
theorem unescape?_escape (c : Char) (rest : List Char) :
    unescape? (escape c ++ rest) = some (c, rest) := by
  unfold escape
  split
  · subst c; rfl
  split
  · subst c; rfl
  split
  · subst c; rfl
  split
  · subst c; rfl
  split
  · subst c; rfl
  split
  · subst c; rfl
  split
  · subst c; rfl
  split
  · rename_i control
    have high := hexValue_hexDigit (c.toNat / 16) (by omega)
    have low := hexValue_hexDigit (c.toNat % 16) (by omega)
    have value : 16 * (c.toNat / 16) + c.toNat % 16 = c.toNat := by omega
    change some (Char.ofNat (16 * hexValue _ + hexValue _), rest) = _
    rw [high, low, value, Char.ofNat_toNat]
  · rw [List.singleton_append]
    unfold unescape?
    split <;> simp_all

/-- **A quoted string and what comes after it** are told by the text of both. -/
theorem quoted_append_inj {s t : String} {r r' : List Char}
    (h : quoted s ++ r = quoted t ++ r') : s = t ∧ r = r' := by
  have characters : ∀ (cs ds : List Char),
      cs.flatMap escape ++ '"' :: r = ds.flatMap escape ++ '"' :: r' → cs = ds ∧ r = r' := by
    intro cs
    induction cs with
    | nil =>
        intro ds h
        cases ds with
        | nil => exact ⟨rfl, (List.cons.inj h).2⟩
        | cons d ds =>
            have read := congrArg unescape? h
            rw [List.flatMap_cons, List.append_assoc, unescape?_escape] at read
            cases read
    | cons c cs ih =>
        intro ds h
        have read := congrArg unescape? h
        rw [List.flatMap_cons, List.append_assoc, unescape?_escape] at read
        cases ds with
        | nil => cases read
        | cons d ds =>
            rw [List.flatMap_cons, List.append_assoc, unescape?_escape] at read
            obtain ⟨same, more⟩ := Prod.mk.inj (Option.some.inj read)
            obtain ⟨rest, after⟩ := ih ds more
            exact ⟨by rw [same, rest], after⟩
  have inside : s.toList.flatMap escape ++ '"' :: r = t.toList.flatMap escape ++ '"' :: r' := by
    simpa [quoted] using h
  obtain ⟨same, after⟩ := characters _ _ inside
  exact ⟨String.toList_injective same, after⟩

/-! ### Numbers -/

/-- What comes after a text does not go on a number. -/
def Stops (rest : List Char) : Prop :=
  ∀ c ∈ rest.head?, isNumeric c = false

theorem stops_nil : Stops [] :=
  nofun

theorem stops_cons {c : Char} {rest : List Char} (h : isNumeric c = false) : Stops (c :: rest) := by
  rintro _ ⟨⟩
  exact h

/-- A number and what comes after it are told by the text of both. -/
theorem number_append_inj {m n : Number} {r s : List Char} (hr : Stops r) (hs : Stops s)
    (h : m.text ++ r = n.text ++ s) : m = n ∧ r = s := by
  have numeric : ∀ (n : Number) {rest : List Char}, Stops rest →
      (n.text ++ rest).takeWhile isNumeric = n.text := by
    intro n rest stops
    have none : rest.takeWhile isNumeric = [] := by
      cases rest with
      | nil => rfl
      | cons c rest => exact List.takeWhile_cons_of_neg (by simp [stops c rfl])
    rw [List.takeWhile_append_of_pos n.numeric_text, none, List.append_nil]
  have texts : m.text = n.text := by rw [← numeric m hr, h, numeric n hs]
  rw [texts] at h
  exact ⟨Number.text_injective texts, List.append_cancel_left h⟩

/-! ### Kinds -/

/-- What a tree is. -/
inductive Kind
  | null
  | bool
  | number
  | string
  | array
  | object

/-- The kind of a tree. -/
def kind : Json → Kind
  | .null => .null
  | .bool _ => .bool
  | .number _ => .number
  | .string _ => .string
  | .array _ => .array
  | .object _ => .object

/-- The kind of the trees whose text begins with a character, if there are any. -/
def kindOf? : Char → Option Kind
  | 'n' => some .null
  | 't' => some .bool
  | 'f' => some .bool
  | '"' => some .string
  | '[' => some .array
  | '\x7b' => some .object
  | c => if isNumeric c then some .number else none

theorem kindOf?_numeric {c : Char} (h : isNumeric c = true) : kindOf? c = some .number := by
  unfold kindOf?
  split
  all_goals first
    | cases h
    | exact if_pos h

/-- The first character of a text tells the kind of the tree. -/
theorem exists_text_eq_cons (tree : Json) :
    ∃ c rest, tree.text = c :: rest ∧ kindOf? c = some tree.kind := by
  cases tree with
  | null => exact ⟨_, _, rfl, rfl⟩
  | bool b => cases b <;> exact ⟨_, _, rfl, rfl⟩
  | number n =>
      obtain ⟨c, rest, written⟩ := List.exists_cons_of_ne_nil n.text_ne_nil
      have numeric := n.numeric_text c (written ▸ List.mem_cons_self)
      exact ⟨c, rest, written, kindOf?_numeric numeric⟩
  | string s => exact ⟨_, _, rfl, rfl⟩
  | array items => cases items <;> exact ⟨_, _, rfl, rfl⟩
  | object members => cases members <;> exact ⟨_, _, rfl, rfl⟩

theorem kind_eq_of_text_append {a b : Json} {r s : List Char} (h : a.text ++ r = b.text ++ s) :
    a.kind = b.kind := by
  obtain ⟨c, rest, hc, kind⟩ := exists_text_eq_cons a
  obtain ⟨d, rest', hd, kind'⟩ := exists_text_eq_cons b
  rw [hc, hd] at h
  obtain rfl := (List.cons.inj h).1
  exact Option.some.inj (kind.symm.trans kind')

/-- No text begins with a character that tells no kind. -/
theorem text_append_ne_cons (tree : Json) {c : Char} (h : kindOf? c = none) (r s : List Char) :
    c :: s ≠ tree.text ++ r := by
  obtain ⟨d, rest, hd, kind⟩ := exists_text_eq_cons tree
  intro same
  rw [hd] at same
  rw [(List.cons.inj same).1, kind] at h
  cases h

/-! ### Trees -/

theorem stops_textOfItems (items : List Json) (rest : List Char) :
    Stops (textOfItems items ++ rest) := by
  cases items <;> exact stops_cons rfl

theorem stops_textOfMembers (members : List (String × Json)) (rest : List Char) :
    Stops (textOfMembers members ++ rest) := by
  cases members <;> exact stops_cons rfl

mutual

/-- **A tree and what comes after it** are told by the text of both, if the latter does not go on a
number. -/
theorem text_append_inj : (a b : Json) → {r s : List Char} → Stops r → Stops s →
    a.text ++ r = b.text ++ s → a = b ∧ r = s
  | .null, b, _, _, _, _, h => by
      cases b with
      | null => exact ⟨rfl, List.append_cancel_left h⟩
      | _ => exact nomatch kind_eq_of_text_append h
  | .bool x, b, _, _, _, _, h => by
      cases b with
      | bool y =>
          cases x <;> cases y
          · exact ⟨rfl, List.append_cancel_left h⟩
          · cases (List.cons.inj h).1
          · cases (List.cons.inj h).1
          · exact ⟨rfl, List.append_cancel_left h⟩
      | _ => exact nomatch kind_eq_of_text_append h
  | .number m, b, _, _, hr, hs, h => by
      cases b with
      | number n =>
          obtain ⟨same, rest⟩ := number_append_inj hr hs h
          exact ⟨congrArg number same, rest⟩
      | _ => exact nomatch kind_eq_of_text_append h
  | .string x, b, _, _, _, _, h => by
      cases b with
      | string y =>
          obtain ⟨same, rest⟩ := quoted_append_inj h
          exact ⟨congrArg string same, rest⟩
      | _ => exact nomatch kind_eq_of_text_append h
  | .array [], b, _, _, _, _, h => by
      cases b with
      | array others =>
          cases others with
          | nil => exact ⟨rfl, List.append_cancel_left h⟩
          | cons other others =>
              rw [text, text, List.append_assoc, List.append_assoc] at h
              exact absurd (List.cons.inj h).2 (text_append_ne_cons other rfl _ _)
      | _ => exact nomatch kind_eq_of_text_append h
  | .array (item :: items), b, _, _, _, _, h => by
      cases b with
      | array others =>
          cases others with
          | nil =>
              rw [text, text, List.append_assoc, List.append_assoc] at h
              exact absurd (List.cons.inj h).2.symm (text_append_ne_cons item rfl _ _)
          | cons other others =>
              rw [text, text, List.append_assoc, List.append_assoc, List.append_assoc,
                List.append_assoc] at h
              obtain ⟨first, more⟩ := text_append_inj item other (stops_textOfItems items _)
                (stops_textOfItems others _) (List.append_cancel_left h)
              obtain ⟨rest, after⟩ := textOfItems_append_inj items others more
              exact ⟨by rw [first, rest], after⟩
      | _ => exact nomatch kind_eq_of_text_append h
  | .object [], b, _, _, _, _, h => by
      cases b with
      | object others =>
          cases others with
          | nil => exact ⟨rfl, List.append_cancel_left h⟩
          | cons other others => cases (List.cons.inj (List.cons.inj h).2).1
      | _ => exact nomatch kind_eq_of_text_append h
  | .object ((key, value) :: members), b, _, _, _, _, h => by
      cases b with
      | object others =>
          cases others with
          | nil => cases (List.cons.inj (List.cons.inj h).2).1
          | cons other others =>
              obtain ⟨key', value'⟩ := other
              rw [text, text] at h
              simp only [List.append_assoc] at h
              obtain ⟨name, more⟩ := quoted_append_inj (List.append_cancel_left h)
              obtain ⟨first, more⟩ := text_append_inj value value' (stops_textOfMembers members _)
                (stops_textOfMembers others _) (List.append_cancel_left more)
              obtain ⟨rest, after⟩ := textOfMembers_append_inj members others more
              exact ⟨by rw [name, first, rest], after⟩
      | _ => exact nomatch kind_eq_of_text_append h

/-- Further items, the end of the array and what comes after it. -/
theorem textOfItems_append_inj : (items others : List Json) → {r s : List Char} →
    textOfItems items ++ r = textOfItems others ++ s → items = others ∧ r = s
  | [], others, _, _, h => by
      cases others with
      | nil => exact ⟨rfl, List.append_cancel_left h⟩
      | cons other others => cases (List.cons.inj h).1
  | item :: items, others, _, _, h => by
      cases others with
      | nil => cases (List.cons.inj h).1
      | cons other others =>
          rw [textOfItems, textOfItems] at h
          simp only [List.append_assoc] at h
          obtain ⟨first, more⟩ := text_append_inj item other (stops_textOfItems items _)
            (stops_textOfItems others _) (List.append_cancel_left h)
          obtain ⟨rest, after⟩ := textOfItems_append_inj items others more
          exact ⟨by rw [first, rest], after⟩

/-- Further members, the end of the object and what comes after it. -/
theorem textOfMembers_append_inj : (members others : List (String × Json)) → {r s : List Char} →
    textOfMembers members ++ r = textOfMembers others ++ s → members = others ∧ r = s
  | [], others, _, _, h => by
      cases others with
      | nil => exact ⟨rfl, List.append_cancel_left h⟩
      | cons other others => cases (List.cons.inj h).1
  | (key, value) :: members, others, _, _, h => by
      cases others with
      | nil => cases (List.cons.inj h).1
      | cons other others =>
          obtain ⟨key', value'⟩ := other
          rw [textOfMembers, textOfMembers] at h
          simp only [List.append_assoc] at h
          obtain ⟨name, more⟩ := quoted_append_inj (List.append_cancel_left h)
          obtain ⟨first, more⟩ := text_append_inj value value' (stops_textOfMembers members _)
            (stops_textOfMembers others _) (List.append_cancel_left more)
          obtain ⟨rest, after⟩ := textOfMembers_append_inj members others more
          exact ⟨by rw [name, first, rest], after⟩

end

/-- **Different trees have different texts.** -/
theorem text_injective {a b : Json} (h : a.text = b.text) : a = b :=
  (text_append_inj a b stops_nil stops_nil (congrArg (· ++ []) h)).1

end Json

end DocStore
