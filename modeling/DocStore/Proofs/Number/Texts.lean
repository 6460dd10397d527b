/-
The text of a number tells the number.

A float is written with a point or an exponent, and an integer with neither, so that the two are
told apart.  What is written of a float can be read back as the value of its shortest decimal,
whether it is written positionally or with an exponent, and that value tells the float.

* `DecimalText.read` — the value of a written decimal;
* `DecimalText.read_render` — **what is written of a decimal has its value**;
* `DecimalText.isReal_render` — it has a point or an exponent;
* `Binary64.text_injective` — **different floats have different texts**, zeros of either sign
  included;
* `Number.text_injective` — **different numbers have different texts.**
-/

import DocStore.Json.Text
import DocStore.Proofs.Number.Shortest
import Mathlib.Data.List.TakeWhile

set_option autoImplicit false

namespace DocStore

namespace DecimalText

/-! ### Reading -/

/-- The value of a text of digits with at most one point. -/
def readFixed (text : List Char) : ℚ :=
  let whole := text.takeWhile (· != '.')
  let fraction := (text.dropWhile (· != '.')).drop 1
  Nat.ofDigitChars 10 (whole ++ fraction) 0 / 10 ^ fraction.length

/-- The power of ten that an exponent stands for, with the letter in front of it. -/
def readExponent : List Char → ℚ
  | _ :: '-' :: digits => 10 ^ (-Nat.ofDigitChars 10 digits 0 : Int)
  | _ :: _ :: digits => 10 ^ (Nat.ofDigitChars 10 digits 0 : Int)
  | _ => 1

/-- The value of a written decimal. -/
def read (text : List Char) : ℚ :=
  readFixed (text.takeWhile (· != 'e')) * readExponent (text.dropWhile (· != 'e'))

/-- A text of digits. -/
def AllDigits (text : List Char) : Prop :=
  ∀ c ∈ text, c.isDigit = true

theorem allDigits_digits (n : Nat) : AllDigits (digits n) :=
  fun _ hc => Nat.isDigit_of_mem_toDigits (by decide) (by decide) hc

theorem allDigits_append {s t : List Char} (hs : AllDigits s) (ht : AllDigits t) :
    AllDigits (s ++ t) := by
  intro c hc
  rcases List.mem_append.1 hc with hc | hc
  · exact hs c hc
  · exact ht c hc

theorem allDigits_zeros (n : Nat) : AllDigits (List.replicate n '0') := by
  intro c hc
  rw [List.eq_of_mem_replicate hc]
  rfl

theorem AllDigits.take {text : List Char} (h : AllDigits text) (n : Nat) :
    AllDigits (text.take n) :=
  fun c hc => h c (List.mem_of_mem_take hc)

theorem AllDigits.drop {text : List Char} (h : AllDigits text) (n : Nat) :
    AllDigits (text.drop n) :=
  fun c hc => h c (List.mem_of_mem_drop hc)

/-- A digit is no other character. -/
theorem AllDigits.ne {text : List Char} (h : AllDigits text) (other : Char)
    (no : other.isDigit = false) : ∀ c ∈ text, (c != other) = true := by
  intro c hc
  rw [bne_iff_ne]
  rintro rfl
  rw [h c hc] at no
  cases no

/-- Digits around a point are the digits of a whole number, moved by as many places as there are
digits after the point. -/
theorem readFixed_point {whole fraction : List Char} (hw : AllDigits whole) :
    readFixed (whole ++ '.' :: fraction)
      = Nat.ofDigitChars 10 (whole ++ fraction) 0 / 10 ^ fraction.length := by
  have before := hw.ne '.' rfl
  unfold readFixed
  rw [List.takeWhile_append_of_pos before, List.dropWhile_append_of_pos before]
  simp

/-- Digits without a point are those of a whole number. -/
theorem readFixed_digits {text : List Char} (h : AllDigits text) :
    readFixed text = Nat.ofDigitChars 10 text 0 := by
  have all := h.ne '.' rfl
  unfold readFixed
  rw [List.takeWhile_eq_self_iff.2 all, List.dropWhile_eq_nil_iff.2 all]
  simp

/-- There is no exponent in digits around a point. -/
theorem AllDigits.fixed {whole fraction : List Char} (hw : AllDigits whole)
    (hf : AllDigits fraction) : ∀ c ∈ whole ++ '.' :: fraction, (c != 'e') = true := by
  intro c hc
  rcases List.mem_append.1 hc with hc | hc
  · exact hw.ne 'e' rfl c hc
  · rcases List.mem_cons.1 hc with rfl | hc
    · rfl
    · exact hf.ne 'e' rfl c hc

/-- A text without an exponent. -/
theorem read_fixed {text : List Char} (h : ∀ c ∈ text, (c != 'e') = true) :
    read text = readFixed text := by
  unfold read
  rw [List.takeWhile_eq_self_iff.2 h, List.dropWhile_eq_nil_iff.2 h]
  exact mul_one _

/-- A text with an exponent. -/
theorem read_exponent {text rest : List Char} (h : ∀ c ∈ text, (c != 'e') = true) :
    read (text ++ 'e' :: rest) = readFixed text * readExponent ('e' :: rest) := by
  unfold read
  rw [List.takeWhile_append_of_pos h, List.dropWhile_append_of_pos h]
  simp

/-- An exponent is read back. -/
theorem readExponent_digits (n : Int) :
    readExponent ('e' :: (if n < 0 then '-' else '+') :: digits n.natAbs) = 10 ^ n := by
  have back : Nat.ofDigitChars 10 (digits n.natAbs) 0 = n.natAbs := Nat.ofDigitChars_ten_toDigits
  split
  · rw [readExponent, back]
    congr 1
    omega
  · rw [readExponent, back]
    · congr 1
      omega
    · decide

/-! ### Writing -/

/-- Zeros after the digits of a number. -/
theorem ofDigitChars_append_zeros (text : List Char) (n : Nat) :
    Nat.ofDigitChars 10 (text ++ List.replicate n '0') 0
      = Nat.ofDigitChars 10 text 0 * 10 ^ n := by
  rw [Nat.ofDigitChars_append, Nat.ofDigitChars_replicate_zero, Nat.mul_comm]

/-- Zeros before the digits of a number. -/
theorem ofDigitChars_zeros_append (text : List Char) (n : Nat) :
    Nat.ofDigitChars 10 (List.replicate n '0' ++ text) 0 = Nat.ofDigitChars 10 text 0 := by
  rw [Nat.ofDigitChars_append, Nat.ofDigitChars_replicate_zero, Nat.mul_zero]

/-- Digits around a point, without an exponent. -/
theorem read_point {whole fraction : List Char} (hw : AllDigits whole) (hf : AllDigits fraction) :
    read (whole ++ '.' :: fraction)
      = Nat.ofDigitChars 10 (whole ++ fraction) 0 * 10 ^ (-fraction.length : Int) := by
  rw [read_fixed (hw.fixed hf), readFixed_point hw, zpow_neg, zpow_natCast, div_eq_mul_inv]

/-- **What is written positionally has the value of its digits at their places.** -/
theorem read_positional {text : List Char} (h : AllDigits text) (leading : Int) :
    read (positional text leading)
      = Nat.ofDigitChars 10 text 0 * 10 ^ (leading + 1 - text.length) := by
  unfold positional
  split
  · -- all digits are behind the point, after some zeros
    rename_i negative
    have zeros := allDigits_append (allDigits_zeros (-leading - 1).toNat) h
    have shape : ['0', '.'] ++ List.replicate (-leading - 1).toNat '0' ++ text
        = List.replicate 1 '0' ++ '.' :: (List.replicate (-leading - 1).toNat '0' ++ text) := by
      simp
    rw [shape, read_point (allDigits_zeros 1) zeros, ofDigitChars_zeros_append,
      ofDigitChars_zeros_append, List.length_append, List.length_replicate]
    congr 2
    omega
  · rename_i positive
    dsimp only
    split
    · -- all digits are before the point, and some zeros behind them
      rename_i short
      have zeros : AllDigits (text ++ List.replicate (leading.toNat + 1 - text.length) '0') :=
        allDigits_append h (allDigits_zeros _)
      have places : leading + 1 - text.length
          = ((leading.toNat + 1 - text.length : Nat) : Int) := by omega
      change read (_ ++ '.' :: List.replicate 1 '0') = _
      rw [read_point zeros (allDigits_zeros 1), ofDigitChars_append_zeros, ofDigitChars_append_zeros,
        places, zpow_natCast, List.length_replicate, zpow_neg, zpow_natCast]
      push_cast
      ring
    · -- the point is between two digits
      rename_i long
      rw [List.append_assoc, List.singleton_append, read_point (h.take _) (h.drop _),
        List.take_append_drop, List.length_drop]
      congr 2
      omega

/-- **What is written with an exponent has the value of its digits at their places.** -/
theorem read_scientific {c : Char} {rest : List Char} (h : AllDigits (c :: rest)) (leading : Int) :
    read (scientific (c :: rest) leading)
      = Nat.ofDigitChars 10 (c :: rest) 0 * 10 ^ (leading - rest.length) := by
  have first : AllDigits [c] := h.take 1
  have more : AllDigits rest := h.drop 1
  unfold scientific
  simp only [List.take_succ_cons, List.take_zero, List.drop_succ_cons, List.drop_zero]
  cases rest with
  | nil =>
      change read ([c] ++ 'e' :: (if leading < 0 then '-' else '+') :: digits leading.natAbs) = _
      rw [read_exponent (first.ne 'e' rfl), readFixed_digits first, readExponent_digits]
      simp
  | cons d rest =>
      rw [List.append_assoc]
      change read ([c] ++ '.' :: d :: rest
        ++ 'e' :: (if leading < 0 then '-' else '+') :: digits leading.natAbs) = _
      rw [read_exponent (first.fixed more), readFixed_point first, readExponent_digits,
        zpow_sub₀ (by norm_num : (10 : ℚ) ≠ 0), zpow_natCast, div_mul_eq_mul_div, mul_div_assoc]
      rfl

theorem digits_eq_cons (n : Nat) : ∃ c rest, digits n = c :: rest :=
  List.exists_cons_of_ne_nil Nat.toDigits_ne_nil

/-- **What is written of a decimal has its value.** -/
theorem read_render (form : DecimalText) (d : Decimal) : read (form.render d) = d.rational := by
  have back : Nat.ofDigitChars 10 (digits d.digits) 0 = d.digits := Nat.ofDigitChars_ten_toDigits
  have all := allDigits_digits d.digits
  unfold render
  dsimp only
  split
  · rw [read_positional all, back, Decimal.rational]
    congr 2
    omega
  · obtain ⟨c, rest, hd⟩ := digits_eq_cons d.digits
    rw [hd] at all back ⊢
    rw [read_scientific all, back, Decimal.rational, List.length_cons]
    congr 2
    omega

/-! ### Characters -/

/-- Whether a character occurs in the texts of numbers. -/
def isNumeric (c : Char) : Bool :=
  c.isDigit || c == '.' || c == 'e' || c == '-' || c == '+'

/-- The text of a positive number: it begins with a digit, and a point or an exponent is in it. -/
structure IsReal (text : List Char) : Prop where
  first : ∃ c rest, text = c :: rest ∧ c.isDigit = true
  numeric : ∀ c ∈ text, isNumeric c = true
  marked : '.' ∈ text ∨ 'e' ∈ text

theorem AllDigits.numeric {text : List Char} (h : AllDigits text) :
    ∀ c ∈ text, isNumeric c = true := by
  intro c hc
  rw [isNumeric, h c hc]
  rfl

theorem isReal_positional {c : Char} {rest : List Char} (h : AllDigits (c :: rest))
    (leading : Int) : IsReal (positional (c :: rest) leading) := by
  have digit := h c List.mem_cons_self
  have numeric := h.numeric
  unfold positional
  split
  · refine ⟨⟨'0', _, rfl, rfl⟩, ?_, Or.inl (by simp)⟩
    have zeros := (allDigits_zeros (-leading - 1).toNat).numeric
    intro d hd
    simp only [List.mem_append, List.mem_cons, List.not_mem_nil, or_false] at hd
    rcases hd with ((rfl | rfl) | hd) | hd
    · rfl
    · rfl
    · exact zeros d hd
    · exact numeric d (List.mem_cons.2 hd)
  · dsimp only
    split
    · refine ⟨⟨c, _, rfl, digit⟩, ?_, Or.inl (by simp)⟩
      have zeros := (allDigits_zeros (leading.toNat + 1 - (c :: rest).length)).numeric
      intro d hd
      simp only [List.mem_append, List.mem_cons, List.not_mem_nil, or_false] at hd
      rcases hd with (hd | hd) | rfl | rfl
      · exact numeric d (List.mem_cons.2 hd)
      · exact zeros d hd
      · rfl
      · rfl
    · refine ⟨⟨c, _, rfl, digit⟩, ?_, Or.inl (by simp)⟩
      intro d hd
      rw [List.mem_append, List.mem_append, List.mem_singleton] at hd
      rcases hd with (hd | rfl) | hd
      · exact (h.take _).numeric d hd
      · rfl
      · exact (h.drop _).numeric d hd

theorem isReal_scientific {c : Char} {rest : List Char} (h : AllDigits (c :: rest))
    (leading : Int) : IsReal (scientific (c :: rest) leading) := by
  have digit := h c List.mem_cons_self
  unfold scientific
  refine ⟨⟨c, _, rfl, digit⟩, ?_, Or.inr (by simp)⟩
  have exponent := (allDigits_digits leading.natAbs).numeric
  intro d hd
  rw [List.mem_append, List.mem_append, List.mem_append] at hd
  rcases hd with ((hd | hd) | hd) | hd
  · exact (h.take 1).numeric d hd
  · split at hd
    · cases hd
    · rcases List.mem_cons.1 hd with rfl | hd
      · rfl
      · exact (h.drop 1).numeric d hd
  · simp only [List.mem_cons, List.not_mem_nil, or_false] at hd
    rcases hd with rfl | rfl
    · rfl
    · split <;> rfl
  · exact exponent d hd

/-- What is written of a decimal has a point or an exponent. -/
theorem isReal_render (form : DecimalText) (d : Decimal) : IsReal (form.render d) := by
  have all := allDigits_digits d.digits
  obtain ⟨c, rest, hd⟩ := digits_eq_cons d.digits
  unfold render
  rw [hd] at all ⊢
  dsimp only
  split
  · exact isReal_positional all _
  · exact isReal_scientific all _

end DecimalText

/-! ### Signs -/

/-- A sign and what comes after it are told apart, as long as that begins with a digit. -/
theorem eq_of_sign_append {a b : Bool} {s t : List Char}
    (hs : ∃ c rest, s = c :: rest ∧ c.isDigit = true)
    (ht : ∃ c rest, t = c :: rest ∧ c.isDigit = true)
    (h : (if a then ['-'] else []) ++ s = (if b then ['-'] else []) ++ t) : a = b ∧ s = t := by
  obtain ⟨c, rest, rfl, hc⟩ := hs
  obtain ⟨d, rest', rfl, hd⟩ := ht
  cases a with
  | true =>
      cases b with
      | true => exact ⟨rfl, (List.cons.inj h).2⟩
      | false =>
          rw [← (List.cons.inj h).1] at hd
          cases hd
  | false =>
      cases b with
      | true =>
          rw [(List.cons.inj h).1] at hc
          cases hc
      | false => exact ⟨rfl, h⟩

/-! ### Floats -/

/-- Zeros have the same mantissa and exponent. -/
theorem Dyadic.IsBinary64.eq_of_zero {x y : Dyadic} (hx : x.IsBinary64) (hy : y.IsBinary64)
    (zero : x.mantissa = 0) (zero' : y.mantissa = 0) : x = y := by
  have least : ∀ {z : Dyadic}, z.IsBinary64 → z.mantissa = 0 → z = ⟨0, -1074, false⟩ := by
    rintro ⟨m, e, least⟩ h (rfl : m = 0)
    have lowest : -1074 ≤ e := h.lowest
    obtain rfl : e = -1074 := by
      by_contra other
      have normal : 0x10000000000000 ≤ 0 := h.normal (show -1074 < e by omega)
      omega
    congr 1
    rw [Bool.eq_false_iff]
    intro first
    have mantissa : 0 = 0x10000000000000 := (h.least.1 first).1
    omega
  rw [least hx zero, least hy zero']

namespace Binary64

open DecimalText

/-- The text of a float after its sign. -/
theorem isReal_body (form : DecimalText) (x : Dyadic) :
    IsReal (if x.mantissa = 0 then ['0', '.', '0'] else form.render x.shortest) := by
  split
  · refine ⟨⟨'0', _, rfl, rfl⟩, ?_, Or.inl (by simp)⟩
    intro c hc
    simp only [List.mem_cons, List.not_mem_nil, or_false] at hc
    rcases hc with rfl | rfl | rfl <;> rfl
  · exact isReal_render form _

/-- **Different floats have different texts.** -/
theorem text_injective {x y : Binary64} (h : x.text = y.text) : x = y := by
  have text : ∀ z : Binary64, z.text = (if z.negative then ['-'] else [])
      ++ if z.dyadic.mantissa = 0 then ['0', '.', '0'] else form.render z.dyadic.shortest :=
    fun _ => rfl
  rw [text, text] at h
  obtain ⟨sign, body⟩ := eq_of_sign_append (isReal_body form x.dyadic).first
    (isReal_body form y.dyadic).first h
  have hx := x.isBinary64
  have hy := y.isBinary64
  refine eq_of_dyadic sign ?_
  have zero : DecimalText.read ['0', '.', '0'] = 0 := by
    simp [DecimalText.read, DecimalText.readFixed, DecimalText.readExponent, Nat.ofDigitChars]
  -- no other number than zero is written as zero is
  have nonzero : ∀ z : Dyadic, z.IsBinary64 → 0 < z.mantissa →
      ['0', '.', '0'] ≠ form.render z.shortest := by
    intro z hz positive same
    have read := congrArg DecimalText.read same
    rw [zero, DecimalText.read_render] at read
    have covers := (hz.covers_shortest positive).lower
    rw [← read] at covers
    exact absurd (Dyadic.lowerEnd_pos positive) covers.not_gt
  rcases Nat.eq_zero_or_pos x.dyadic.mantissa with hm | hm
  · rcases Nat.eq_zero_or_pos y.dyadic.mantissa with hn | hn
    · exact hx.eq_of_zero hy hm hn
    · rw [if_pos hm, if_neg hn.ne'] at body
      exact absurd body (nonzero _ hy hn)
  · rcases Nat.eq_zero_or_pos y.dyadic.mantissa with hn | hn
    · rw [if_neg hm.ne', if_pos hn] at body
      exact absurd body.symm (nonzero _ hx hm)
    · rw [if_neg hm.ne', if_neg hn.ne'] at body
      have read := congrArg DecimalText.read body
      rw [DecimalText.read_render, DecimalText.read_render] at read
      exact hx.eq_of_shortest hy hm hn read

end Binary64

/-! ### Numbers -/

/-- Different integers have different texts. -/
theorem Integer.text_injective {m n : Integer} (h : m.text = n.text) : m = n := by
  have first : ∀ n : Nat, ∃ c rest, Nat.toDigits 10 n = c :: rest ∧ c.isDigit = true := by
    intro n
    obtain ⟨c, rest, hd⟩ := DecimalText.digits_eq_cons n
    exact ⟨c, rest, hd, DecimalText.allDigits_digits n c (hd ▸ List.mem_cons_self)⟩
  have text : ∀ n : Integer, n.text
      = (if decide (n.val < 0) then ['-'] else []) ++ Nat.toDigits 10 n.val.natAbs := by
    intro n
    unfold text
    congr 1
    simp
  rw [text, text] at h
  obtain ⟨sign, digits⟩ := eq_of_sign_append (first _) (first _) h
  have magnitude : m.val.natAbs = n.val.natAbs := by
    rw [← Nat.ofDigitChars_ten_toDigits (n := m.val.natAbs), digits,
      Nat.ofDigitChars_ten_toDigits]
  have sign := decide_eq_decide.1 sign
  exact Integer.eq_of_val (by omega)

namespace Number

open DecimalText

/-- A number is written with numeric characters only. -/
theorem numeric_text (n : Number) : ∀ c ∈ n.text, isNumeric c = true := by
  have signed : ∀ (negative : Bool) {body : List Char}, (∀ c ∈ body, isNumeric c = true) →
      ∀ c ∈ (if negative then ['-'] else []) ++ body, isNumeric c = true := by
    intro negative body hb c hc
    rcases List.mem_append.1 hc with hc | hc
    · split at hc
      · rw [List.mem_singleton.1 hc]
        rfl
      · cases hc
    · exact hb c hc
  cases n with
  | int n =>
      have digits := signed (decide (n.val < 0)) (allDigits_digits n.val.natAbs).numeric
      simpa [text, Integer.text, DecimalText.digits] using digits
  | float x => exact signed _ (Binary64.isReal_body Binary64.form x.val.dyadic).numeric

/-- No number is written as nothing. -/
theorem text_ne_nil (n : Number) : n.text ≠ [] := by
  cases n with
  | int n => exact List.append_ne_nil_of_right_ne_nil _ Nat.toDigits_ne_nil
  | float x =>
      intro empty
      obtain ⟨c, rest, written, -⟩ := (Binary64.isReal_body Binary64.form x.val.dyadic).first
      cases written.symm.trans (List.append_eq_nil_iff.1 empty).2

/-- A float has a point or an exponent. -/
theorem marked_text_float (x : Finite64) :
    '.' ∈ (Number.float x).text ∨ 'e' ∈ (Number.float x).text := by
  have body := (Binary64.isReal_body Binary64.form x.val.dyadic).marked
  exact body.imp (List.mem_append_right _) (List.mem_append_right _)

/-- An integer has neither. -/
theorem unmarked_text_int (n : Integer) :
    '.' ∉ (Number.int n).text ∧ 'e' ∉ (Number.int n).text := by
  have unmarked : ∀ c : Char, c.isDigit = false → c ≠ '-' → c ∉ (Number.int n).text := by
    intro c digit sign hc
    rcases List.mem_append.1 hc with hc | hc
    · split at hc
      · exact sign (List.mem_singleton.1 hc)
      · cases hc
    · rw [allDigits_digits _ c hc] at digit
      cases digit
  exact ⟨unmarked '.' rfl (by decide), unmarked 'e' rfl (by decide)⟩

/-- **Different numbers have different texts.** -/
theorem text_injective {m n : Number} (h : m.text = n.text) : m = n := by
  have different : ∀ (i : Integer) (x : Finite64),
      (Number.int i).text ≠ (Number.float x).text := by
    intro i x same
    obtain ⟨point, exponent⟩ := unmarked_text_int i
    rw [same] at point exponent
    rcases marked_text_float x with marked | marked
    · exact point marked
    · exact exponent marked
  cases m with
  | int i =>
      cases n with
      | int j => exact congrArg Number.int (Integer.text_injective h)
      | float y => exact absurd h (different i y)
  | float x =>
      cases n with
      | int j => exact absurd h.symm (different j x)
      | float y =>
          obtain ⟨x, _⟩ := x
          obtain ⟨y, _⟩ := y
          obtain rfl : x = y := Binary64.text_injective h
          rfl

end Number

end DocStore
