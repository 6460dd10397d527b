/-
Lenient reading agrees with strict reading on well-formed text.

`Utf8.lossy` replaces what is ill-formed; this module shows that it replaces nothing else: the
bytes of a text are read back as that text (`Utf8.lossy_encode`).  Keys of documents are stored as
bytes and handed out as text again, so this is why a key survives the way through a store.

* `Utf8.lossyFrom_continued`, `Utf8.lossyFrom_last` — the machine takes a byte inside a character;
* `Utf8.lossyFrom_utf8EncodeChar` — the machine takes the bytes of one character and is between
  characters again;
* `Utf8.lossy_encode` — the same for a text.
-/

import DocStore.Text.Utf8
import Mathlib.Data.List.Basic

set_option autoImplicit false

namespace DocStore

namespace Utf8

/-! ### Inside a character -/

/-- A byte that is written as a number below 256 is read as that number. -/
theorem toNat_byte {n : Nat} (h : n < 256) : (UInt8.ofNat n).toNat = n := by
  rw [UInt8.toNat_ofNat', Nat.mod_eq_of_lt (by simpa using h)]

/-- A byte in the range of the begun character, with more to come. -/
theorem lossyFrom_continued {value more least greatest n : Nat} (rest : Bytes) (hn : n < 256)
    (h : least ≤ n ∧ n ≤ greatest) :
    lossyFrom (some ⟨value, more + 1, least, greatest⟩) (UInt8.ofNat n :: rest)
      = lossyFrom (some ⟨value * 64 + n % 64, more, 0x80, 0xBF⟩) rest := by
  simp only [lossyFrom, continued, toNat_byte hn, if_pos h, List.nil_append]

/-- A byte in the range of the begun character that completes it. -/
theorem lossyFrom_last {value least greatest n : Nat} (rest : Bytes) (hn : n < 256)
    (h : least ≤ n ∧ n ≤ greatest) :
    lossyFrom (some ⟨value, 0, least, greatest⟩) (UInt8.ofNat n :: rest)
      = Char.ofNat (value * 64 + n % 64) :: lossyFrom none rest := by
  simp only [lossyFrom, continued, toNat_byte hn, if_pos h, List.cons_append, List.nil_append]

/-! ### One character -/

/-- The number of a character is a Unicode scalar value. -/
theorem scalar_of_char (c : Char) :
    c.val.toNat < 0xD800 ∨ 0xDFFF < c.val.toNat ∧ c.val.toNat < 0x110000 := c.valid

/-- The first byte of a character of two bytes. -/
theorem first_of_two {n : Nat} (h : 0xC2 ≤ n ∧ n < 0xE0) :
    first (UInt8.ofNat n) = ([], some ⟨n - 0xC0, 0, 0x80, 0xBF⟩) := by
  unfold first
  rw [toNat_byte (by omega)]
  simp only [show ¬ n < 0x80 by omega, show ¬ n < 0xC2 by omega, h.2, if_true, if_false]

/-- The first byte of a character of three bytes: its second byte is bounded where the character
would otherwise be too small or a surrogate. -/
theorem first_of_three {n : Nat} (h : 0xE0 ≤ n ∧ n < 0xF0) :
    first (UInt8.ofNat n)
      = ([], some ⟨n - 0xE0, 1, if n = 0xE0 then 0xA0 else 0x80,
          if n = 0xED then 0x9F else 0xBF⟩) := by
  unfold first
  rw [toNat_byte (by omega)]
  simp only [show ¬ n < 0x80 by omega, show ¬ n < 0xC2 by omega, show ¬ n < 0xE0 by omega,
    if_false]
  by_cases h0 : n = 0xE0
  · simp [h0]
  · by_cases hD : n = 0xED
    · simp [hD]
    · simp [h0, hD, h.2]

/-- The first byte of a character of four bytes: its second byte is bounded where the character
would otherwise be too small or too great. -/
theorem first_of_four {n : Nat} (h : 0xF0 ≤ n ∧ n ≤ 0xF4) :
    first (UInt8.ofNat n)
      = ([], some ⟨n - 0xF0, 2, if n = 0xF0 then 0x90 else 0x80,
          if n = 0xF4 then 0x8F else 0xBF⟩) := by
  unfold first
  rw [toNat_byte (by omega)]
  simp only [show ¬ n < 0x80 by omega, show ¬ n < 0xC2 by omega, show ¬ n < 0xE0 by omega,
    show ¬ n = 0xE0 by omega, show ¬ n = 0xED by omega, show ¬ n < 0xF0 by omega, if_false]
  by_cases h0 : n = 0xF0
  · simp [h0]
  · by_cases h4 : n = 0xF4
    · simp [h4]
    · simp [h0, h4, show n < 0xF4 by omega]

/-- Reading the bytes of a character gives that character, and nothing is left over. -/
theorem lossyFrom_utf8EncodeChar (c : Char) (rest : Bytes) :
    lossyFrom none (String.utf8EncodeChar c ++ rest) = c :: lossyFrom none rest := by
  have scalar := scalar_of_char c
  have back : ∀ n, n = c.val.toNat → Char.ofNat n = c := fun n h => h ▸ Char.ofNat_toNat c
  generalize hv : c.val.toNat = v at scalar back
  unfold String.utf8EncodeChar
  simp only [hv]
  -- one case for each length that a character can have
  split
  · have hb : (UInt8.ofNat v).toNat = v := toNat_byte (by omega)
    simp [lossyFrom, first, hb, show v < 0x80 by omega, back]
  · split
    · rw [List.cons_append, lossyFrom, first_of_two (by omega), List.nil_append, List.cons_append,
        lossyFrom_last _ (by omega) (by omega), back _ (by omega), List.nil_append]
    · split
      · rw [List.cons_append, lossyFrom, first_of_three (by omega), List.nil_append,
          List.cons_append, lossyFrom_continued _ (by omega) (by constructor <;> split <;> omega),
          List.cons_append, lossyFrom_last _ (by omega) (by omega), back _ (by omega),
          List.nil_append]
      · rw [List.cons_append, lossyFrom, first_of_four (by omega), List.nil_append,
          List.cons_append, lossyFrom_continued _ (by omega) (by constructor <;> split <;> omega),
          List.cons_append, lossyFrom_continued _ (by omega) (by omega), List.cons_append,
          lossyFrom_last _ (by omega) (by omega), back _ (by omega), List.nil_append]

/-! ### A text -/

/-- The bytes of a text are those of its characters. -/
theorem encode_ofList (chars : List Char) :
    encode (String.ofList chars) = chars.flatMap String.utf8EncodeChar := by
  rw [encode, String.toByteArray_ofList, List.utf8Encode]
  simp

theorem lossyFrom_flatMap (chars : List Char) :
    lossyFrom none (chars.flatMap String.utf8EncodeChar) = chars := by
  induction chars with
  | nil => rfl
  | cons c chars ih => rw [List.flatMap_cons, lossyFrom_utf8EncodeChar, ih]

/-- **Lenient reading changes no text.** -/
@[simp] theorem lossy_encode (text : String) : lossy (encode text) = text := by
  rw [← String.ofList_toList (s := text), encode_ofList, lossy, lossyFrom_flatMap]

end Utf8

end DocStore
