/-
Text as bytes: UTF-8, read strictly and read leniently.

* `Utf8.encode`, `Utf8.decode?` — the bytes of a text, and the text of a byte string that is
  well-formed UTF-8; each undoes the other (`Utf8.decode?_encode`, `Utf8.encode_of_decode?`);
* `Utf8.lossy` — a text for any byte string: each maximal ill-formed part becomes one U+FFFD.

The lenient reader is a machine that takes one byte at a time.  Between characters it holds
nothing; inside one it knows how many continuation bytes are still owed and which values the next
of them may have.  A byte that cannot continue the character ends the ill-formed part before it
and is then read as the beginning of a character of its own.
-/

import DocStore.Bytes

set_option autoImplicit false

namespace DocStore

namespace Utf8

/-! ### Strict reading -/

/-- The bytes of a text. -/
def encode (text : String) : Bytes :=
  text.toByteArray.data.toList

/-- The text whose bytes these are, or `none` when they are not well-formed UTF-8. -/
def decode? (bytes : Bytes) : Option String :=
  String.fromUTF8? ⟨bytes.toArray⟩

/-- Every text is read back from its bytes. -/
@[simp] theorem decode?_encode (text : String) : decode? (encode text) = some text := by
  have h : (⟨text.toByteArray.data⟩ : ByteArray) = text.toByteArray := rfl
  simp only [decode?, encode, String.fromUTF8?, Array.toArray_toList, h]
  rw [dif_pos text.isValidUTF8]
  rfl

/-- Only the bytes of a text are read as that text. -/
theorem encode_of_decode? {bytes : Bytes} {text : String} (h : decode? bytes = some text) :
    encode text = bytes := by
  unfold decode? String.fromUTF8? at h
  split at h
  · rw [← Option.some.inj h]
    rfl
  · simp at h

/-- Different texts have different bytes. -/
theorem encode_injective {s t : String} (h : encode s = encode t) : s = t :=
  Option.some.inj (by rw [← decode?_encode s, h, decode?_encode])

/-! ### Lenient reading -/

/-- A character of which some bytes have been read. -/
structure Begun where
  /-- The bits read so far. -/
  value : Nat
  /-- How many continuation bytes come after the next one. -/
  more : Nat
  /-- The least value of the next byte. -/
  least : Nat
  /-- The greatest value of the next byte. -/
  greatest : Nat

/-- The character that stands for an ill-formed part. -/
def replacement : Char :=
  Char.ofNat 0xFFFD

/-- Reads one byte between characters: the characters that it completes, and the character that
it begins. -/
def first (b : UInt8) : List Char × Option Begun :=
  let n := b.toNat
  if n < 0x80 then ([Char.ofNat n], none)
  else if n < 0xC2 then ([replacement], none)
  else if n < 0xE0 then ([], some ⟨n - 0xC0, 0, 0x80, 0xBF⟩)
  else if n = 0xE0 then ([], some ⟨0, 1, 0xA0, 0xBF⟩)
  else if n = 0xED then ([], some ⟨0xD, 1, 0x80, 0x9F⟩)
  else if n < 0xF0 then ([], some ⟨n - 0xE0, 1, 0x80, 0xBF⟩)
  else if n = 0xF0 then ([], some ⟨0, 2, 0x90, 0xBF⟩)
  else if n < 0xF4 then ([], some ⟨n - 0xF0, 2, 0x80, 0xBF⟩)
  else if n = 0xF4 then ([], some ⟨4, 2, 0x80, 0x8F⟩)
  else ([replacement], none)

/-- Reads one byte inside a character. -/
def continued (c : Begun) (b : UInt8) : List Char × Option Begun :=
  if c.least ≤ b.toNat ∧ b.toNat ≤ c.greatest then
    let value := c.value * 64 + b.toNat % 64
    match c.more with
    | 0 => ([Char.ofNat value], none)
    | more + 1 => ([], some ⟨value, more, 0x80, 0xBF⟩)
  else
    let (chars, begun) := first b
    (replacement :: chars, begun)

/-- The characters of a byte string that follows the begun character, if any. -/
def lossyFrom : Option Begun → Bytes → List Char
  | none, [] => []
  | some _, [] => [replacement]
  | none, b :: rest => (first b).1 ++ lossyFrom (first b).2 rest
  | some c, b :: rest => (continued c b).1 ++ lossyFrom (continued c b).2 rest

/-- The text of a byte string, with U+FFFD for each maximal ill-formed part. -/
def lossy (bytes : Bytes) : String :=
  String.ofList (lossyFrom none bytes)

end Utf8

end DocStore
