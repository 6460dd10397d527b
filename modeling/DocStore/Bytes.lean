/-
Byte strings, the form in which keys and documents are stored.

* `Bytes` — a byte string as a list, compared lexicographically;
* `Bytes.bigEndian`, `Bytes.toNat` — a natural number written in a fixed number of bytes, most
  significant first, and the number that a byte string denotes (`Bytes.toNat_bigEndian`);
* `Bytes.split?` — the first `n` bytes and the rest, when there are that many
  (`Bytes.split?_append`);
* `Bytes.hex` — two lower-case hexadecimal digits a byte.
-/

set_option autoImplicit false

namespace DocStore

/-- A byte string.  The order on lists compares two of them byte by byte. -/
abbrev Bytes := List UInt8

namespace Bytes

/-! ### Numbers of fixed width -/

/-- The number `n` in `width` bytes, most significant first; what does not fit is cut off. -/
def bigEndian : (width : Nat) → (n : Nat) → Bytes
  | 0, _ => []
  | width + 1, n => UInt8.ofNat (n / Nat.pow 256 width) :: bigEndian width n

/-- The number that a byte string denotes, most significant byte first. -/
def toNat (bytes : Bytes) : Nat :=
  bytes.foldl (fun n b => n * 256 + b.toNat) 0

@[simp] theorem length_bigEndian (width n : Nat) : (bigEndian width n).length = width := by
  induction width with
  | zero => rfl
  | succ width ih => simp [bigEndian, ih]

theorem foldl_bigEndian (width n start : Nat) :
    (bigEndian width n).foldl (fun n b => n * 256 + b.toNat) start
      = start * Nat.pow 256 width + n % Nat.pow 256 width := by
  induction width generalizing start with
  | zero => simp [bigEndian, Nat.mod_one]
  | succ width ih =>
      have digit :
          (UInt8.ofNat (n / Nat.pow 256 width)).toNat = n / Nat.pow 256 width % 256 := by simp
      have power : Nat.pow 256 (width + 1) = Nat.pow 256 width * 256 := rfl
      rw [bigEndian, List.foldl_cons, ih, digit, power, Nat.mod_mul, Nat.add_mul, Nat.mul_assoc,
        Nat.mul_comm 256, Nat.mul_comm (Nat.pow 256 width) (n / Nat.pow 256 width % 256)]
      omega

/-- Writing a number and reading it back loses only what does not fit. -/
@[simp] theorem toNat_bigEndian (width n : Nat) :
    toNat (bigEndian width n) = n % Nat.pow 256 width := by
  simp [toNat, foldl_bigEndian]

/-! ### Taking a byte string apart -/

/-- The first `n` bytes and the rest, or `none` when there are fewer than `n`. -/
def split? (n : Nat) (bytes : Bytes) : Option (Bytes × Bytes) :=
  let (first, rest) := bytes.splitAt n
  if first.length = n then some (first, rest) else none

theorem split?_append {n : Nat} {first : Bytes} (rest : Bytes) (h : first.length = n) :
    split? n (first ++ rest) = some (first, rest) := by
  subst h
  simp [split?]

/-! ### Hexadecimal text -/

/-- The lower-case hexadecimal digit for a number below 16. -/
def hexDigit (n : Nat) : Char :=
  if n < 10 then Char.ofNat (48 + n) else Char.ofNat (87 + n)

/-- Two lower-case hexadecimal digits a byte. -/
def hexChars (bytes : Bytes) : List Char :=
  bytes.flatMap fun b => [hexDigit (b.toNat / 16), hexDigit (b.toNat % 16)]

/-- Two lower-case hexadecimal digits a byte. -/
def hex (bytes : Bytes) : String :=
  String.ofList (hexChars bytes)

end Bytes

end DocStore
