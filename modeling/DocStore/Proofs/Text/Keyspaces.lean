/-
Keyspaces are told apart by their names.

The names of a table and of an index stand in the name of a keyspace in hexadecimal digits.  From
the digits the bytes of a text can be read back, and from these the text; and as the point between
two names is no digit, what comes before it can be told from what comes after it.

* `Bytes.hex_injective` — a byte string is determined by its digits;
* `Name.buckets_inj`, `Name.buckets_injective` — different indexes have different keyspaces;
* `Name.buckets_ne_documents` — buckets and documents are kept apart;
* `Owner`, `Owner.keyspace_injective` — **a keyspace tells whose it is.**
-/

import DocStore.Name
import Mathlib.Data.List.Basic
import Mathlib.Logic.Function.Basic

set_option autoImplicit false

namespace DocStore

namespace Bytes

/-! ### Hexadecimal digits -/

/-- The sixteen digits differ. -/
theorem hexDigit_injOn : ∀ m < 16, ∀ n < 16, hexDigit m = hexDigit n → m = n := by
  decide

/-- A byte is determined by its two digits. -/
theorem eq_of_hexDigits {a b : UInt8} (high : hexDigit (a.toNat / 16) = hexDigit (b.toNat / 16))
    (low : hexDigit (a.toNat % 16) = hexDigit (b.toNat % 16)) : a = b := by
  have ha : a.toNat < 256 := a.toNat_lt
  have hb : b.toNat < 256 := b.toNat_lt
  have hhigh : a.toNat / 16 = b.toNat / 16 :=
    hexDigit_injOn _ (by omega) _ (by omega) high
  have hlow : a.toNat % 16 = b.toNat % 16 := hexDigit_injOn _ (by omega) _ (by omega) low
  exact UInt8.toNat_inj.1 (by omega)

theorem hexChars_injective : Function.Injective hexChars := by
  intro bytes
  induction bytes with
  | nil =>
      intro others h
      cases others with
      | nil => rfl
      | cons b others => simp [hexChars] at h
  | cons a bytes ih =>
      intro others h
      cases others with
      | nil => simp [hexChars] at h
      | cons b others =>
          simp only [hexChars, List.flatMap_cons, List.cons_append, List.nil_append,
            List.cons.injEq] at h
          obtain ⟨high, low, rest⟩ := h
          rw [eq_of_hexDigits high low, ih rest]

theorem hex_injective : Function.Injective hex := by
  intro bytes others h
  exact hexChars_injective (String.ofList_injective h)

/-- A point is no digit. -/
theorem point_ne_hexDigit : ∀ n < 16, '.' ≠ hexDigit n := by
  decide

theorem point_notMem_hex (bytes : Bytes) : '.' ∉ (hex bytes).toList := by
  intro h
  rw [hex, String.toList_ofList] at h
  obtain ⟨b, -, hb⟩ := List.mem_flatMap.1 h
  have lt : b.toNat < 256 := b.toNat_lt
  rcases List.mem_cons.1 hb with high | hb
  · exact point_ne_hexDigit _ (by omega) high
  · exact point_ne_hexDigit _ (by omega) (List.mem_singleton.1 hb)

end Bytes

namespace Name

/-! ### Keyspaces -/

/-- The keyspace of buckets tells the table and the index. -/
theorem buckets_inj {table index other otherIndex : String} :
    buckets table index = buckets other otherIndex ↔ table = other ∧ index = otherIndex := by
  constructor
  · intro h
    have chars := congrArg String.toList h
    simp only [buckets, String.toList_append, List.append_assoc] at chars
    -- after the mark of buckets come the digits of the table, a point, and those of the index
    have names := (List.append_cons_inj_of_notMem (Bytes.point_notMem_hex (Utf8.encode table))
      (Bytes.point_notMem_hex (Utf8.encode index))).1 (List.append_cancel_left chars)
    exact ⟨Utf8.encode_injective (Bytes.hex_injective (String.toList_injective names.1)),
      Utf8.encode_injective (Bytes.hex_injective (String.toList_injective names.2.2))⟩
  · rintro ⟨rfl, rfl⟩
    rfl

/-- Different indexes of a table have different keyspaces. -/
theorem buckets_injective (table : String) : Function.Injective (buckets table) :=
  fun _ _ h => (buckets_inj.1 h).2

/-- The keyspace of documents tells the table. -/
theorem documents_injective : Function.Injective documents := by
  intro table other h
  have chars := congrArg String.toList h
  simp only [documents, String.toList_append] at chars
  exact Utf8.encode_injective
    (Bytes.hex_injective (String.toList_injective (List.append_cancel_left chars)))

/-- No keyspace of buckets is one of documents: their names begin differently. -/
theorem buckets_ne_documents (table index other : String) :
    buckets table index ≠ documents other := by
  intro h
  have first := congrArg (fun s => s.toList.head?) h
  simp [buckets, documents] at first

end Name

/-! ### Owners -/

/-- Whom a keyspace can belong to. -/
inductive Owner
  /-- The documents of a table. -/
  | documents (table : String)
  /-- The buckets of an index of a table. -/
  | buckets (table index : String)
  deriving DecidableEq

namespace Owner

/-- The name of the keyspace. -/
def keyspace : Owner → String
  | .documents table => Name.documents table
  | .buckets table index => Name.buckets table index

/-- The name of the table. -/
def table : Owner → String
  | .documents table => table
  | .buckets table _ => table

/-- **A keyspace tells whose it is.** -/
theorem keyspace_injective : Function.Injective keyspace := by
  intro owner other h
  cases owner with
  | documents table =>
      cases other with
      | documents otherTable => rw [Name.documents_injective h]
      | buckets otherTable index => exact absurd h.symm (Name.buckets_ne_documents _ _ _)
  | buckets table index =>
      cases other with
      | documents otherTable => exact absurd h (Name.buckets_ne_documents _ _ _)
      | buckets otherTable otherIndex =>
          obtain ⟨rfl, rfl⟩ := Name.buckets_inj.1 h
          rfl

end Owner

end DocStore
