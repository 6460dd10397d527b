/-
Finite maps that keep their entries in the order of the keys.

* `SortedMap` — a list of entries with strictly ascending keys;
* `SortedMap.find?`, `SortedMap.insert`, `SortedMap.erase` — the operations, with the laws that say
  what each of them does to every look-up.
-/

set_option autoImplicit false

namespace DocStore

/-- A list of entries with strictly ascending keys. -/
structure SortedMap (κ β : Type) [LT κ] where
  /-- The entries, by ascending key. -/
  entries : List (κ × β)
  /-- The keys ascend strictly. -/
  ascending : entries.Pairwise fun a b => a.1 < b.1

namespace SortedMap

/-! ### Lists of entries -/

section Entries

variable {κ β : Type} [LT κ] [DecidableEq κ] [DecidableLT κ]

/-- Puts an entry in its place, instead of an older one with the same key. -/
def insertEntry (key : κ) (value : β) : List (κ × β) → List (κ × β)
  | [] => [(key, value)]
  | e :: rest =>
      if key < e.1 then (key, value) :: e :: rest
      else if key = e.1 then (key, value) :: rest
      else e :: insertEntry key value rest

/-- The value of the entry with a key. -/
def lookUp? (key : κ) : List (κ × β) → Option β
  | [] => none
  | e :: rest => if key = e.1 then some e.2 else lookUp? key rest

theorem mem_insertEntry {key : κ} {value : β} {entries : List (κ × β)} {e : κ × β}
    (h : e ∈ insertEntry key value entries) : e = (key, value) ∨ e ∈ entries := by
  induction entries with
  | nil => simpa [insertEntry] using h
  | cons d rest ih =>
      unfold insertEntry at h
      split at h
      · simpa using h
      · split at h
        · rcases List.mem_cons.1 h with h | h
          · exact .inl h
          · exact .inr (.tail _ h)
        · rcases List.mem_cons.1 h with h | h
          · exact .inr (h ▸ .head _)
          · exact (ih h).imp id (.tail _)

theorem pairwise_insertEntry [LE κ] [Std.IsLinearOrder κ] [Std.LawfulOrderLT κ]
    (key : κ) (value : β) {entries : List (κ × β)}
    (h : entries.Pairwise fun a b => a.1 < b.1) :
    (insertEntry key value entries).Pairwise fun a b => a.1 < b.1 := by
  induction entries with
  | nil => simp [insertEntry]
  | cons d rest ih =>
      rw [List.pairwise_cons] at h
      unfold insertEntry
      split
      · rename_i lt
        refine List.pairwise_cons.2 ⟨?_, List.pairwise_cons.2 h⟩
        intro e he
        rcases List.mem_cons.1 he with rfl | he
        · exact lt
        · exact Std.lt_trans lt (h.1 e he)
      · split
        · rename_i eq
          exact List.pairwise_cons.2 ⟨fun e he => by simpa [eq] using h.1 e he, h.2⟩
        · rename_i nlt ne
          refine List.pairwise_cons.2 ⟨?_, ih h.2⟩
          intro e he
          rcases mem_insertEntry he with rfl | he
          · rcases Std.lt_trichotomy d.1 key with lt | eq | gt
            · exact lt
            · exact absurd eq.symm ne
            · exact absurd gt nlt
          · exact h.1 e he

theorem lookUp?_insertEntry (key other : κ) (value : β) (entries : List (κ × β)) :
    lookUp? other (insertEntry key value entries)
      = if other = key then some value else lookUp? other entries := by
  induction entries with
  | nil => by_cases h : other = key <;> simp [insertEntry, lookUp?, h]
  | cons d rest ih =>
      unfold insertEntry
      split
      · by_cases h : other = key <;> simp [lookUp?, h]
      · split
        · rename_i eq
          by_cases h : other = key <;> simp [lookUp?, h, ← eq]
        · rename_i ne
          by_cases h : other = d.1
          · simp [lookUp?, h, Ne.symm ne]
          · simp [lookUp?, h, ih]

omit [LT κ] [DecidableLT κ] in
theorem lookUp?_filter_ne (key other : κ) (entries : List (κ × β)) :
    lookUp? other (entries.filter fun e => e.1 != key)
      = if other = key then none else lookUp? other entries := by
  induction entries with
  | nil => simp [lookUp?]
  | cons d rest ih =>
      by_cases hd : d.1 = key
      · have skip : (d :: rest).filter (fun e => e.1 != key) = rest.filter fun e => e.1 != key := by
          simp [hd]
        rw [skip, ih]
        by_cases h : other = key <;> simp [lookUp?, hd, h]
      · by_cases h : other = d.1
        · simp [lookUp?, hd, h]
        · simp [lookUp?, hd, h, ih]

end Entries

/-! ### Maps -/

variable {κ β : Type} [LT κ] [DecidableEq κ] [DecidableLT κ]

/-- The map without entries. -/
def empty : SortedMap κ β :=
  ⟨[], .nil⟩

/-- The keys, ascending. -/
def keys (m : SortedMap κ β) : List κ :=
  m.entries.map (·.1)

/-- The value of a key. -/
def find? (m : SortedMap κ β) (key : κ) : Option β :=
  lookUp? key m.entries

/-- The map with this value at a key. -/
def insert [LE κ] [Std.IsLinearOrder κ] [Std.LawfulOrderLT κ]
    (m : SortedMap κ β) (key : κ) (value : β) : SortedMap κ β :=
  ⟨insertEntry key value m.entries, pairwise_insertEntry key value m.ascending⟩

/-- The map without a key. -/
def erase (m : SortedMap κ β) (key : κ) : SortedMap κ β :=
  ⟨m.entries.filter fun e => e.1 != key, m.ascending.filter _⟩

omit [DecidableLT κ] in
@[simp] theorem find?_empty (key : κ) : (empty : SortedMap κ β).find? key = none := rfl

@[simp] theorem find?_insert [LE κ] [Std.IsLinearOrder κ] [Std.LawfulOrderLT κ]
    (m : SortedMap κ β) (key other : κ) (value : β) :
    (m.insert key value).find? other = if other = key then some value else m.find? other :=
  lookUp?_insertEntry key other value m.entries

omit [DecidableLT κ] in
@[simp] theorem find?_erase (m : SortedMap κ β) (key other : κ) :
    (m.erase key).find? other = if other = key then none else m.find? other :=
  lookUp?_filter_ne key other m.entries

end SortedMap

end DocStore
