/-
What a change does to a bucket.

A bucket is planned from what was read of it: the list of its documents is changed, and the write
is the one that leaves the changed list behind.  This module separates the two, so that nothing
later looks into a plan.

* `Bucket.Change.apply` — the list after a change; `Bucket.documents?` — the list that is stored;
* `Bucket.rewrite` — the write that puts another list in the place of what is stored;
* `Bucket.plan_eq` — **a plan is the rewrite to the changed list, unless that is stored already;**
* `Bucket.Listable` — documents whose lists survive being written, and `Bucket.WellFormed` — bytes
  of a list of such documents, not empty and without repetition;
* `Bucket.wellFormed_of_plan` — a plan from a well-formed bucket writes well-formed ones only;
* `Store.bucket?_rewrite` — a rewrite that goes through leaves the list behind and no other bucket
  changed.
-/

import DocStore.Index.Bucket
import DocStore.Proofs.MessagePack.Strings
import DocStore.Proofs.Store.Versions
import Mathlib.Data.Set.Card

set_option autoImplicit false

namespace DocStore

namespace Bucket

/-! ### Lists of documents -/

/-- The documents of a bucket after a change: one that enters comes last. -/
def Change.apply (change : Change) (document : String) (documents : List String) : List String :=
  match change with
  | .add => if document ∈ documents then documents else documents ++ [document]
  | .remove => documents.erase document

/-- The documents of a bucket, given what is stored; there are none in one that is not there. -/
def documents? : Option (Versioned Bytes) → Option (List String)
  | none => some []
  | some stored => decode? stored.value

theorem nodup_apply (change : Change) (document : String) {documents : List String}
    (h : documents.Nodup) : (change.apply document documents).Nodup := by
  cases change with
  | remove => exact h.erase document
  | add =>
      simp only [Change.apply]
      split
      · exact h
      · rename_i new
        exact List.nodup_append.2 ⟨h, List.nodup_singleton document, by
          rintro d hd e he rfl
          exact new (List.mem_singleton.1 he ▸ hd)⟩

/-- Only the document that enters or leaves is concerned by a change. -/
theorem mem_apply {change : Change} {document other : String} {documents : List String}
    (h : documents.Nodup) :
    other ∈ change.apply document documents
      ↔ if other = document then change = .add else other ∈ documents := by
  cases change with
  | remove =>
      rw [Change.apply, h.mem_erase_iff]
      split
      · rename_i same
        simp [same]
      · rename_i different
        simp [different]
  | add =>
      simp only [Change.apply]
      by_cases same : other = document
      · subst same
        by_cases hm : other ∈ documents <;> simp [hm]
      · by_cases hm : document ∈ documents <;> simp [hm, same]

theorem mem_of_mem_apply {change : Change} {document other : String} {documents : List String}
    (h : other ∈ change.apply document documents) : other = document ∨ other ∈ documents := by
  cases change with
  | remove => exact Or.inr (List.mem_of_mem_erase h)
  | add =>
      simp only [Change.apply] at h
      split at h
      · exact Or.inr h
      · rcases List.mem_append.1 h with hm | hm
        · exact Or.inr hm
        · exact Or.inl (List.mem_singleton.1 hm)

/-! ### Rewriting -/

/-- The write that puts a list of documents in the place of what is stored; a bucket that loses its
last document is deleted. -/
def rewrite : Option (Versioned Bytes) → List String → SlotWrite
  | none, documents => .create (encode documents)
  | some stored, [] => .erase stored.counter
  | some stored, documents => .replace (encode documents) stored.counter

theorem accepts_rewrite (stored : Option (Versioned Bytes)) (documents : List String) :
    (rewrite stored documents).Accepts stored := by
  match stored, documents with
  | none, _ => rfl
  | some _, [] => rfl
  | some _, _ :: _ => rfl

/-- **A plan is the rewrite to the changed list, unless that is stored already.** -/
theorem plan_eq {change : Change} {document : String} {stored : Option (Versioned Bytes)}
    {documents : List String} (h : documents? stored = some documents) :
    plan change document stored
      = .ok (if change.apply document documents = documents then none
          else some (rewrite stored (change.apply document documents))) := by
  cases stored with
  | none =>
      obtain rfl : [] = documents := Option.some.inj h
      cases change <;> simp [plan, Change.apply, rewrite]
  | some stored =>
      simp only [documents?] at h
      by_cases hm : document ∈ documents
      · cases change with
        | add => simp [plan, h, Change.apply, hm]
        | remove =>
            -- a list that loses a document is shorter, so that this is never taken for no change
            have shorter : ¬ Change.remove.apply document documents = documents := by
              intro same
              rw [Change.apply] at same
              have := List.length_erase_of_mem hm
              have := List.length_pos_of_mem hm
              rw [same] at *
              omega
            rw [if_neg shorter]
            simp only [plan, h, Change.apply, if_pos hm]
            -- the bucket of the last document is deleted, any other one is replaced
            cases documents.erase document <;> rfl
      · cases change with
        | add =>
            simp only [plan, h, Change.apply, if_neg hm]
            rw [if_neg (by simp)]
            cases documents <;> rfl
        | remove => simp [plan, h, Change.apply, hm, List.erase_of_not_mem]

/-- There is no plan for a bucket that cannot be decoded. -/
theorem plan_of_documents?_eq_none {change : Change} {document : String}
    {stored : Option (Versioned Bytes)} (h : documents? stored = none) :
    plan change document stored = .error .decode := by
  cases stored with
  | none => exact absurd h (Option.some_ne_none _)
  | some stored => simp only [plan, show decode? stored.value = none from h]

/-- A planned write is a rewrite of the bucket that was read. -/
theorem eq_rewrite_of_plan {change : Change} {document : String}
    {stored : Option (Versioned Bytes)} {write : SlotWrite}
    (h : plan change document stored = .ok (some write)) :
    ∃ documents, documents? stored = some documents ∧
      change.apply document documents ≠ documents ∧
      write = rewrite stored (change.apply document documents) := by
  cases hd : documents? stored with
  | none =>
      rw [plan_of_documents?_eq_none hd] at h
      cases h
  | some documents =>
      rw [plan_eq hd] at h
      split at h
      · cases h
      · rename_i changed
        exact ⟨documents, rfl, changed, (Option.some.inj (Except.ok.inj h)).symm⟩

/-! ### Well-formed buckets -/

/-- Documents whose lists survive being written: the format counts the items of an array and the
bytes of a string in 32 bits. -/
structure Listable (documents : Set String) : Prop where
  /-- There are not too many of them for an array. -/
  few : documents.encard < 0x100000000
  /-- None of them is too long for a string. -/
  short : ∀ d ∈ documents, (Utf8.encode d).length < 0x100000000

/-- Two documents are not too many. -/
theorem listable_pair {d e : String} (hd : (Utf8.encode d).length < 0x100000000)
    (he : (Utf8.encode e).length < 0x100000000) : Listable {d, e} := by
  refine ⟨lt_of_le_of_lt (Set.encard_insert_le _ _) ?_, ?_⟩
  · rw [Set.encard_singleton]
    exact_mod_cast (by decide : 1 + 1 < 0x100000000)
  · rintro _ (rfl | rfl)
    · exact hd
    · exact he

theorem Listable.length_lt {documents : Set String} (h : Listable documents)
    {list : List String} (nodup : list.Nodup) (sub : ∀ d ∈ list, d ∈ documents) :
    list.length < 0x100000000 := by
  -- without repetition a list is no longer than the set of its items
  have inside : (list.toFinset : Set String) ⊆ documents := by
    intro d hd
    exact sub d (by simpa using hd)
  have bound := lt_of_le_of_lt (Set.encard_le_encard inside) h.few
  rw [Set.encard_coe_eq_coe_finsetCard, List.toFinset_card_of_nodup nodup] at bound
  exact_mod_cast bound

/-- A list of documents without repetition is read back. -/
theorem Listable.decode?_encode {documents : Set String} (h : Listable documents)
    {list : List String} (nodup : list.Nodup) (sub : ∀ d ∈ list, d ∈ documents) :
    decode? (encode list) = some list :=
  decodeStrings?_encoding (h.length_lt nodup sub) fun d hd => h.short d (sub d hd)

/-- Bytes of a list of some of these documents, not empty and without repetition. -/
def WellFormed (documents : Set String) (bytes : Bytes) : Prop :=
  ∃ list, decode? bytes = some list ∧ list ≠ [] ∧ list.Nodup ∧ ∀ d ∈ list, d ∈ documents

/-- A rewrite to a list of such documents writes nothing else than well-formed buckets. -/
theorem wellFormed_of_rewrite {documents : Set String} (h : Listable documents)
    {stored : Option (Versioned Bytes)} {list : List String} (nodup : list.Nodup)
    (sub : ∀ d ∈ list, d ∈ documents) (change : documents? stored ≠ some list) {bytes : Bytes}
    (hb : (rewrite stored list).value? = some bytes) : WellFormed documents bytes := by
  match stored, list, hb with
  -- an empty bucket is never created: nothing is stored there already
  | none, [], _ => exact absurd rfl change
  | none, d :: rest, hb =>
      obtain rfl := Option.some.inj hb
      exact ⟨d :: rest, h.decode?_encode nodup sub, List.cons_ne_nil d rest, nodup, sub⟩
  | some _, d :: rest, hb =>
      obtain rfl := Option.some.inj hb
      exact ⟨d :: rest, h.decode?_encode nodup sub, List.cons_ne_nil d rest, nodup, sub⟩

/-- The documents of a bucket that is well-formed if it is there. -/
theorem documents?_of_wellFormed {documents : Set String} {stored : Option (Versioned Bytes)}
    (h : ∀ v, stored = some v → WellFormed documents v.value) :
    ∃ list, documents? stored = some list ∧ list.Nodup ∧ (∀ d ∈ list, d ∈ documents) ∧
      (list = [] ↔ stored = none) := by
  cases stored with
  | none => exact ⟨[], rfl, List.nodup_nil, by simp, by simp⟩
  | some v =>
      obtain ⟨list, hd, ne, nodup, sub⟩ := h v rfl
      exact ⟨list, hd, nodup, sub, by simp [ne]⟩

/-- A plan from a well-formed bucket writes well-formed ones only. -/
theorem wellFormed_of_plan {documents : Set String} (h : Listable documents) {change : Change}
    {document : String} (mem : document ∈ documents) {stored : Option (Versioned Bytes)}
    (before : ∀ v, stored = some v → WellFormed documents v.value) {write : SlotWrite}
    (hp : plan change document stored = .ok (some write)) {bytes : Bytes}
    (hb : write.value? = some bytes) : WellFormed documents bytes := by
  obtain ⟨list, hd, nodup, sub, -⟩ := documents?_of_wellFormed before
  obtain ⟨other, ho, changed, rfl⟩ := eq_rewrite_of_plan hp
  obtain rfl : list = other := Option.some.inj (hd.symm.trans ho)
  refine wellFormed_of_rewrite h (nodup_apply change document nodup) ?_ ?_ hb
  · intro d hm
    rcases mem_of_mem_apply hm with rfl | hm
    · exact mem
    · exact sub d hm
  · intro same
    exact changed (Option.some.inj (same.symm.trans hd))

end Bucket

namespace Store

/-! ### Stores of buckets -/

/-- The documents of a bucket, if it can be decoded. -/
def bucket? (store : Store) (indexKey : Bytes) : Option (List String) :=
  Bucket.documents? (store.get? indexKey)

/-- A store whose values are well-formed buckets. -/
def HoldsBuckets (store : Store) (documents : Set String) : Prop :=
  ∀ key stored, store.get? key = some stored → Bucket.WellFormed documents stored.value

theorem holdsBuckets_empty (name : String) (documents : Set String) :
    (Store.empty name).HoldsBuckets documents := by
  intro key stored h
  exact absurd h (Option.some_ne_none stored).symm

theorem HoldsBuckets.bucket? {store : Store} {documents : Set String}
    (h : store.HoldsBuckets documents) (indexKey : Bytes) :
    ∃ list, store.bucket? indexKey = some list ∧ list.Nodup ∧ (∀ d ∈ list, d ∈ documents) ∧
      (list = [] ↔ store.get? indexKey = none) :=
  Bucket.documents?_of_wellFormed (h indexKey)

theorem HoldsBuckets.applied {store : Store} {documents : Set String}
    (h : store.HoldsBuckets documents) {write : SlotWrite} {key : Bytes}
    (hw : ∀ bytes, write.value? = some bytes → Bucket.WellFormed documents bytes) :
    (write.applied store key).HoldsBuckets documents := by
  intro other stored hs
  rw [get?_applied] at hs
  split at hs
  · obtain ⟨bytes, hb, rfl⟩ := Option.map_eq_some_iff.1 hs
    exact hw bytes hb
  · exact h other stored hs

/-- A rewrite that goes through leaves the list behind and no other bucket changed. -/
theorem bucket?_rewrite {store : Store} {documents : Set String}
    (listable : Bucket.Listable documents) (key : Bytes) {list : List String}
    (nodup : list.Nodup) (sub : ∀ d ∈ list, d ∈ documents) (other : Bytes) :
    ((Bucket.rewrite (store.get? key) list).applied store key).bucket? other
      = if other = key then some list else store.bucket? other := by
  have back := listable.decode?_encode nodup sub
  rw [Store.bucket?, get?_applied]
  split
  · cases store.get? key with
    | none => exact back
    | some stored =>
        cases list with
        | nil => rfl
        | cons d rest => exact back
  · rfl

end Store

end DocStore
