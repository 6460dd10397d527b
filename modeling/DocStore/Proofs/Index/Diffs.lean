/-
Which buckets a change of a document concerns.

A document belongs into the bucket of a key when its path finds a value with this key in it.  When
the bytes of a document change, it has to leave and to enter exactly the buckets for which this
changes.

* `FieldPath.Yields` — a path finds a value with an index key in encoded bytes;
* `FieldPath.mem_indexKeys`, `Membership.wanted_iff` — the keys of a document, and whether it
  belongs into a bucket, are said by this;
* `IndexSync.mem_changes_iff` — **the memberships that a change of a document touches are those
  that it ends and those that it begins**;
* `FieldPath.foundKeys`, `InFoundOrder` — the keys of all values that a path finds, one after
  another, and lists of some of them in the order in which each is found first;
* `IndexDiff.between_differences` — **a change is the difference of the keys before and after it,
  in both directions, index by index.**
-/

import DocStore.Index.Sync

set_option autoImplicit false

namespace DocStore

namespace FieldPath

/-- A path finds a value with an index key in encoded bytes. -/
def Yields (path : FieldPath) (bytes indexKey : Bytes) : Prop :=
  ∃ value ∈ path.extractEncoded bytes, value.indexKey = indexKey

variable {path : FieldPath} {bytes indexKey : Bytes}

/-- The keys of a document are those that its path finds values with. -/
theorem mem_indexKeys : indexKey ∈ path.indexKeys bytes ↔ path.Yields bytes indexKey := by
  unfold indexKeys Yields extractEncoded
  cases Json.decode? bytes with
  | none => simp
  | some document => simp [Json.indexKeys, List.mem_eraseDups]

/-- Nothing is found where there are no bytes. -/
theorem not_yields_nil : ¬ path.Yields [] indexKey := by
  rintro ⟨value, hv, -⟩
  cases hv

end FieldPath

/-- A document belongs into a bucket when it exists and yields its key. -/
theorem Membership.wanted_iff {m : Membership} {stored : Option (Versioned Bytes)} :
    m.wanted stored = true ↔ ∃ v, stored = some v ∧ m.index.path.Yields v.value m.indexKey := by
  cases stored with
  | none => simp [wanted]
  | some v => simp [wanted, FieldPath.Yields]

/-- A document that is missing is as one without bytes. -/
theorem Membership.wanted_iff_elim {m : Membership} {stored : Option (Versioned Bytes)} :
    m.wanted stored = true
      ↔ m.index.path.Yields (stored.elim [] Versioned.value) m.indexKey := by
  rw [wanted_iff]
  cases stored with
  | none => simp [FieldPath.not_yields_nil]
  | some v => simp

/-! ### Differences -/

namespace IndexDiff

theorem mem_missing {index : String} {these those : List Bytes} {b : BucketId} :
    b ∈ missing index these those ↔ b.index = index ∧ b.indexKey ∈ these ∧ b.indexKey ∉ those := by
  obtain ⟨name, indexKey⟩ := b
  simp only [missing, List.mem_map, List.mem_filter, Bool.not_eq_true', BucketId.mk.injEq]
  constructor
  · rintro ⟨k, ⟨hk, hn⟩, rfl, rfl⟩
    exact ⟨rfl, hk, by simpa using hn⟩
  · rintro ⟨rfl, hk, hn⟩
    exact ⟨indexKey, ⟨hk, by simpa using hn⟩, rfl, rfl⟩

theorem mem_additions {old new : Bytes} {indexes : List (String × FieldPath)} {b : BucketId} :
    b ∈ (between old new indexes).additions ↔ ∃ path, (b.index, path) ∈ indexes ∧
      path.Yields new b.indexKey ∧ ¬ path.Yields old b.indexKey := by
  simp only [between, List.mem_flatMap, mem_missing, FieldPath.mem_indexKeys]
  constructor
  · rintro ⟨⟨name, path⟩, hi, rfl, hk⟩
    exact ⟨path, hi, hk⟩
  · rintro ⟨path, hi, hk⟩
    exact ⟨(b.index, path), hi, rfl, hk⟩

theorem mem_removals {old new : Bytes} {indexes : List (String × FieldPath)} {b : BucketId} :
    b ∈ (between old new indexes).removals ↔ ∃ path, (b.index, path) ∈ indexes ∧
      path.Yields old b.indexKey ∧ ¬ path.Yields new b.indexKey := by
  simp only [between, List.mem_flatMap, mem_missing, FieldPath.mem_indexKeys]
  constructor
  · rintro ⟨⟨name, path⟩, hi, rfl, hk⟩
    exact ⟨path, hi, hk⟩
  · rintro ⟨path, hi, hk⟩
    exact ⟨(b.index, path), hi, rfl, hk⟩

end IndexDiff

/-! ### The order of keys -/

/-- The keys of the values that a path finds in encoded bytes, one for each value. -/
def FieldPath.foundKeys (path : FieldPath) (bytes : Bytes) : List Bytes :=
  (path.extractEncoded bytes).map Json.indexKey

/-- A list has those of the keys found that fulfil a condition, each once, in the order in which
they are found for the first time. -/
structure InFoundOrder (found : List Bytes) (condition : Bytes → Prop) (keys : List Bytes) :
    Prop where
  mem : ∀ k, k ∈ keys ↔ k ∈ found ∧ condition k
  nodup : keys.Nodup
  ordered : keys.Pairwise fun k l => found.idxOf k < found.idxOf l

/-- What comes first among selected keys comes first among all. -/
theorem idxOf_lt_of_filter {selects : Bytes → Bool} {found : List Bytes} {k l : Bytes}
    (hk : selects k = true) (hl : selects l = true)
    (less : (found.filter selects).idxOf k < (found.filter selects).idxOf l) :
    found.idxOf k < found.idxOf l := by
  induction found with
  | nil => exact absurd less (Nat.lt_irrefl 0)
  | cons first found ih =>
      by_cases selected : selects first = true
      · rw [List.filter_cons_of_pos selected, List.idxOf_cons, List.idxOf_cons] at less
        rw [List.idxOf_cons, List.idxOf_cons]
        revert less
        cases first == k <;> cases first == l <;> intro less
        · exact Nat.succ_lt_succ (ih (Nat.lt_of_succ_lt_succ less))
        · exact absurd less (Nat.not_lt_zero _)
        · exact Nat.succ_pos _
        · exact absurd less (Nat.lt_irrefl 0)
      · have other : ∀ {k}, selects k = true → (first == k) = false := by
          intro k hk
          refine beq_false_of_ne ?_
          rintro rfl
          exact selected hk
        rw [List.filter_cons_of_neg selected] at less
        rw [List.idxOf_cons, List.idxOf_cons, other hk, other hl]
        exact Nat.succ_lt_succ (ih less)

/-- Without repetitions, keys stand in the order in which they are found first. -/
theorem pairwise_eraseDups (found : List Bytes) :
    found.eraseDups.Pairwise fun k l => found.idxOf k < found.idxOf l := by
  match found with
  | [] => exact .nil
  | first :: found =>
      -- what is left of the others has no `first` in it any more, and is shorter
      have others := pairwise_eraseDups (found.filter fun k => !k == first)
      have differs : ∀ k ∈ (found.filter fun k => !k == first).eraseDups,
          (!k == first) = true := by
        intro k hk
        exact (List.mem_filter.1 (List.mem_eraseDups.1 hk)).2
      have behind : ∀ k, (!k == first) = true →
          (first :: found).idxOf k = found.idxOf k + 1 := by
        intro k hk
        have ne : (first == k) = false := by
          rw [BEq.comm]
          simpa using hk
        rw [List.idxOf_cons, ne]
        rfl
      rw [List.eraseDups_cons]
      refine List.pairwise_cons.2 ⟨fun k hk => ?_, others.imp_of_mem fun {k l} hk hl less => ?_⟩
      · rw [behind k (differs k hk), List.idxOf_cons_self]
        exact Nat.succ_pos _
      · rw [behind k (differs k hk), behind l (differs l hl)]
        exact Nat.succ_lt_succ (idxOf_lt_of_filter (differs k hk) (differs l hl) less)
termination_by found.length
decreasing_by exact Nat.lt_succ_of_le (List.length_filter_le _ _)

namespace FieldPath

theorem indexKeys_eq (path : FieldPath) (bytes : Bytes) :
    path.indexKeys bytes = (path.foundKeys bytes).eraseDups := by
  unfold indexKeys foundKeys extractEncoded
  cases Json.decode? bytes <;> rfl

theorem mem_indexKeys_iff {path : FieldPath} {bytes k : Bytes} :
    k ∈ path.indexKeys bytes ↔ k ∈ path.foundKeys bytes := by
  rw [indexKeys_eq, List.mem_eraseDups]

/-- The keys of one document that another one lacks, in the order in which they are found. -/
theorem inFoundOrder_filter (path : FieldPath) (bytes others : Bytes) :
    InFoundOrder (path.foundKeys bytes) (· ∉ path.foundKeys others)
      ((path.indexKeys bytes).filter fun k => !(path.indexKeys others).contains k) := by
  have ordered := pairwise_eraseDups (path.foundKeys bytes)
  rw [← indexKeys_eq] at ordered
  refine ⟨fun k => ?_, (ordered.imp ?_).filter _, ordered.filter _⟩
  · rw [List.mem_filter, mem_indexKeys_iff, Bool.not_eq_true', ← Bool.not_eq_true,
      List.contains_iff_mem, mem_indexKeys_iff]
  · rintro k _ less rfl
    exact Nat.lt_irrefl _ less

end FieldPath

namespace IndexDiff

theorem missing_eq_nil_iff {index : String} {these those : List Bytes} :
    missing index these those = [] ↔ ∀ k ∈ these, k ∈ those := by
  simp [missing, List.filter_eq_nil_iff]

/-- **A change is the difference of the keys before and after it, in both directions.**  Index by
index, in their order, the additions are the keys found in the new document and not in the old one,
and the removals those found in the old one and not in the new one, each once and in the order in
which they are found first.  So no key is gained and lost, and the keys without the lost ones, and
with the gained ones, are the new keys.  The change back is the same with both lists exchanged, and
nothing changes exactly if every index has the same keys before and after. -/
theorem between_differences (old new : Bytes) (indexes : List (String × FieldPath)) :
    (∃ gained lost : FieldPath → List Bytes,
      (between old new indexes).additions
        = indexes.flatMap (fun i => (gained i.2).map (BucketId.mk i.1)) ∧
      (between old new indexes).removals
        = indexes.flatMap (fun i => (lost i.2).map (BucketId.mk i.1)) ∧
      ∀ path : FieldPath,
        InFoundOrder (path.foundKeys new) (· ∉ path.foundKeys old) (gained path) ∧
        InFoundOrder (path.foundKeys old) (· ∉ path.foundKeys new) (lost path) ∧
        (∀ k ∈ gained path, k ∉ lost path) ∧
        ∀ k, k ∈ path.foundKeys new ↔
          k ∈ path.foundKeys old ∧ k ∉ lost path ∨ k ∈ gained path) ∧
    between new old indexes
      = ⟨(between old new indexes).removals, (between old new indexes).additions⟩ ∧
    ((between old new indexes).isEmpty = true ↔
      ∀ i ∈ indexes, ∀ k, k ∈ i.2.foundKeys old ↔ k ∈ i.2.foundKeys new) := by
  have gained := fun path : FieldPath => path.inFoundOrder_filter new old
  have lost := fun path : FieldPath => path.inFoundOrder_filter old new
  refine ⟨⟨fun path => (path.indexKeys new).filter fun k => !(path.indexKeys old).contains k,
    fun path => (path.indexKeys old).filter fun k => !(path.indexKeys new).contains k,
    rfl, rfl, fun path => ⟨gained path, lost path, fun k hg hl => ?_, fun k => ?_⟩⟩, rfl, ?_⟩
  · exact (((gained path).mem k).1 hg).2 (((lost path).mem k).1 hl).1
  · rw [(gained path).mem, (lost path).mem]
    by_cases before : k ∈ path.foundKeys old <;> by_cases after : k ∈ path.foundKeys new <;>
      simp [before, after]
  · simp only [isEmpty, between, Bool.and_eq_true, List.isEmpty_iff, List.flatMap_eq_nil_iff,
      missing_eq_nil_iff, FieldPath.mem_indexKeys_iff]
    constructor
    · rintro ⟨none, none'⟩ i hi k
      exact ⟨none' i hi k, none i hi k⟩
    · intro same
      exact ⟨fun i hi k => (same i hi k).2, fun i hi k => (same i hi k).1⟩

end IndexDiff

namespace IndexSync

/-- Among indexes with different names, one is found by its name. -/
theorem find?_name {indexes : List Index}
    (distinct : ∀ i ∈ indexes, ∀ j ∈ indexes, i.name = j.name → i = j) {index : Index}
    (h : index ∈ indexes) : indexes.find? (fun i => i.name == index.name) = some index := by
  cases hf : indexes.find? (fun i => i.name == index.name) with
  | none => exact absurd (List.find?_eq_none.1 hf index h) (by simp)
  | some found =>
      have name : found.name = index.name := by simpa using List.find?_some hf
      rw [distinct found (List.mem_of_find?_eq_some hf) index h name]

/-- **The memberships that a change of a document touches are those that it ends and those that it
begins.** -/
theorem mem_changes_iff {indexes : List Index}
    (distinct : ∀ i ∈ indexes, ∀ j ∈ indexes, i.name = j.name → i = j) {document : String}
    {old new : Bytes} {m : Membership} {change : Bucket.Change} :
    (m, change) ∈ changes indexes document old new ↔
      m.index ∈ indexes ∧ m.document = document ∧
        match change with
        | .add => m.index.path.Yields new m.indexKey ∧ ¬ m.index.path.Yields old m.indexKey
        | .remove => m.index.path.Yields old m.indexKey ∧ ¬ m.index.path.Yields new m.indexKey := by
  -- a bucket is named by the name of its index, which tells the index
  have listed : ∀ {b : BucketId} {path : FieldPath},
      (b.index, path) ∈ indexes.map (fun i => (i.name, i.path)) →
        ∃ i ∈ indexes, i.name = b.index ∧ i.path = path := by
    intro b path h
    obtain ⟨i, hi, he⟩ := List.mem_map.1 h
    exact ⟨i, hi, (Prod.mk.inj he).1, (Prod.mk.inj he).2⟩
  have found : ∀ {b : BucketId} {i : Index},
      indexes.find? (fun i => i.name == b.index) = some i → i ∈ indexes ∧ i.name = b.index :=
    fun h => ⟨List.mem_of_find?_eq_some h, by simpa using List.find?_some h⟩
  simp only [changes, List.mem_append, List.mem_filterMap, Option.map_eq_some_iff,
    IndexDiff.mem_removals, IndexDiff.mem_additions, Prod.mk.injEq]
  constructor
  · rintro (⟨b, ⟨path, hp, hk⟩, i, hf, rfl, rfl⟩ | ⟨b, ⟨path, hp, hk⟩, i, hf, rfl, rfl⟩)
    all_goals
      obtain ⟨j, hj, hname, rfl⟩ := listed hp
      obtain ⟨hi, iname⟩ := found hf
      obtain rfl := distinct j hj i hi (hname.trans iname.symm)
      exact ⟨hi, rfl, hk⟩
  · rintro ⟨hi, rfl, hk⟩
    have hf := find?_name distinct hi
    have hp : (m.index.name, m.index.path) ∈ indexes.map (fun i => (i.name, i.path)) :=
      List.mem_map.2 ⟨m.index, hi, rfl⟩
    cases change with
    | remove =>
        exact Or.inl ⟨⟨m.index.name, m.indexKey⟩, ⟨m.index.path, hp, hk⟩, m.index, hf, rfl, rfl⟩
    | add =>
        exact Or.inr ⟨⟨m.index.name, m.indexKey⟩, ⟨m.index.path, hp, hk⟩, m.index, hf, rfl, rfl⟩

end IndexSync

end DocStore
