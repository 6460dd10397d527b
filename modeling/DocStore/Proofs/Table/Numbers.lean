/-
Asking an index for the numbers between two numbers.

The bounds of a walk are index keys, and so the walk knows only the order in which numbers are
filed: the integers of 64 bits come first, by their value, and all other numbers follow, by theirs.
Between two integers a walk finds every integer that lies between them, in whichever form it was
written, and no other number: a fraction between the two is passed over (`Session.numbers_skipped`).
Between two fractions it finds the fractions, and no integer.

* `Database.Tidy.filed_between`, `Database.Tidy.exists_filed` — what the buckets between the keys of
  two numbers hold, and which buckets there are;
* `Session.numbers_between` — **a walk between two numbers gives every document once for each value
  that it yields and that is filed between them, in the order in which the values are filed.**
-/

import DocStore.Proofs.Index.Order
import DocStore.Proofs.Index.Walks
import DocStore.Proofs.Table.History

set_option autoImplicit false

namespace DocStore

variable {db first : Database} {table : Table} {documents : Set String} {earlier : List Database}
  {index : Index} {low high : Number}

/-- The path finds a number of this value in encoded bytes. -/
def FieldPath.YieldsNumber (path : FieldPath) (bytes : Bytes) (value : ℚ) : Prop :=
  ∃ n : Number, .number n ∈ path.extractEncoded bytes ∧ n.rational = value

/-- The numbers of one value are filed under one key. -/
theorem FieldPath.yields_ofNumber_iff {path : FieldPath} {bytes : Bytes} {n : Number} :
    path.Yields bytes (IndexKey.ofNumber n) ↔ path.YieldsNumber bytes n.rational := by
  constructor
  · rintro ⟨tree, found, key⟩
    have same : tree.indexKey = (Json.number n).indexKey := key
    rcases Json.eq_or_of_indexKey same with rfl | ⟨m, n', rfl, eq, value⟩
    · exact ⟨n, found, rfl⟩
    · cases eq
      exact ⟨m, found, value⟩
  · rintro ⟨m, found, value⟩
    exact ⟨_, found, IndexKey.ofNumber_congr value⟩

/-- The bound at a value that is a number. -/
theorem Bound.ofValue?_number {value : Value} {n : Number} (h : value.toJson? = some (.number n)) :
    Bound.ofValue? value = some (.key (IndexKey.ofNumber n)) := by
  rw [ofValue?, Value.indexKey?, h]
  rfl

/-- What is filed under a smaller key has another value, and one that is filed before. -/
theorem IndexKey.filedUpTo_of_lt {m n : Number} (h : ofNumber m < ofNumber n) :
    FiledUpTo m.rational n.rational ∧ m.rational ≠ n.rational := by
  refine ⟨(ofNumber_le_iff m n).1 (Std.le_of_lt h), fun same => ?_⟩
  rw [ofNumber_congr same] at h
  exact Std.lt_irrefl h

/-! ### What the buckets hold -/

namespace Database.Tidy

variable (tidy : db.Tidy table documents) (registered : db.Registered table index)
include tidy registered

/-- The bucket of a key lists the documents that yield it, and is there if there are any. -/
theorem bucket_spec (indexKey : Bytes) :
    ∃ list, (db.backend.store index.buckets).bucket? indexKey = some list ∧ list.Nodup ∧
      (∀ d, d ∈ list ↔ db.Yields table index.path indexKey d) ∧
      (list = [] ↔ (db.backend.store index.buckets).get? indexKey = none) := by
  obtain ⟨list, hl, nodup, -, empty⟩ := (tidy.tended.buckets index registered).bucket? indexKey
  refine ⟨list, hl, nodup, fun d => ?_, empty⟩
  rw [← registered.due_iff tidy.tended.arranged, ← tidy.exact,
    Database.listed_of_bucket? registered hl]

/-- Every bucket between the keys of two numbers is that of a number, and lists the documents that
yield it. -/
theorem filed_between {e : Entry}
    (h : e ∈ (db.backend.store index.buckets).scan (.key (IndexKey.ofNumber low))
      (.key (IndexKey.ofNumber high)) false) :
    ∃ (value : ℚ) (list : List String), Bucket.decode? e.value = some list ∧ list.Nodup ∧
      (∃ n : Number, n.rational = value ∧ IndexKey.ofNumber n = e.key) ∧
      ∀ d, d ∈ list ↔ ∃ stored,
        (db.backend.store table.documents).get? (Utf8.encode d) = some stored ∧
          index.path.YieldsNumber stored.value value := by
  obtain ⟨found, below, above⟩ := Store.mem_scan.1 h
  obtain ⟨list, decoded, nodup, members, empty⟩ := tidy.bucket_spec registered e.key
  rw [found] at empty
  rw [Store.bucket?, found] at decoded
  -- a bucket that is there is that of some value, which lies between two numbers
  obtain ⟨d, hd⟩ := List.exists_mem_of_ne_nil list (empty.not.2 (Option.some_ne_none _))
  obtain ⟨stored, -, tree, -, key⟩ := (members d).1 hd
  rw [← key] at below above
  obtain ⟨n, rfl⟩ := Json.exists_number_of_between (m := low) (n := high)
    (of_decide_eq_true below) (of_decide_eq_true above)
  refine ⟨n.rational, list, decoded, nodup, ⟨n, rfl, key⟩, fun d => ?_⟩
  rw [members, ← key]
  exact exists_congr fun stored => and_congr_right fun _ => FieldPath.yields_ofNumber_iff

/-- Every number that is filed between two others has a bucket there. -/
theorem exists_filed {n : Number} {d : String} {stored : Versioned Bytes}
    (found : (db.backend.store table.documents).get? (Utf8.encode d) = some stored)
    (yields : index.path.Yields stored.value (IndexKey.ofNumber n))
    (below : IndexKey.ofNumber low ≤ IndexKey.ofNumber n)
    (above : IndexKey.ofNumber n ≤ IndexKey.ofNumber high) :
    ∃ e ∈ (db.backend.store index.buckets).scan (.key (IndexKey.ofNumber low))
      (.key (IndexKey.ofNumber high)) false, e.key = IndexKey.ofNumber n := by
  obtain ⟨list, -, -, members, empty⟩ := tidy.bucket_spec registered (IndexKey.ofNumber n)
  have listed : list ≠ [] := List.ne_nil_of_mem ((members d).2 ⟨stored, found, yields⟩)
  obtain ⟨bucket, hb⟩ := Option.ne_none_iff_exists'.1 (empty.not.1 listed)
  exact ⟨⟨IndexKey.ofNumber n, bucket.value, bucket.counter⟩,
    Store.mem_scan.2 ⟨hb, decide_eq_true below, decide_eq_true above⟩, rfl⟩

/-- A walk gives what the buckets list, bucket after bucket, if all that they list is there. -/
theorem items_eq_map {α : Type} {lower upper : Bound} {list : Entry → List String}
    {stored : String → Versioned Bytes} (value : Entry → α)
    (decoded : ∀ e ∈ (db.backend.store index.buckets).scan lower upper false,
      Bucket.decode? e.value = some (list e))
    (there : ∀ e ∈ (db.backend.store index.buckets).scan lower upper false, ∀ d ∈ list e,
      (db.backend.store table.documents).get? (Utf8.encode d) = some (stored d)) :
    index.items db lower upper false
      = (((db.backend.store index.buckets).scan lower upper false).flatMap fun e =>
          (list e).map fun d => (value e, d, stored d)).map fun f => .ok (entryOf f.2.1 f.2.2) := by
  rw [Index.items, registered.documents tidy.tended.arranged, Store.filed, List.filterMap_flatMap,
    List.map_flatMap]
  refine List.flatMap_congr fun e he => ?_
  have row : Bucket.filed false e.value = (list e).map Filed.document := by
    rw [Bucket.filed, decoded e he]
    rfl
  rw [row, List.filterMap_map, List.map_map, List.filterMap_eq_map_iff_forall_eq_some]
  intro d hd
  simp [Filed.item?, there e he d hd]

/-- **What the buckets between the keys of two numbers hold**: every document once for each value
that it yields and that is filed between them, in the order in which the values are filed. -/
theorem exists_found (low high : Number) :
    ∃ found : List (ℚ × String × Versioned Bytes),
      index.items db (.key (IndexKey.ofNumber low)) (.key (IndexKey.ofNumber high)) false
          = found.map (fun f => .ok (entryOf f.2.1 f.2.2)) ∧
        found.Nodup ∧
        (∀ value d stored, (value, d, stored) ∈ found ↔
          (db.backend.store table.documents).get? (Utf8.encode d) = some stored ∧
            index.path.YieldsNumber stored.value value ∧
            IndexKey.FiledUpTo low.rational value ∧ IndexKey.FiledUpTo value high.rational) ∧
        found.Pairwise fun f g => IndexKey.FiledUpTo f.1 g.1 := by
  have there : ∀ e ∈ (db.backend.store index.buckets).scan (.key (IndexKey.ofNumber low))
      (.key (IndexKey.ofNumber high)) false, _ :=
    fun e he => tidy.filed_between registered he
  choose! value list decoded nodup number members using there
  -- what is stored in a document, and what one bucket adds to the answer
  let stored := fun d => ((db.backend.store table.documents).get? (Utf8.encode d)).getD ⟨[], 0⟩
  let found := ((db.backend.store index.buckets).scan (.key (IndexKey.ofNumber low))
    (.key (IndexKey.ofNumber high)) false).flatMap fun e =>
      (list e).map fun d => (value e, d, stored d)
  have apart : ((db.backend.store index.buckets).scan (.key (IndexKey.ofNumber low))
      (.key (IndexKey.ofNumber high)) false).Pairwise fun e f =>
        IndexKey.FiledUpTo (value e) (value f) ∧ value e ≠ value f := by
    refine (Store.pairwise_scan _ _ _ _).imp_of_mem ?_
    intro e f he hf before
    obtain ⟨m, hm, key⟩ := number e he
    obtain ⟨n, hn, key'⟩ := number f hf
    rw [← hm, ← hn]
    refine IndexKey.filedUpTo_of_lt ?_
    rw [key, key']
    exact before
  refine ⟨found, tidy.items_eq_map registered value decoded fun e he d hd => ?_, ?_, ?_, ?_⟩
  · obtain ⟨v, hv, -⟩ := (members e he d).1 hd
    simp [stored, hv]
  · refine List.nodup_flatMap.2 ⟨fun e he => ?_, apart.imp fun values x hx hy => ?_⟩
    · exact (nodup e he).map fun d d' same => (Prod.mk.inj (Prod.mk.inj same).2).1
    · obtain ⟨_, -, rfl⟩ := List.mem_map.1 hx
      obtain ⟨_, -, same⟩ := List.mem_map.1 hy
      exact values.2 (Prod.mk.inj same).1.symm
  · intro q d v
    simp only [found, List.mem_flatMap, List.mem_map, Prod.mk.injEq]
    constructor
    · rintro ⟨e, he, d, hd, rfl, rfl, rfl⟩
      obtain ⟨v, hv, yields⟩ := (members e he d).1 hd
      obtain ⟨-, below, above⟩ := Store.mem_scan.1 he
      obtain ⟨n, same, key⟩ := number e he
      rw [← key] at below above
      rw [← same]
      refine ⟨by simp [stored, hv], ?_, (IndexKey.ofNumber_le_iff _ _).1 (of_decide_eq_true below),
        (IndexKey.ofNumber_le_iff _ _).1 (of_decide_eq_true above)⟩
      simpa [stored, hv, same] using yields
    · rintro ⟨hv, ⟨n, extracted, rfl⟩, below, above⟩
      obtain ⟨e, he, key⟩ := tidy.exists_filed registered hv
        (FieldPath.yields_ofNumber_iff.2 ⟨n, extracted, rfl⟩)
        ((IndexKey.ofNumber_le_iff _ _).2 below) ((IndexKey.ofNumber_le_iff _ _).2 above)
      obtain ⟨m, hm, key'⟩ := number e he
      have same : value e = n.rational := by
        rw [← hm]
        exact IndexKey.rational_eq_of_ofNumber (key'.trans key)
      exact ⟨e, he, d, (members e he d).2 ⟨v, hv, n, extracted, same.symm⟩, same, rfl,
        by simp [stored, hv]⟩
  · refine List.pairwise_flatMap.2 ⟨fun e he => ?_, apart.imp fun values x hx y hy => ?_⟩
    · refine List.pairwise_map.2 (List.pairwise_of_forall fun d d' => ?_)
      exact Or.inr ⟨Iff.rfl, le_refl _⟩
    · obtain ⟨_, -, rfl⟩ := List.mem_map.1 hx
      obtain ⟨_, -, rfl⟩ := List.mem_map.1 hy
      exact values.1

end Database.Tidy

/-! ### Walks between numbers -/

/-- **A walk between two numbers gives every document once for each value that it yields and that
is filed between them**, with what is stored in it, in the order in which the values are filed. -/
theorem Session.numbers_between (listable : Bucket.Listable documents) {config : Config}
    {name : String}
    (created : Completes (Database.empty config) (createTable name) (.ok table) first)
    (session : Session table documents first (db :: earlier))
    (registered : db.Registered table index) {lower upper : Value}
    (hl : lower.toJson? = some (.number low)) (hu : upper.toJson? = some (.number high)) :
    ∃ bottom top range opened,
      Bound.ofValue? lower = some bottom ∧ Bound.ofValue? upper = some top ∧
      Completes db (index.between bottom top false) (.ok range) opened ∧
      ∃ found : List (ℚ × String × Versioned Bytes),
        (∀ given, range.Collects opened given
          ↔ given = found.map fun f => .ok (entryOf f.2.1 f.2.2)) ∧
        found.Nodup ∧
        (∀ value d stored, (value, d, stored) ∈ found ↔
          (db.backend.store table.documents).get? (Utf8.encode d) = some stored ∧
            index.path.YieldsNumber stored.value value ∧
            IndexKey.FiledUpTo low.rational value ∧ IndexKey.FiledUpTo value high.rational) ∧
        found.Pairwise fun f g => IndexKey.FiledUpTo f.1 g.1 := by
  have tidy := session.tidy listable (blank_of_createTable created)
  obtain ⟨range, opened, done, placed, -, -, items⟩ := index.between_completes db
    (.key (IndexKey.ofNumber low)) (.key (IndexKey.ofNumber high)) false
  obtain ⟨found, same, rest⟩ := tidy.exists_found registered low high
  refine ⟨_, _, range, opened, Bound.ofValue?_number hl, Bound.ofValue?_number hu, done, found,
    fun given => ?_, rest⟩
  rw [IndexRange.collects_iff placed, items, same]

/-- A session that is played on a new table, and an index of it that passes a test at the end. -/
theorem Session.exists_of_replay? {documents : Set String} [DecidablePred (· ∈ documents)]
    {requests : List TableRequest} {test : Database → Index → Bool}
    (h : ((replay? (Database.fresh .default "t").1 documents 40 [(Database.fresh .default "t").2]
      requests).any fun states => states.head?.any fun db =>
        ((db.indexesOf (Database.fresh .default "t").1.id).find? "i").any fun index =>
          decide (db.Registered (Database.fresh .default "t").1 index) && test db index) = true) :
    ∃ db earlier index,
      Session (Database.fresh .default "t").1 documents (Database.fresh .default "t").2
          (db :: earlier) ∧
        db.Registered (Database.fresh .default "t").1 index ∧ test db index = true := by
  obtain ⟨states, hs, last⟩ := (Option.any_eq_true _ _).1 h
  obtain ⟨db, hd, found⟩ := (Option.any_eq_true _ _).1 last
  obtain ⟨earlier, rfl⟩ := List.head?_eq_some_iff.1 hd
  obtain ⟨index, -, holds⟩ := (Option.any_eq_true _ _).1 found
  rw [Bool.and_eq_true, decide_eq_true_iff] at holds
  exact ⟨db, earlier, index, Session.start.of_replay? hs, holds.1, holds.2⟩

/-- The fraction `2.5`. -/
def Finite64.twoAndHalf : Finite64 :=
  ⟨⟨0x4004000000000000⟩, by decide⟩

theorem Finite64.rational_twoAndHalf : twoAndHalf.val.rational = 5 / 2 := by
  have sign : twoAndHalf.val.negative = false := by decide
  have mantissa : twoAndHalf.val.mantissa = 0x14000000000000 := by decide
  have exponent : twoAndHalf.val.exponent = -51 := by decide
  change (if twoAndHalf.val.negative then -1 else 1)
    * ((twoAndHalf.val.mantissa : ℚ) * 2 ^ twoAndHalf.val.exponent) = 5 / 2
  rw [sign, mantissa, exponent]
  norm_num

/-- One document has the integer `3` and a fraction, and another one the float `3.0`: both are given
for the value `3` by a walk from `1` to `4`. -/
theorem Session.numbers_between_of_forms :
    ∃ (db : Database) (earlier : List Database) (index : Index) (stored stored' : Versioned Bytes)
      (bottom top : Bound) (range : IndexRange) (opened : Database)
      (found : List (ℚ × String × Versioned Bytes)),
      Bucket.Listable {"x", "y"} ∧
        Completes (Database.empty .default) (createTable "t")
          (.ok (Database.fresh .default "t").1) (Database.fresh .default "t").2 ∧
        Session (Database.fresh .default "t").1 {"x", "y"} (Database.fresh .default "t").2
          (db :: earlier) ∧
        db.Registered (Database.fresh .default "t").1 index ∧
        (Value.int (.ofUInt64 1)).toJson? = some (.number (.int (.ofUInt64 1))) ∧
        (Value.int (.ofUInt64 4)).toJson? = some (.number (.int (.ofUInt64 4))) ∧
        Bound.ofValue? (.int (.ofUInt64 1)) = some bottom ∧
        Bound.ofValue? (.int (.ofUInt64 4)) = some top ∧
        Completes db (index.between bottom top false) (.ok range) opened ∧
        range.Collects opened (found.map fun f => .ok (entryOf f.2.1 f.2.2)) ∧
        ((3 : ℚ), "x", stored) ∈ found ∧ ((3 : ℚ), "y", stored') ∈ found := by
  have listable : Bucket.Listable {"x", "y"} := Bucket.listable_pair (by decide) (by decide)
  have created : Completes (Database.empty .default) (createTable "t")
      (.ok (Database.fresh .default "t").1) (Database.fresh .default "t").2 :=
    Completes.of_finish? (show Database.finish? 1 _ _ = _ from rfl)
  obtain ⟨db, earlier, index, session, registered, holds⟩ := @exists_of_replay? {"x", "y"} _
    [.createIndex "i" "n",
      .document (.set "x" (.map [(.string "n",
        .array [.int (.ofUInt64 3), .float64 Finite64.twoAndHalf.val])])),
      .document (.set "y" (.map [(.string "n", .float64 ⟨0x4008000000000000⟩)]))]
    (fun db index => ["x", "y"].all fun d =>
      Membership.wanted ⟨index, IndexKey.ofNumber (.int (.ofUInt64 3)), d⟩
        ((db.backend.store (Database.fresh .default "t").1.documents).get? (Utf8.encode d)))
    (by decide +kernel)
  obtain ⟨hx, hy⟩ : _ ∧ _ := by simpa only [List.all_cons, List.all_nil, Bool.and_true,
    Bool.and_eq_true] using holds
  obtain ⟨stored, hs, yields⟩ := Membership.wanted_iff.1 hx
  obtain ⟨stored', hs', yields'⟩ := Membership.wanted_iff.1 hy
  obtain ⟨bottom, top, range, opened, hb, ht, done, found, collects, -, members, -⟩ :=
    Session.numbers_between listable created session registered
      (show (Value.int (.ofUInt64 1)).toJson? = some (.number (.int (.ofUInt64 1))) from rfl)
      (show (Value.int (.ofUInt64 4)).toJson? = some (.number (.int (.ofUInt64 4))) from rfl)
  have below : IndexKey.FiledUpTo (Number.int (.ofUInt64 1)).rational
      (Number.int (.ofUInt64 3)).rational := (IndexKey.ofNumber_le_iff _ _).1 (by decide)
  have above : IndexKey.FiledUpTo (Number.int (.ofUInt64 3)).rational
      (Number.int (.ofUInt64 4)).rational := (IndexKey.ofNumber_le_iff _ _).1 (by decide)
  have three : (Number.int (.ofUInt64 3)).rational = 3 := by
    simp [Number.rational, Integer.ofUInt64]
  refine ⟨db, earlier, index, stored, stored', bottom, top, range, opened, found, listable, created,
    session, registered, rfl, rfl, hb, ht, done, (collects _).2 rfl, ?_, ?_⟩
  · rw [← three]
    exact (members _ _ _).2
      ⟨hs, (FieldPath.yields_ofNumber_iff (n := .int _)).1 yields, below, above⟩
  · rw [← three]
    exact (members _ _ _).2
      ⟨hs', (FieldPath.yields_ofNumber_iff (n := .int _)).1 yields', below, above⟩

/-- **A fraction between two integers is passed over**: the document of a table yields `2.5`, and a
walk from `1` to `3` gives nothing. -/
theorem Session.numbers_skipped :
    ∃ db earlier index stored range opened,
      Completes (Database.empty .default) (createTable "t")
          (.ok (Database.fresh .default "t").1) (Database.fresh .default "t").2 ∧
        Session (Database.fresh .default "t").1 {"x"} (Database.fresh .default "t").2
          (db :: earlier) ∧
        db.Registered (Database.fresh .default "t").1 index ∧
        (db.backend.store (Database.fresh .default "t").1.documents).get? (Utf8.encode "x")
          = some stored ∧
        index.path.YieldsNumber stored.value (5 / 2) ∧
        (Number.int (.ofUInt64 1)).rational ≤ 5 / 2 ∧
        5 / 2 ≤ (Number.int (.ofUInt64 3)).rational ∧
        Completes db (index.between (.key (IndexKey.ofNumber (.int (.ofUInt64 1))))
          (.key (IndexKey.ofNumber (.int (.ofUInt64 3)))) false) (.ok range) opened ∧
        range.Collects opened [] := by
  obtain ⟨db, earlier, index, session, registered, holds⟩ := @exists_of_replay? {"x"} _
    [.createIndex "i" "n",
      .document (.set "x" (.map [(.string "n", .float64 Finite64.twoAndHalf.val)]))]
    (fun db index =>
      Membership.wanted ⟨index, IndexKey.ofNumber (.float Finite64.twoAndHalf), "x"⟩
          ((db.backend.store (Database.fresh .default "t").1.documents).get? (Utf8.encode "x"))
        && (index.items db (.key (IndexKey.ofNumber (.int (.ofUInt64 1))))
          (.key (IndexKey.ofNumber (.int (.ofUInt64 3)))) false).isEmpty)
    (by decide +kernel)
  rw [Bool.and_eq_true, List.isEmpty_iff] at holds
  obtain ⟨stored, hs, yields⟩ := Membership.wanted_iff.1 holds.1
  obtain ⟨range, opened, done, placed, -, -, items⟩ := index.between_completes db
    (.key (IndexKey.ofNumber (.int (.ofUInt64 1)))) (.key (IndexKey.ofNumber (.int (.ofUInt64 3))))
    false
  have one : (Number.int (.ofUInt64 1)).rational = 1 := by simp [Number.rational, Integer.ofUInt64]
  have three : (Number.int (.ofUInt64 3)).rational = 3 := by
    simp [Number.rational, Integer.ofUInt64]
  refine ⟨db, earlier, index, stored, range, opened,
    Completes.of_finish? (show Database.finish? 1 _ _ = _ from rfl), session, registered, hs, ?_,
    one.trans_le (by norm_num), three.ge.trans' (by norm_num), done, ?_⟩
  · rw [← Finite64.rational_twoAndHalf]
    exact (FieldPath.yields_ofNumber_iff (n := .float Finite64.twoAndHalf)).1 yields
  · rw [IndexRange.collects_iff placed, items, holds.2]

end DocStore
