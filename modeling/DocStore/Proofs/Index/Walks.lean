/-
What a walk of an index gives.

A walk visits what the buckets between its bounds held when it was opened: their documents in the
order of each list, and in the place of a bucket that cannot be decoded one failure.  Whether a
document is there, and with which value, is seen only when it is pulled.  The two questions about a
single value are answered from the same list.

* `Filed`, `Store.filed` — what a walk visits, and `Filed.item?` what it gives for it;
* `Filed.next`, `Filed.answers` — the first item that there is, and those of several pulls;
* `IndexRange.nextBucket_spec`, `IndexRange.pull_cases`, `IndexRange.pull_completes` — **a pull
  gives the first item that is left**, and leaves what comes after it;
* `IndexRange.walks_iff`, `IndexRange.collects_iff` — walks with anything done between the pulls,
  and walks of which nobody takes notice;
* `Index.getAll_completes`, `Index.one_completes` — the two questions about a value;
* `Index.between_walks` — **all of them describe one sequence.**
-/

import DocStore.Proofs.Database.Requests
import DocStore.Proofs.Range.Scans
import DocStore.Proofs.Text.Lossy

set_option autoImplicit false

namespace DocStore

/-! ### What is visited -/

/-- What a walk visits. -/
inductive Filed
  /-- A document. -/
  | document (key : String)
  /-- A bucket that cannot be decoded. -/
  | undecodable

/-- What a bucket holds, in a direction. -/
def Bucket.filed (reverse : Bool) (value : Bytes) : List Filed :=
  match Bucket.decode? value with
  | none => [.undecodable]
  | some keys => (if reverse then keys.reverse else keys).map .document

theorem Bucket.filed_true (value : Bytes) :
    Bucket.filed true value = (Bucket.filed false value).reverse := by
  unfold Bucket.filed
  split
  · rfl
  · exact List.map_reverse

/-- What the buckets between two bounds hold, in a direction. -/
def Store.filed (buckets : Store) (lower upper : Bound) (reverse : Bool) : List Filed :=
  (buckets.scan lower upper reverse).flatMap fun e => Bucket.filed reverse e.value

/-- Backwards the same is visited in the opposite order. -/
theorem Store.filed_true (buckets : Store) (lower upper : Bound) :
    buckets.filed lower upper true = (buckets.filed lower upper false).reverse := by
  rw [Store.filed, Store.filed, List.reverse_flatMap, Store.scan_true]
  exact congrArg (List.flatMap · _) (funext fun e => Bucket.filed_true e.value)

namespace Filed

variable {documents : Store} {filed : List Filed}

/-- What a walk gives for it: a document as it is stored at that moment, nothing for one that is
gone, and a failure for a bucket. -/
def item? (documents : Store) : Filed → Option (Except Error Entry)
  | .document key => (documents.get? (Utf8.encode key)).map fun stored => .ok (entryOf key stored)
  | .undecodable => some (.error .decode)

/-- The first item that there is, and what comes after it. -/
def next (documents : Store) : List Filed → Option (Except Error Entry) × List Filed
  | [] => (none, [])
  | f :: rest =>
      match f.item? documents with
      | some item => (some item, rest)
      | none => next documents rest

/-- The items of several pulls, each of which finds a database of its own. -/
def answers (documents : StoreId) :
    List Filed → List Database → List (Option (Except Error Entry))
  | _, [] => []
  | filed, db :: found =>
      let (item, rest) := next (db.backend.store documents) filed
      item :: answers documents rest found

/-- The items depend on the values of the documents only. -/
theorem item?_congr {other : Store} (same : other.slots = documents.slots) :
    item? other = item? documents := by
  funext f
  cases f with
  | document key => rw [item?, item?, Store.get?, Store.get?, same]
  | undecodable => rfl

theorem next_fst (documents : Store) (filed : List Filed) :
    (next documents filed).1 = (filed.filterMap (item? documents)).head? := by
  induction filed with
  | nil => rfl
  | cons f rest ih =>
      cases h : f.item? documents with
      | none => simpa only [next, h, List.filterMap_cons] using ih
      | some item => simp only [next, h, List.filterMap_cons, List.head?_cons]

theorem filterMap_next_snd (documents : Store) (filed : List Filed) :
    (next documents filed).2.filterMap (item? documents)
      = (filed.filterMap (item? documents)).tail := by
  induction filed with
  | nil => rfl
  | cons f rest ih =>
      cases h : f.item? documents with
      | none => simpa only [next, h, List.filterMap_cons] using ih
      | some item => simp only [next, h, List.filterMap_cons, List.tail_cons]

/-- A pull gives nothing and leaves nothing, or gives an item and leaves less. -/
theorem next_cases (documents : Store) (filed : List Filed) :
    next documents filed = (none, []) ∨
      ∃ item rest, next documents filed = (some item, rest) ∧ rest.length < filed.length := by
  induction filed with
  | nil => exact Or.inl rfl
  | cons f rest ih =>
      cases h : f.item? documents with
      | none =>
          simp only [next, h]
          rcases ih with none | ⟨item, left, eq, less⟩
          · exact Or.inl none
          · exact Or.inr ⟨item, left, eq, Nat.lt_succ_of_lt less⟩
      | some item =>
          simp only [next, h]
          exact Or.inr ⟨item, rest, rfl, Nat.lt_succ_self _⟩

/-- When nothing is left, no pull gives anything. -/
theorem answers_nil (documents : StoreId) (found : List Database) :
    answers documents [] found = List.replicate found.length none := by
  induction found with
  | nil => rfl
  | cons db found ih => exact congrArg (none :: ·) ih

/-- **A walk ends**: after at most as many items as there is to visit it gives nothing any more. -/
theorem answers_end (documents : StoreId) (filed : List Filed) (found : List Database) :
    ∃ (items : List (Except Error Entry)) (ended : Nat), answers documents filed found
        = items.map some ++ List.replicate ended none ∧ items.length ≤ filed.length := by
  induction found generalizing filed with
  | nil => exact ⟨[], 0, rfl, Nat.zero_le _⟩
  | cons db found ih =>
      rcases next_cases (db.backend.store documents) filed with none | ⟨item, rest, eq, less⟩
      · refine ⟨[], found.length + 1, ?_, Nat.zero_le _⟩
        rw [answers, none]
        exact congrArg (Option.none :: ·) (answers_nil documents found)
      · obtain ⟨items, ended, answered, few⟩ := ih rest
        refine ⟨item :: items, ended, ?_, ?_⟩
        · rw [answers, eq]
          exact congrArg (some item :: ·) answered
        · exact Nat.lt_of_le_of_lt few less

end Filed

/-! ### Pulling -/

namespace IndexRange

variable {range : IndexRange}

/-- What is left to visit in a range of buckets. -/
def filedIn (reverse : Bool) (buckets : Range) : List Filed :=
  buckets.left.flatMap fun e => Bucket.filed reverse e.value

/-- What is left to visit. -/
def left (range : IndexRange) : List Filed :=
  range.pending.map .document ++ filedIn range.reverse range.buckets

/-- The range after a pull that leaves this to visit. -/
structure Leaves (range : IndexRange) (left : List Filed) (rest : IndexRange) : Prop where
  placed : rest.buckets.Placed
  left : rest.left = left
  documents : rest.documents = range.documents

/-- What the next bucket that is not an empty list holds is what is visited next. -/
theorem nextBucket_spec {reverse : Bool} {fuel : Nat} {buckets : Range} (placed : buckets.Placed)
    (enough : buckets.left.length ≤ fuel) :
    match nextBucket reverse fuel buckets with
    | .documents first rest after => after.Placed ∧
        filedIn reverse buckets = .document first :: (rest.map .document ++ filedIn reverse after)
    | .undecodable after => after.Placed ∧
        filedIn reverse buckets = .undecodable :: filedIn reverse after
    | .ended after => after.Placed ∧ filedIn reverse buckets = [] ∧ filedIn reverse after = []
    | .nothing => filedIn reverse buckets = [] := by
  -- by induction on the fuel, one unit of which is spent on each empty list
  induction fuel generalizing buckets with
  | zero =>
      have none : buckets.left = [] := List.length_eq_zero_iff.1 (Nat.le_zero.1 enough)
      have nothing : filedIn reverse buckets = [] := by rw [filedIn, none]; rfl
      rw [nextBucket, Range.pull_of_left_nil placed none]
      cases buckets.isClosed with
      | true => exact nothing
      | false => exact ⟨Range.placed_close buckets, nothing, rfl⟩
  | succ fuel ih =>
      cases h : buckets.left with
      | nil =>
          have nothing : filedIn reverse buckets = [] := by rw [filedIn, h]; rfl
          rw [nextBucket, Range.pull_of_left_nil placed h]
          cases buckets.isClosed with
          | true => exact nothing
          | false => exact ⟨Range.placed_close buckets, nothing, rfl⟩
      | cons e rest =>
          obtain ⟨pulled, after⟩ := Range.pull_of_left_cons placed h
          have visited : filedIn reverse buckets
              = Bucket.filed reverse e.value ++ filedIn reverse buckets.next := by
            rw [filedIn, h, List.flatMap_cons, filedIn, after]
          rw [nextBucket, pulled]
          dsimp only
          cases decoded : Bucket.decode? e.value with
          | none =>
              simp only [Bucket.filed, decoded] at visited
              exact ⟨placed.next, visited⟩
          | some keys =>
              simp only [Bucket.filed, decoded] at visited
              dsimp only
              generalize (if reverse then keys.reverse else keys) = list at visited ⊢
              cases list with
              | nil =>
                  -- an empty list holds nothing, and the walk goes on to the next bucket
                  rw [h, List.length_cons] at enough
                  have goes := ih placed.next (by rw [after]; omega)
                  rw [visited, List.map_nil, List.nil_append]
                  exact goes
              | cons first more => exact ⟨placed.next, visited⟩

/-- What a pull begins with, by what is visited next. -/
theorem pull_cases (placed : range.buckets.Placed) :
    (range.left = [] ∧ ∃ rest, range.Leaves [] rest ∧
      (range.pull = .finished (none, rest) ∨ range.pull = .waiting ⟨rest, .releasing⟩)) ∨
    (∃ key left rest, range.left = .document key :: left ∧ range.Leaves left rest ∧
      range.pull = .waiting ⟨rest, .document key⟩) ∨
    ∃ left rest, range.left = .undecodable :: left ∧ range.Leaves left rest ∧
      range.pull = .finished (some (.error .decode), rest) := by
  obtain ⟨buckets, pending, documents, reverse⟩ := range
  cases pending with
  | cons key rest =>
      exact Or.inr (Or.inl
        ⟨key, _, ⟨buckets, rest, documents, reverse⟩, rfl, ⟨placed, rfl, rfl⟩, rfl⟩)
  | nil =>
      have spec := @nextBucket_spec reverse buckets.size buckets placed buckets.length_left_le
      simp only [pull]
      revert spec
      cases nextBucket reverse buckets.size buckets with
      | documents first rest after =>
          intro spec
          exact Or.inr (Or.inl
            ⟨first, _, ⟨after, rest, documents, reverse⟩, spec.2, ⟨spec.1, rfl, rfl⟩, rfl⟩)
      | undecodable after =>
          intro spec
          exact Or.inr (Or.inr
            ⟨_, ⟨after, [], documents, reverse⟩, spec.2, ⟨spec.1, rfl, rfl⟩, rfl⟩)
      | ended after =>
          intro spec
          exact Or.inl
            ⟨spec.2.1, ⟨after, [], documents, reverse⟩, ⟨spec.1, spec.2.2, rfl⟩, Or.inr rfl⟩
      | nothing =>
          intro spec
          exact Or.inl ⟨spec, ⟨buckets, [], documents, reverse⟩, ⟨placed, spec, rfl⟩, Or.inl rfl⟩

/-- **A pull gives the first item that is left**, and leaves what comes after it. -/
theorem pull_completes (placed : range.buckets.Placed) (db : Database) :
    ∃ rest after,
      Completes db range.pull
        ((Filed.next (db.backend.store range.documents) range.left).1, rest) after ∧
      range.Leaves (Filed.next (db.backend.store range.documents) range.left).2 rest := by
  -- by induction on what is left: a document that is gone is passed over
  generalize visits : range.left = filed
  induction filed generalizing range with
  | nil =>
      rcases pull_cases placed with ⟨-, rest, leaves, ends⟩ | ⟨_, _, _, some, -⟩ | ⟨_, _, some, -⟩
      · rcases ends with ended | ended
        · rw [ended]
          exact ⟨rest, db, .finished _ _, leaves⟩
        · rw [ended]
          exact ⟨rest, _, .waiting (.finished _ _), leaves⟩
      · exact absurd (visits.symm.trans some) (List.cons_ne_nil _ _).symm
      · exact absurd (visits.symm.trans some) (List.cons_ne_nil _ _).symm
  | cons f filed ih =>
      rcases pull_cases placed with ⟨none, -⟩ | ⟨key, left, rest, some, leaves, begun⟩ |
        ⟨left, rest, some, leaves, begun⟩
      · exact absurd (visits.symm.trans none) (List.cons_ne_nil _ _)
      · obtain ⟨rfl, rfl⟩ := List.cons.inj (visits.symm.trans some)
        rw [begun]
        have asked : db.perform (Task.call (⟨rest, .document key⟩ : IndexPull)) none
            = (.document (.ok ((db.backend.store range.documents).get? (Utf8.encode key))), db) := by
          rw [← leaves.documents]
          rfl
        cases found : (db.backend.store range.documents).get? (Utf8.encode key) with
        | some stored =>
            rw [found] at asked
            simp only [Filed.next, Filed.item?, found, Option.map_some]
            exact ⟨rest, db, .waits asked (.finished _ _), leaves⟩
        | none =>
            rw [found] at asked
            simp only [Filed.next, Filed.item?, found, Option.map_none]
            obtain ⟨last, after, done, leaves'⟩ := ih leaves.placed leaves.left
            rw [leaves.documents] at done leaves'
            exact ⟨last, after, .waits asked done,
              leaves'.placed, leaves'.left, leaves'.documents.trans leaves.documents⟩
      · obtain ⟨rfl, rfl⟩ := List.cons.inj (visits.symm.trans some)
        rw [begun]
        exact ⟨rest, db, .finished _ _, leaves⟩

/-! ### Walking -/

/-- The items of several pulls, each of which finds a database of its own, whatever has been written
since the one before. -/
inductive Walks : IndexRange → List Database → List (Option (Except Error Entry)) → Prop
  | nil (range : IndexRange) : Walks range [] []
  | cons {range rest : IndexRange} {db after : Database} {found : List Database}
      {item : Option (Except Error Entry)} {items : List (Option (Except Error Entry))}
      (pulled : Completes db range.pull (item, rest) after) (more : Walks rest found items) :
      Walks range (db :: found) (item :: items)

/-- The items of all pulls until there is none any more, when nothing happens between the pulls. -/
inductive Collects : Database → IndexRange → List (Except Error Entry) → Prop
  | nil {range rest : IndexRange} {db after : Database}
      (pulled : Completes db range.pull (none, rest) after) : Collects db range []
  | cons {range rest : IndexRange} {db mid : Database} {item : Except Error Entry}
      {items : List (Except Error Entry)}
      (pulled : Completes db range.pull (some item, rest) mid) (more : Collects mid rest items) :
      Collects db range (item :: items)

/-- **A walk gives, pull by pull, the first item that there is.** -/
theorem walks_iff (placed : range.buckets.Placed) {found : List Database}
    {items : List (Option (Except Error Entry))} :
    range.Walks found items ↔ items = Filed.answers range.documents range.left found := by
  induction found generalizing range items with
  | nil =>
      constructor
      · rintro ⟨⟩
        rfl
      · rintro rfl
        exact .nil range
  | cons db found ih =>
      obtain ⟨rest, after, done, leaves⟩ := pull_completes placed db
      have goes := @ih rest
      rw [leaves.documents, leaves.left] at goes
      constructor
      · intro h
        cases h with
        | cons pulled more =>
            obtain ⟨same, -⟩ := pulled.unique done
            obtain ⟨rfl, rfl⟩ := Prod.mk.inj same
            rw [(goes leaves.placed).1 more]
            rfl
      · rintro rfl
        exact .cons done ((goes leaves.placed).2 rfl)

/-- The items that there are at a moment. -/
def items (range : IndexRange) (db : Database) : List (Except Error Entry) :=
  range.left.filterMap (Filed.item? (db.backend.store range.documents))

/-- A pull gives the first of the items that there are, and the others are there after it. -/
theorem pull_items (placed : range.buckets.Placed) (db : Database) :
    ∃ rest after, Completes db range.pull ((range.items db).head?, rest) after ∧
      rest.buckets.Placed ∧ rest.items after = (range.items db).tail := by
  obtain ⟨rest, after, done, leaves⟩ := pull_completes placed db
  rw [Filed.next_fst] at done
  refine ⟨rest, after, done, leaves.placed, ?_⟩
  have same : Filed.item? (after.backend.store range.documents)
      = Filed.item? (db.backend.store range.documents) :=
    Filed.item?_congr (done.slots_eq (fun task => QueryTask.call_reads (.pulling task)) _)
  rw [items, leaves.left, leaves.documents, same, Filed.filterMap_next_snd]
  rfl

/-- **A walk of which nobody takes notice gives all items that there are**, and ends. -/
theorem collects_iff (placed : range.buckets.Placed) {db : Database}
    {given : List (Except Error Entry)} : range.Collects db given ↔ given = range.items db := by
  constructor
  · intro h
    induction h with
    | @nil range rest db after pulled =>
        obtain ⟨rest', after', done, -⟩ := pull_items placed db
        obtain ⟨same, -⟩ := pulled.unique done
        exact (List.head?_eq_none_iff.1 (Prod.mk.inj same).1.symm).symm
    | @cons range rest db mid item given pulled more ih =>
        obtain ⟨rest', mid', done, placed', tail⟩ := pull_items placed db
        obtain ⟨same, rfl⟩ := pulled.unique done
        obtain ⟨first, rfl⟩ := Prod.mk.inj same
        rw [ih placed', tail]
        exact List.cons_head?_tail first.symm
  · intro h
    -- by induction on the items, the first of which the first pull gives
    induction given generalizing range db with
    | nil =>
        obtain ⟨rest, after, done, -⟩ := pull_items placed db
        rw [← h] at done
        exact .nil done
    | cons item given ih =>
        obtain ⟨rest, mid, done, placed', tail⟩ := pull_items placed db
        rw [← h] at done tail
        exact .cons done (ih placed' tail.symm)

end IndexRange

/-! ### Opening -/

namespace Index

variable (db : Database) (index : Index)

/-- The items of a walk between two bounds, as they are at a moment. -/
def items (lower upper : Bound) (reverse : Bool) : List (Except Error Entry) :=
  ((db.backend.store index.buckets).filed lower upper reverse).filterMap
    (Filed.item? (db.backend.store index.documents))

/-- Backwards the same items come in the opposite order. -/
theorem items_true (lower upper : Bound) :
    index.items db lower upper true = (index.items db lower upper false).reverse := by
  rw [items, Store.filed_true, List.filterMap_reverse]
  rfl

/-- A walk is opened with the range of its buckets. -/
theorem completes_of_opening {db opened : Database} {lower upper : Bound} {reverse : Bool}
    {buckets : Range}
    (h : Completes db (RangeOpening.start index.buckets lower upper reverse) (.ok buckets) opened) :
    Completes db (index.between lower upper reverse)
      (.ok ⟨buckets, [], index.documents, reverse⟩) opened := by
  unfold Index.between
  unfold RangeOpening.start at h ⊢
  split at h
  · rename_i past
    rw [if_pos past]
    cases h
    exact .finished _ _
  · rename_i inside
    rw [if_neg inside]
    cases h with
    | waiting rest =>
        have ended : Completes (db.perform (.iter index.buckets reverse) none).2
          (.finished (.ok (.onCursor index.buckets _ lower upper reverse)) :
            Progress RangeOpening (Except Error Range)) (.ok buckets) opened := rest
        cases ended
        exact .waiting (.finished _ _)

/-- **A walk is opened**, and visits what the buckets between the bounds hold. -/
theorem between_completes (lower upper : Bound) (reverse : Bool) :
    ∃ range opened, Completes db (index.between lower upper reverse) (.ok range) opened ∧
      range.buckets.Placed ∧ range.documents = index.documents ∧
      range.left = (db.backend.store index.buckets).filed lower upper reverse ∧
      range.items opened = index.items db lower upper reverse := by
  obtain ⟨buckets, opened, done, placed, left, -⟩ :=
    RangeOpening.completes db index.buckets lower upper reverse
  have visits : (⟨buckets, [], index.documents, reverse⟩ : IndexRange).left
      = (db.backend.store index.buckets).filed lower upper reverse := by
    rw [IndexRange.left, IndexRange.filedIn, left]
    rfl
  refine ⟨_, opened, index.completes_of_opening done, placed, rfl, visits, ?_⟩
  rw [IndexRange.items, visits, items]
  refine congrArg (List.filterMap · _) (Filed.item?_congr ?_)
  exact done.slots_eq (fun task => QueryTask.call_reads (.opening task)) _

/-! ### The two questions about a value -/

/-- The documents of a list that are there, as they are stored. -/
def present (keys : List String) : List Entry :=
  keys.filterMap fun key =>
    ((db.backend.store index.documents).get? (Utf8.encode key)).map (entryOf key)

/-- What items give together: all entries, or the first failure. -/
def gathered : List (Except Error Entry) → Except Error (List Entry)
  | [] => .ok []
  | .error e :: _ => .error e
  | .ok e :: items => (gathered items).map (e :: ·)

/-- The first of several entries as a document of a shape, with its key. -/
def firstOf (shape : Shape) : List Entry → Except Error (String × Versioned Value)
  | [] => .error .notFound
  | e :: _ => (e.decode shape).map fun document => (e.keyText, document)

/-- The entries of a walk with both bounds on the index key of a value, if it has one. -/
def entriesAt (value : Value) : Except Error (List Entry) :=
  match value.indexKey? with
  | none => .error .encode
  | some k => gathered (index.items db (.key k) (.key k) false)

/-- The documents of a list give no failures. -/
theorem gathered_documents (keys : List String) :
    gathered ((keys.map Filed.document).filterMap
      (Filed.item? (db.backend.store index.documents))) = .ok (index.present db keys) := by
  induction keys with
  | nil => rfl
  | cons key keys ih =>
      cases found : (db.backend.store index.documents).get? (Utf8.encode key) with
      | none =>
          simp only [List.map_cons, List.filterMap_cons, Filed.item?, present, found,
            Option.map_none]
          exact ih
      | some stored =>
          simp only [List.map_cons, List.filterMap_cons, Filed.item?, present, found,
            Option.map_some, gathered, ih]
          rfl

/-- A walk with both bounds on one key gives what its bucket holds. -/
theorem gathered_items (k : Bytes) :
    gathered (index.items db (.key k) (.key k) false)
      = (BucketRead.documents ((db.backend.store index.buckets).get? k)).map
          (index.present db) := by
  rw [items, Store.filed, Store.scan_key]
  cases found : (db.backend.store index.buckets).get? k with
  | none => rfl
  | some stored =>
      simp only [Option.map_some, Option.toList_some, List.flatMap_singleton, Bucket.filed,
        BucketRead.documents]
      cases decoded : Bucket.decode? stored.value with
      | none => rfl
      | some keys => exact index.gathered_documents db keys

/-- Loading reads one document after the other. -/
theorem load_completes (found : List Entry) (keys : List String) :
    Completes db (BucketLoad.next index found keys)
      (.ok (found.reverse ++ index.present db keys)) db := by
  induction keys generalizing found with
  | nil =>
      rw [present, List.filterMap_nil, List.append_nil]
      exact .finished _ _
  | cons key keys ih =>
      refine .waits (db.perform_get index.documents (Utf8.encode key)) ?_
      cases stored : (db.backend.store index.documents).get? (Utf8.encode key) with
      | none =>
          simp only [present, List.filterMap_cons, stored, Option.map_none]
          exact ih found
      | some stored' =>
          have goes := ih (entryOf key stored' :: found)
          rw [List.reverse_cons, List.append_assoc, List.singleton_append] at goes
          simp only [present, List.filterMap_cons, stored, Option.map_some]
          exact goes

/-- Looking for a document ends with the first one that is there. -/
theorem first_completes (shape : Shape) (keys : List String) :
    Completes db (BucketFirst.next index shape keys)
      (firstOf shape (index.present db keys)) db := by
  induction keys with
  | nil => exact .finished _ _
  | cons key keys ih =>
      refine .waits (db.perform_get index.documents (Utf8.encode key)) ?_
      cases stored : (db.backend.store index.documents).get? (Utf8.encode key) with
      | none =>
          simp only [present, List.filterMap_cons, stored, Option.map_none]
          exact ih
      | some stored' =>
          simp only [present, List.filterMap_cons, stored, Option.map_some, firstOf,
            Entry.keyText, entryOf, Utf8.lossy_encode]
          exact .finished _ _

/-- **The entries of a value are those of a walk with both bounds on its index key.** -/
theorem getAll_completes (value : Value) :
    Completes db (index.getAll value) (index.entriesAt db value) db := by
  unfold getAll keys entriesAt
  cases value.indexKey? with
  | none => exact .finished _ _
  | some k =>
      refine .waits (db.perform_get index.buckets k) ?_
      dsimp only
      rw [gathered_items]
      have listed : (Task.resume (⟨index, .bucket ⟨index, k⟩⟩ : BucketLoad)
          (.document (.ok ((db.backend.store index.buckets).get? k))))
        = BucketLoad.listed index
            (.finished (BucketRead.documents ((db.backend.store index.buckets).get? k))) := rfl
      rw [listed]
      cases BucketRead.documents ((db.backend.store index.buckets).get? k) with
      | error e => exact .finished _ _
      | ok keys => exact index.load_completes db [] keys

/-- **The one document of a value is the first of its entries.** -/
theorem one_completes (value : Value) (shape : Shape) :
    Completes db (index.one value shape) ((index.entriesAt db value).bind (firstOf shape)) db := by
  unfold one keys entriesAt
  cases value.indexKey? with
  | none => exact .finished _ _
  | some k =>
      refine .waits (db.perform_get index.buckets k) ?_
      dsimp only
      rw [gathered_items]
      have listed : (Task.resume (⟨index, shape, .bucket ⟨index, k⟩⟩ : BucketFirst)
          (.document (.ok ((db.backend.store index.buckets).get? k))))
        = BucketFirst.listed index shape
            (.finished (BucketRead.documents ((db.backend.store index.buckets).get? k))) := rfl
      rw [listed]
      cases BucketRead.documents ((db.backend.store index.buckets).get? k) with
      | error e => exact .finished _ _
      | ok keys => exact index.first_completes db shape keys

/-! ### One sequence -/

/-- **All ways to read an index describe one sequence**: what the buckets between the bounds held
when the walk was opened, by the order of their keys and of each list.  Pulls with anything done
between them give, one by one, the next item that is there at that moment, and there is an end to
them; when nothing is done between them they give all items that there are, backwards the same ones
in the opposite order.  The two questions about a value are answered from the walk with both bounds
on its index key. -/
theorem between_walks (lower upper : Bound) (reverse : Bool) (value : Value) (shape : Shape) :
    let filed := (db.backend.store index.buckets).filed lower upper reverse
    (∃ range opened, Completes db (index.between lower upper reverse) (.ok range) opened ∧
      (∀ found given, range.Walks found given
        ↔ given = Filed.answers index.documents filed found) ∧
      ∀ given, range.Collects opened given ↔ given = index.items db lower upper reverse) ∧
    (∀ found, ∃ (given : List (Except Error Entry)) (ended : Nat),
      Filed.answers index.documents filed found = given.map some ++ List.replicate ended none ∧
        given.length ≤ filed.length) ∧
    index.items db lower upper true = (index.items db lower upper false).reverse ∧
    Completes db (index.getAll value) (index.entriesAt db value) db ∧
    Completes db (index.one value shape) ((index.entriesAt db value).bind (firstOf shape)) db := by
  intro filed
  obtain ⟨range, opened, done, placed, documents, left, items⟩ :=
    index.between_completes db lower upper reverse
  refine ⟨⟨range, opened, done, fun found given => ?_, fun given => ?_⟩,
    Filed.answers_end index.documents filed, index.items_true db lower upper,
    index.getAll_completes db value, index.one_completes db value shape⟩
  · rw [IndexRange.walks_iff placed, documents, left]
  · rw [IndexRange.collects_iff placed, items]

end Index

end DocStore
