/-
Memberships in a database.

A document is filed under a key when the bucket of the key lists it; it is wanted there when its
present bytes yield the key.  The two agree, or somebody has to make them agree.  This module says
what can be concluded from a change of a bucket and from reading a document twice.

* `Membership.Filed`, `Membership.Wanted`, `Membership.Exact` — what is stored, what should be, and
  that they are the same;
* `Membership.Agrees` — that nothing is left to be added, or nothing to be removed;
* `Database.Registered`, `Database.Tended` — the indexes of a table, and the order in which the
  table and its indexes are kept;
* `Database.Extends` — what one state knows that came before another one;
* `Database.Blank` — a table without documents and indexes, as it is after its creation;
* `Membership.Justified`, `Membership.Watched` — why a bucket is changed, and what the reader finds
  who looks at the document again;
* `Membership.Justified.exact_or_watched`, `Membership.Watched.exact` — **after the change the
  membership is exact, or whoever looks again will notice; who does not notice finds it exact;**
* `Membership.Justified.agrees_or_watched` — a change that is not made leaves nothing of the other
  kind to be done, or whoever looks again will notice.
-/

import DocStore.Proofs.Database.Tables
import DocStore.Proofs.Index.Buckets
import DocStore.Proofs.Index.Diffs
import DocStore.Proofs.Index.Memberships
import DocStore.Proofs.Text.Lossy

set_option autoImplicit false

namespace DocStore

namespace Membership

/-! ### What is stored and what should be -/

/-- The document is in the bucket. -/
def Filed (db : Database) (m : Membership) : Prop :=
  ∃ list, (db.backend.store m.index.buckets).bucket? m.indexKey = some list ∧ m.document ∈ list

/-- The document belongs into the bucket. -/
def Wanted (db : Database) (m : Membership) : Prop :=
  m.wanted ((db.backend.store m.index.documents).get? (Utf8.encode m.document)) = true

/-- The document is in the bucket if and only if it belongs there. -/
def Exact (db : Database) (m : Membership) : Prop :=
  m.Filed db ↔ m.Wanted db

/-- Nothing is left to be done by changes of this kind: what is wanted is filed, or what is filed is
wanted. -/
def Agrees (db : Database) (m : Membership) : Bucket.Change → Prop
  | .add => m.Wanted db → m.Filed db
  | .remove => m.Filed db → m.Wanted db

theorem Exact.agrees {db : Database} {m : Membership} (h : m.Exact db) (change : Bucket.Change) :
    m.Agrees db change := by
  cases change with
  | add => exact h.2
  | remove => exact h.1

/-- A membership is exact when nothing is left to be done. -/
theorem exact_of_agrees {db : Database} {m : Membership} (h : ∀ change, m.Agrees db change) :
    m.Exact db :=
  ⟨h .remove, h .add⟩

/-- The document is in the list of the bucket. -/
theorem filed_iff_mem {db : Database} {m : Membership} {list : List String}
    (hl : (db.backend.store m.index.buckets).bucket? m.indexKey = some list) :
    m.Filed db ↔ m.document ∈ list := by
  rw [Filed, hl]
  simp

/-- The document is there and yields the key. -/
theorem wanted_iff_yields {db : Database} {m : Membership} :
    m.Wanted db ↔ ∃ stored,
      (db.backend.store m.index.documents).get? (Utf8.encode m.document) = some stored ∧
        m.index.path.Yields stored.value m.indexKey :=
  wanted_iff

end Membership

namespace Database

/-! ### Tables that are tended -/

/-- An index of the table, under its name. -/
def Registered (db : Database) (table : Table) (index : Index) : Prop :=
  (db.indexesOf table.id).find? index.name = some index

/-- A table in order, whose indexes have well-formed buckets and whose documents have keys that can
be listed in them. -/
structure Tended (table : Table) (documents : Set String) (db : Database) : Prop where
  arranged : db.Arranged table
  buckets : ∀ index, db.Registered table index →
    (db.backend.store index.buckets).HoldsBuckets documents
  keys : ∀ key stored, (db.backend.store table.documents).get? key = some stored →
    ∃ d ∈ documents, key = Utf8.encode d

/-- A later state: indexes stay registered, and no value and no counter is forgotten. -/
structure Extends (db : Database) (table : Table) (after : Database) : Prop where
  registered : ∀ index, db.Registered table index → after.Registered table index
  recalls : ∀ id key stored, (db.backend.store id).Recalls key stored →
    (after.backend.store id).Recalls key stored
  passed : ∀ id key counter, (db.backend.store id).Passed key counter →
    (after.backend.store id).Passed key counter

theorem Extends.refl (db : Database) (table : Table) : db.Extends table db :=
  ⟨fun _ h => h, fun _ _ _ h => h, fun _ _ _ h => h⟩

/-- An access to the stores leads to a later state. -/
theorem extends_perform {db : Database} (table : Table) {call : Call} (access : call.IsAccess)
    (room : db.HasRoom call) : db.Extends table (db.perform call none).2 where
  registered index h := by
    obtain ⟨-, indexes, -⟩ := db.perform_of_isAccess none access
    rw [Registered, indexesOf, indexes]
    exact h
  recalls _ _ _ h := recalls_perform none room h
  passed _ _ _ h := passed_perform none room h

namespace Registered

variable {db : Database} {table : Table} {index : Index} (arranged : db.Arranged table)
  (h : db.Registered table index)
include arranged h

theorem documents : index.documents = table.documents :=
  (arranged.registered _ _ h).1.documents

theorem retry : index.retry = table.retry :=
  (arranged.registered _ _ h).1.retry

theorem apart : index.buckets ≠ table.documents :=
  arranged.apart h

theorem lt_length : index.buckets < db.backend.stores.length :=
  arranged.buckets_lt h

theorem eq_of_buckets {other : Index} (ho : db.Registered table other)
    (same : index.buckets = other.buckets) : index = other :=
  arranged.index_eq h ho same

end Registered

/-- The indexes that are read are those that are registered, under different names. -/
theorem mem_indexes {db : Database} {table : Table} (arranged : db.Arranged table) {index : Index} :
    index ∈ (db.indexesOf table.id).entries.map (·.2) ↔ db.Registered table index := by
  constructor
  · intro h
    obtain ⟨⟨name, _⟩, he, rfl⟩ := List.mem_map.1 h
    have found := SortedMap.find?_eq_some_iff.2 he
    have name := (arranged.registered _ _ found).1.ofName
    rwa [← name] at found
  · intro h
    exact List.mem_map.2 ⟨_, SortedMap.find?_eq_some_iff.1 h, rfl⟩

/-- Registered indexes have different names. -/
theorem eq_of_name {db : Database} {table : Table} (arranged : db.Arranged table) {i j : Index}
    (hi : i ∈ (db.indexesOf table.id).entries.map (·.2))
    (hj : j ∈ (db.indexesOf table.id).entries.map (·.2)) (same : i.name = j.name) : i = j := by
  have first := (mem_indexes arranged).1 hi
  have second := (mem_indexes arranged).1 hj
  rw [Registered, same] at first
  exact Option.some.inj (first.symm.trans second)

/-- An access that leaves all slots as they are leaves the table as it is. -/
theorem Tended.perform_of_slots {db : Database} {table : Table} {documents : Set String}
    (tended : db.Tended table documents) {call : Call} (access : call.IsAccess)
    (slots : ∀ id, ((db.perform call none).2.backend.store id).slots
      = (db.backend.store id).slots) :
    (db.perform call none).2.Tended table documents ∧
      (db.perform call none).2.indexesOf table.id = db.indexesOf table.id ∧
      ∀ id key, ((db.perform call none).2.backend.store id).get? key
        = (db.backend.store id).get? key := by
  have get : ∀ id key, ((db.perform call none).2.backend.store id).get? key
      = (db.backend.store id).get? key := by
    intro id key
    rw [Store.get?, Store.get?, slots]
  obtain ⟨-, indexes, -⟩ := db.perform_of_isAccess none access
  have same : (db.perform call none).2.indexesOf table.id = db.indexesOf table.id := by
    rw [indexesOf, indexes]
    rfl
  refine ⟨⟨tended.arranged.perform none access, ?_, ?_⟩, same, get⟩
  · intro index hi key stored hs
    rw [Registered, same] at hi
    exact tended.buckets index hi key stored ((get _ _).symm.trans hs)
  · intro key stored hs
    exact tended.keys key stored ((get _ _).symm.trans hs)

/-! ### Tables without documents -/

/-- A table without documents and indexes. -/
structure Blank (db : Database) (table : Table) : Prop where
  arranged : db.Arranged table
  unindexed : ∀ name, (db.indexesOf table.id).find? name = none
  empty : ∀ key, (db.backend.store table.documents).get? key = none

/-- A table is blank after its creation. -/
theorem blank_fresh (config : Config) (name : String) :
    (fresh config name).2.Blank (fresh config name).1 where
  arranged := arranged_fresh config name
  unindexed _ := rfl
  empty _ := rfl

theorem Blank.not_registered {db : Database} {table : Table} (h : db.Blank table) (index : Index) :
    ¬ db.Registered table index := by
  rw [Registered, h.unindexed]
  exact (Option.some_ne_none index).symm

theorem Blank.tended {db : Database} {table : Table} (h : db.Blank table)
    (documents : Set String) : db.Tended table documents where
  arranged := h.arranged
  buckets index hi := absurd hi (h.not_registered index)
  keys key stored hs := by
    rw [h.empty] at hs
    cases hs

/-! ### Writing a document -/

/-- A write to a document leaves the buckets and the registered indexes alone. -/
structure WritesDocument (db : Database) (table : Table) (key : Bytes) (write : SlotWrite)
    (after : Database) : Prop where
  documents : after.backend.store table.documents
    = write.applied (db.backend.store table.documents) key
  indexes : after.indexesOf table.id = db.indexesOf table.id
  buckets : ∀ index, db.Registered table index →
    after.backend.store index.buckets = db.backend.store index.buckets

theorem WritesDocument.registered {db after : Database} {table : Table} {key : Bytes}
    {write : SlotWrite} (h : db.WritesDocument table key write after) {index : Index} :
    after.Registered table index ↔ db.Registered table index := by
  rw [Registered, Registered, h.indexes]

/-- Only what belongs to the document can change. -/
theorem WritesDocument.wanted_iff {db after : Database} {table : Table} {key : String}
    {write : SlotWrite} (h : db.WritesDocument table (Utf8.encode key) write after)
    (arranged : db.Arranged table) {m : Membership} (hm : db.Registered table m.index) :
    m.Wanted after ↔ if m.document = key then m.index.path.Yields (write.value?.getD []) m.indexKey
      else m.Wanted db := by
  rw [Membership.Wanted, Membership.Wanted, hm.documents arranged, h.documents, Store.get?_applied]
  by_cases same : m.document = key
  · rw [if_pos same, if_pos (congrArg _ same), Membership.wanted_iff_elim]
    cases write.value? <;> rfl
  · rw [if_neg same, if_neg fun h => same (Utf8.encode_injective h)]

/-- **A write to a document that goes through** keeps the order of the table, and leaves the buckets
and the registered indexes alone. -/
theorem Arranged.perform_document {db : Database} {table : Table} (arranged : db.Arranged table)
    {key : Bytes} {write : SlotWrite}
    (accepts : write.Accepts ((db.backend.store table.documents).get? key)) :
    let after := (db.perform (write.call table.documents key) none).2
    after.Arranged table ∧ db.WritesDocument table key write after := by
  intro after
  have access := write.call_isAccess table.documents key
  refine ⟨arranged.perform none access,
    db.store_perform_write accepts arranged.stored, ?_, fun index hi => ?_⟩
  · obtain ⟨-, indexes, -⟩ := db.perform_of_isAccess none access
    rw [indexesOf, indexes]
    rfl
  · exact db.store_perform_of_spares none (hi.lt_length arranged)
      (SlotWrite.call_spares (hi.apart arranged).symm)

theorem Tended.perform_document {db : Database} {table : Table} {documents : Set String}
    (tended : db.Tended table documents) {key : String} (listed : key ∈ documents)
    {write : SlotWrite}
    (accepts : write.Accepts ((db.backend.store table.documents).get? (Utf8.encode key))) :
    let after := (db.perform (write.call table.documents (Utf8.encode key)) none).2
    after.Tended table documents ∧
      db.WritesDocument table (Utf8.encode key) write after := by
  intro after
  obtain ⟨arranged, writes⟩ := tended.arranged.perform_document accepts
  -- the buckets stay, and only the key of a document that can be listed is written
  refine ⟨⟨arranged, ?_, ?_⟩, writes⟩
  · intro index hi
    rw [writes.registered] at hi
    rw [writes.buckets index hi]
    exact tended.buckets index hi
  · intro k stored hs
    rw [writes.documents, Store.get?_applied] at hs
    split at hs
    · rename_i same
      exact ⟨key, listed, same⟩
    · exact tended.keys k stored hs

end Database

/-! ### Changing a bucket and looking again -/

namespace Membership

/-- A bucket is changed for what the document was at a counter, or for its being missing. -/
def Justified (db : Database) (seen : Option Counter) (change : Bucket.Change) (m : Membership) :
    Prop :=
  ∃ stored : Option (Versioned Bytes), seen = stored.map Versioned.counter ∧
    (∀ v, stored = some v →
      (db.backend.store m.index.documents).Recalls (Utf8.encode m.document) v) ∧
    change = if m.wanted stored then .add else .remove

/-- Whoever has seen the document at this counter will notice that it has been written since; and
whoever has seen it missing has taken it out of the bucket. -/
def Watched (db : Database) (m : Membership) : Option Counter → Prop
  | none => ¬ m.Filed db
  | some counter => (db.backend.store m.index.documents).Passed (Utf8.encode m.document) counter

variable {db after : Database} {table : Table} {m : Membership} {seen : Option Counter}
  {change : Bucket.Change}

theorem Justified.mono (h : m.Justified db seen change) (later : db.Extends table after) :
    m.Justified after seen change := by
  obtain ⟨stored, hs, hr, hc⟩ := h
  exact ⟨stored, hs, fun v hv => later.recalls _ _ _ (hr v hv), hc⟩

theorem Watched.mono (h : m.Watched db seen) (later : db.Extends table after)
    (filed : m.Filed after → m.Filed db) : m.Watched after seen := by
  cases seen with
  | none => exact fun hf => h (filed hf)
  | some counter => exact later.passed _ _ _ h

/-- What is read now justifies the change that it demands. -/
theorem justified_of_get? (db : Database) (m : Membership) :
    m.Justified db
      (((db.backend.store m.index.documents).get? (Utf8.encode m.document)).map Versioned.counter)
      (if m.wanted ((db.backend.store m.index.documents).get? (Utf8.encode m.document)) then .add
        else .remove) :=
  ⟨_, rfl, fun _ hv => Store.recalls_of_get? hv, rfl⟩

/-- **After the change the membership is exact, or whoever looks again will notice.** -/
theorem Justified.exact_or_watched (h : m.Justified db seen change)
    (filed : m.Filed db ↔ change = .add) : m.Exact db ∨ m.Watched db seen := by
  obtain ⟨stored, rfl, recalls, hc⟩ := h
  cases stored with
  | none =>
      -- the document was missing, and so it has just been taken out of the bucket
      refine Or.inr fun hf => ?_
      have add := filed.1 hf
      rw [hc] at add
      cases add
  | some v =>
      -- what was read is still there, and the change was right, or it has been written since
      rcases (recalls v rfl).get?_or_passed with here | passed
      · refine Or.inl (filed.trans ?_)
        rw [Wanted, here, hc]
        split <;> simp [*]
      · exact Or.inr passed

/-- A change that is not made leaves nothing of the other kind to be done, or whoever looks again
will notice. -/
theorem Justified.agrees_or_watched (h : m.Justified db seen change) {kind : Bucket.Change}
    (other : kind ≠ change) : m.Agrees db kind ∨ m.Watched db seen := by
  obtain ⟨stored, rfl, recalls, hc⟩ := h
  -- as long as the document is what was read, the change is the one that is due
  have still : (db.backend.store m.index.documents).get? (Utf8.encode m.document) = stored →
      m.Agrees db kind := by
    intro here
    rw [← here] at hc
    by_cases wanted : m.Wanted db
    · rw [show change = .add from hc.trans (if_pos wanted)] at other
      cases kind with
      | add => exact absurd rfl other
      | remove => exact fun _ => wanted
    · rw [show change = .remove from hc.trans (if_neg wanted)] at other
      cases kind with
      | add => exact fun due => absurd due wanted
      | remove => exact absurd rfl other
  cases stored with
  | some v => exact (recalls v rfl).get?_or_passed.imp_left still
  | none =>
      -- the document was missing, and its removal from the bucket was due
      have removed : change = .remove := hc
      by_cases filed : m.Filed db
      · cases kind with
        | add => exact Or.inl fun _ => filed
        | remove => exact absurd removed.symm other
      · exact Or.inr filed

/-- **Who looks again and does not notice finds the membership exact.** -/
theorem Watched.exact (h : m.Watched db seen)
    (same : ((db.backend.store m.index.documents).get? (Utf8.encode m.document)).map
      Versioned.counter = seen) : m.Exact db := by
  subst same
  cases hs : (db.backend.store m.index.documents).get? (Utf8.encode m.document) with
  | none =>
      rw [hs] at h
      refine iff_of_false h ?_
      rw [Wanted, hs]
      exact Bool.false_ne_true
  | some v =>
      rw [hs] at h
      -- it was written since it was read at this counter, and so it is not at it any more
      exact absurd (Store.liveCounter?_of_get? hs) (Store.Passed.liveCounter?_ne h)

end Membership

end DocStore
