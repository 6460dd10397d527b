/-
What can be wrong with an index that its writers could not keep.

A document whose removal from a bucket has failed stays there, and nobody looks after it any more:
whoever asks for the key of the bucket is given the document, although it does not yield the key.
Nothing else makes an index give what it should not.  Additions that fail, and creations that do not
come to their snapshot, only make documents missing.

* `Index.Lists` — a document that a bucket lists, as it is stored;
* `BucketLoad.lists_step`, `BucketFirst.lists_step` — a read goes on with the documents that the
  bucket lists;
* `Index.getAll_lists`, `Index.one_lists` — **what a read gives is listed;**
* `Found`, `found_unless_givenUp` — **where no operation is under way, an index gives stored
  documents that yield the key, and such of which an operation has given up the removal;**
* `found_outdated` — and these it does give.
-/

import DocStore.Index.Query
import DocStore.Proofs.Run.Alone
import DocStore.Proofs.Table.Upkeep

set_option autoImplicit false

namespace DocStore

/-! ### What a read gives -/

/-- The bucket lists the document, which is stored so. -/
def Index.Lists (db : Database) (index : Index) (indexKey : Bytes) (document : String)
    (stored : Versioned Bytes) : Prop :=
  Membership.Filed db ⟨index, indexKey, document⟩ ∧
    (db.backend.store index.documents).get? (Utf8.encode document) = some stored

variable {db after : Database} {index : Index} {indexKey : Bytes}

namespace BucketRead

/-- A bucket that can be read lists these documents. -/
theorem documents?_of_documents {stored : Option (Versioned Bytes)} {list : List String}
    (h : documents stored = .ok list) : Bucket.documents? stored = some list := by
  cases stored with
  | none => exact congrArg some (Except.ok.inj h)
  | some stored =>
      cases decoded : Bucket.decode? stored.value with
      | none =>
          simp only [documents, decoded] at h
          cases h
      | some here =>
          simp only [documents, decoded] at h
          exact decoded.trans (congrArg some (Except.ok.inj h))

/-- The documents of a bucket are filed under its key. -/
theorem filed_of_documents {list : List String}
    (h : documents ((db.backend.store index.buckets).get? indexKey) = .ok list) :
    ∀ document ∈ list, Membership.Filed db ⟨index, indexKey, document⟩ :=
  fun _ mem => ⟨list, documents?_of_documents h, mem⟩

/-- The bucket is read, or this fails. -/
theorem filed_step (db : Database) (index : Index) (indexKey : Bytes) (fault : Option Error) :
    let performed := db.perform (.get index.buckets indexKey) fault
    performed.2 = db ∧
      ∃ result, Task.resume (⟨index, indexKey⟩ : BucketRead) performed.1 = .finished result ∧
        ∀ list, result = .ok list → ∀ document ∈ list,
          Membership.Filed db ⟨index, indexKey, document⟩ := by
  cases fault with
  | some e => exact ⟨rfl, .error e, rfl, nofun⟩
  | none => exact ⟨rfl, _, rfl, fun _ h => filed_of_documents h⟩

end BucketRead

namespace BucketLoad

/-- What is found is listed by the bucket, and what is to come is filed in it. -/
def Reads (db : Database) (index : Index) (indexKey : Bytes) (load : BucketLoad) : Prop :=
  load.index = index ∧
    match load.stage with
    | .bucket read => read = ⟨index, indexKey⟩
    | .document key rest found =>
        (∀ document ∈ key :: rest, Membership.Filed db ⟨index, indexKey, document⟩) ∧
          ∀ entry ∈ found, ∃ document stored, entry = entryOf document stored ∧
            index.Lists db indexKey document stored

/-- What is given is listed by the bucket. -/
def Gives (db : Database) (index : Index) (indexKey : Bytes) (result : Except Error (List Entry)) :
    Prop :=
  ∀ entries, result = .ok entries → ∀ entry ∈ entries, ∃ document stored,
    entry = entryOf document stored ∧ index.Lists db indexKey document stored

theorem lists_next {found : List Entry} {keys : List String}
    (filed : ∀ document ∈ keys, Membership.Filed db ⟨index, indexKey, document⟩)
    (lists : ∀ entry ∈ found, ∃ document stored, entry = entryOf document stored ∧
      index.Lists db indexKey document stored) :
    (next index found keys).Satisfies (Reads db index indexKey) (Gives db index indexKey) := by
  cases keys with
  | cons key rest => exact ⟨rfl, filed, lists⟩
  | nil =>
      rintro _ ⟨⟩ entry mem
      exact lists entry (List.mem_reverse.1 mem)

/-- A read goes on with the documents that the bucket lists. -/
theorem lists_step {load : BucketLoad} (h : load.Reads db index indexKey) (fault : Option Error) :
    (db.perform (Task.call load) fault).2 = db ∧
      (Task.resume load (db.perform (Task.call load) fault).1).Satisfies
        (Reads db index indexKey) (Gives db index indexKey) := by
  obtain ⟨rfl, h⟩ := h
  obtain ⟨index, stage⟩ := load
  cases stage with
  | bucket read =>
      obtain rfl : read = ⟨index, indexKey⟩ := h
      obtain ⟨same, result, ended, filed⟩ := BucketRead.filed_step db index indexKey fault
      refine ⟨same, ?_⟩
      change (BucketLoad.listed index (Task.resume (⟨index, indexKey⟩ : BucketRead)
        (db.perform (.get index.buckets indexKey) fault).1)).Satisfies _ _
      rw [ended]
      cases result with
      | ok list => exact lists_next (filed list rfl) (by simp)
      | error e => exact nofun
  | document key rest found =>
      obtain ⟨filed, lists⟩ := h
      have later := fun document mem => filed document (List.mem_cons_of_mem key mem)
      cases fault with
      | some e => exact ⟨rfl, nofun⟩
      | none =>
          refine ⟨rfl, ?_⟩
          change (Task.resume (⟨index, .document key rest found⟩ : BucketLoad) (.document (.ok
            ((db.backend.store index.documents).get? (Utf8.encode key))))).Satisfies _ _
          cases hs : (db.backend.store index.documents).get? (Utf8.encode key) with
          | none => exact lists_next later lists
          | some stored =>
              refine lists_next later fun entry mem => ?_
              rcases List.mem_cons.1 mem with rfl | mem
              · exact ⟨key, stored, rfl, filed key List.mem_cons_self, hs⟩
              · exact lists entry mem

end BucketLoad

namespace BucketFirst

/-- What is to come is filed in the bucket. -/
def Reads (db : Database) (index : Index) (indexKey : Bytes) (shape : Shape) (task : BucketFirst) :
    Prop :=
  task.index = index ∧ task.shape = shape ∧
    match task.stage with
    | .bucket read => read = ⟨index, indexKey⟩
    | .document key rest =>
        ∀ document ∈ key :: rest, Membership.Filed db ⟨index, indexKey, document⟩

/-- What is given is listed by the bucket. -/
def Gives (db : Database) (index : Index) (indexKey : Bytes) (shape : Shape)
    (result : Except Error (String × Versioned Value)) : Prop :=
  ∀ document current, result = .ok (document, current) → ∃ stored,
    stored.decode shape = .ok current ∧ index.Lists db indexKey document stored

theorem lists_next {shape : Shape} {keys : List String}
    (filed : ∀ document ∈ keys, Membership.Filed db ⟨index, indexKey, document⟩) :
    (next index shape keys).Satisfies (Reads db index indexKey shape)
      (Gives db index indexKey shape) := by
  cases keys with
  | cons key rest => exact ⟨rfl, rfl, filed⟩
  | nil => exact nofun

/-- A read goes on with the documents that the bucket lists. -/
theorem lists_step {shape : Shape} {task : BucketFirst} (h : task.Reads db index indexKey shape)
    (fault : Option Error) :
    (db.perform (Task.call task) fault).2 = db ∧
      (Task.resume task (db.perform (Task.call task) fault).1).Satisfies
        (Reads db index indexKey shape) (Gives db index indexKey shape) := by
  obtain ⟨rfl, rfl, h⟩ := h
  obtain ⟨index, shape, stage⟩ := task
  cases stage with
  | bucket read =>
      obtain rfl : read = ⟨index, indexKey⟩ := h
      obtain ⟨same, result, ended, filed⟩ := BucketRead.filed_step db index indexKey fault
      refine ⟨same, ?_⟩
      change (BucketFirst.listed index shape (Task.resume (⟨index, indexKey⟩ : BucketRead)
        (db.perform (.get index.buckets indexKey) fault).1)).Satisfies _ _
      rw [ended]
      cases result with
      | ok list => exact lists_next (filed list rfl)
      | error e => exact nofun
  | document key rest =>
      have later := fun document mem => h document (List.mem_cons_of_mem key mem)
      cases fault with
      | some e => exact ⟨rfl, nofun⟩
      | none =>
          refine ⟨rfl, ?_⟩
          change (Task.resume (⟨index, shape, .document key rest⟩ : BucketFirst) (.document (.ok
            ((db.backend.store index.documents).get? (Utf8.encode key))))).Satisfies _ _
          cases hs : (db.backend.store index.documents).get? (Utf8.encode key) with
          | none => exact lists_next later
          | some stored =>
              intro document current given
              cases hd : stored.decode shape with
              | error e => simp [hd, Except.map] at given
              | ok value =>
                  simp only [hd, Except.map, Except.ok.injEq, Prod.mk.injEq] at given
                  obtain ⟨rfl, rfl⟩ := given
                  exact ⟨stored, hd, h key List.mem_cons_self, hs⟩

end BucketFirst

namespace Index

variable {faults : Database → Call → Option Error → Prop} {footprints : List Footprint}
  {value : Value}

/-- The entries that an index gives for a value are listed under its key. -/
theorem getAll_lists {entries : List Entry}
    (h : Ends (.alone BucketLoad faults) db (index.getAll value) footprints (.ok entries) after) :
    ∃ indexKey, value.indexKey? = some indexKey ∧ ∀ entry ∈ entries, ∃ document stored,
      entry = entryOf document stored ∧ index.Lists db indexKey document stored := by
  cases hk : value.indexKey? with
  | none =>
      rw [getAll, keys, hk] at h
      exact nomatch h.of_alone_finished.1
  | some indexKey =>
      have gives : after = db ∧ BucketLoad.Gives db index indexKey (.ok entries) := by
        refine Ends.alone_satisfies (P := fun now load => now = db ∧ load.Reads db index indexKey)
          (Q := fun now result => now = db ∧ BucketLoad.Gives db index indexKey result) ?_ h ?_
        · rintro _ load fault ⟨rfl, reads⟩ -
          obtain ⟨same, next⟩ := BucketLoad.lists_step reads fault
          exact next.imp (fun _ h => ⟨same, h⟩) fun _ h => ⟨same, h⟩
        · rw [getAll, keys, hk]
          exact ⟨rfl, rfl, rfl⟩
      exact ⟨indexKey, rfl, gives.2 entries rfl⟩

/-- The first document that an index gives for a value is listed under its key. -/
theorem one_lists {shape : Shape} {document : String} {current : Versioned Value}
    (h : Ends (.alone BucketFirst faults) db (index.one value shape) footprints
      (.ok (document, current)) after) :
    ∃ indexKey, value.indexKey? = some indexKey ∧ ∃ stored, stored.decode shape = .ok current ∧
      index.Lists db indexKey document stored := by
  cases hk : value.indexKey? with
  | none =>
      rw [one, keys, hk] at h
      exact nomatch h.of_alone_finished.1
  | some indexKey =>
      have gives : after = db ∧ BucketFirst.Gives db index indexKey shape
          (.ok (document, current)) := by
        refine Ends.alone_satisfies
          (P := fun now task => now = db ∧ task.Reads db index indexKey shape)
          (Q := fun now result => now = db ∧ BucketFirst.Gives db index indexKey shape result)
          ?_ h ?_
        · rintro _ task fault ⟨rfl, reads⟩ -
          obtain ⟨same, next⟩ := BucketFirst.lists_step reads fault
          exact next.imp (fun _ h => ⟨same, h⟩) fun _ h => ⟨same, h⟩
        · rw [one, keys, hk]
          exact ⟨rfl, rfl, rfl, rfl⟩
      exact ⟨indexKey, rfl, gives.2 document current rfl⟩

end Index

/-! ### Damage -/

/-- What an index of a table gives under a key, after some calls of operations on the table: the
document is stored so, and it yields the key, unless an operation has given up its removal. -/
structure Found (table : Table) (steps : List (Step TableTask)) (db : Database) (index : Index)
    (indexKey : Bytes) (document : String) (stored : Versioned Bytes) : Prop where
  /-- The document is stored so. -/
  here : (db.backend.store table.documents).get? (Utf8.encode document) = some stored
  /-- It yields the key, or its removal was given up. -/
  yields : index.path.Yields stored.value indexKey ∨
    ∃ step ∈ steps, step.GivesUp .remove ⟨index, indexKey, document⟩ ∧ table.MayGiveUp step.fault

section Damage

variable {table : Table} {documents : Set String} {s : System TableRequest TableTask TableOutcome}
  {steps : List (Step TableTask)}

/-- What a bucket lists where no operation is under way. -/
theorem Index.Lists.found (listable : Bucket.Listable documents) (blank : db.Blank table)
    (trace : Trace (Database.upkeepRules table documents) db steps s)
    (idle : ∀ operation, s.pending operation = none) (registered : s.db.Registered table index)
    {document : String} {stored : Versioned Bytes}
    (h : index.Lists s.db indexKey document stored) :
    Found table steps s.db index indexKey document stored := by
  obtain ⟨filed, hs⟩ := h
  have ofTable := registered.documents (trace.run.tended listable blank).base.arranged
  refine ⟨ofTable ▸ hs, ?_⟩
  rcases trace.agrees_or_repaired listable blank .remove (m := ⟨index, indexKey, document⟩)
    registered with agrees | ⟨operation, task, pending, -⟩ | given
  · obtain ⟨found, hf, yields⟩ := Membership.wanted_iff_yields.1 (agrees filed)
    obtain rfl : stored = found := Option.some.inj (hs.symm.trans hf)
    exact Or.inl yields
  · rw [idle operation] at pending
    cases pending
  · exact Or.inr given

/-- **Where no operation is under way, an index gives stored documents that yield the key, and such
of which an operation has given up the removal.**  The calls of the read may fail, too. -/
theorem found_unless_givenUp (listable : Bucket.Listable documents) (blank : db.Blank table)
    (trace : Trace (Database.upkeepRules table documents) db steps s)
    (idle : ∀ operation, s.pending operation = none) (registered : s.db.Registered table index)
    (faults : Database → Call → Option Error → Prop) (value : Value) :
    (∀ footprints entries after,
      Ends (.alone BucketLoad faults) s.db (index.getAll value) footprints (.ok entries) after →
        ∃ indexKey, value.indexKey? = some indexKey ∧ ∀ entry ∈ entries, ∃ document stored,
          entry = entryOf document stored ∧
            Found table steps s.db index indexKey document stored) ∧
      ∀ shape footprints document current after,
        Ends (.alone BucketFirst faults) s.db (index.one value shape) footprints
            (.ok (document, current)) after →
          ∃ indexKey, value.indexKey? = some indexKey ∧ ∃ stored,
            stored.decode shape = .ok current ∧
              Found table steps s.db index indexKey document stored := by
  constructor
  · intro footprints entries after read
    obtain ⟨indexKey, hk, lists⟩ := index.getAll_lists read
    refine ⟨indexKey, hk, fun entry mem => ?_⟩
    obtain ⟨document, stored, same, listed⟩ := lists entry mem
    exact ⟨document, stored, same, listed.found listable blank trace idle registered⟩
  · intro shape footprints document current after read
    obtain ⟨indexKey, hk, stored, decoded, listed⟩ := index.one_lists read
    exact ⟨indexKey, hk, stored, decoded, listed.found listable blank trace idle registered⟩

end Damage

/-- Whether no operation is under way. -/
def System.isQuiet (s : System TableRequest TableTask TableOutcome) : Bool :=
  (List.range s.history.length).all fun operation => (s.pending operation).isNone

theorem Run.quiet {rules : Rules TableRequest TableTask TableOutcome} {db : Database}
    {s : System TableRequest TableTask TableOutcome} (run : Run rules db s)
    (h : s.isQuiet = true) (operation : Nat) : s.pending operation = none := by
  rw [Option.eq_none_iff_forall_ne_some]
  intro task pending
  have mem := List.mem_range.2 (run.lt_length_of_pending pending)
  have quiet := List.all_eq_true.1 h operation mem
  rw [pending] at quiet
  cases quiet

/-- Operations on a table that drop no index, on some documents, where only calls on the buckets of
one index may fail. -/
def Database.bucketFaultRules (table : Table) (documents : Set String) (name : String) :
    Rules TableRequest TableTask TableOutcome :=
  { Database.upkeepRules table documents with
    faults := fun db call fault => (fault = none → db.HasRoom call) ∧
      (fault ≠ none → (db.site? call).map Site.keyspace = some (Name.buckets table.name name)) }

instance (table : Table) (documents : Set String) [DecidablePred (· ∈ documents)] (name : String)
    (s : System TableRequest TableTask TableOutcome) (request : TableRequest) :
    Decidable ((Database.bucketFaultRules table documents name).admits s request) :=
  inferInstanceAs (Decidable (request.Names documents ∧ request.drops = false))

instance (table : Table) (documents : Set String) (name : String) (db : Database) (call : Call)
    (fault : Option Error) :
    Decidable ((Database.bucketFaultRules table documents name).faults db call fault) :=
  inferInstanceAs (Decidable (_ ∧ _))

/-- A document is written under one value and then under another, and its removal from the bucket of
the first one fails; then another document is written under the first value. -/
def removalFails : List (Move TableRequest) :=
  [.invoke (.createIndex "i" "tag"), .advance 0 none, .advance 0 none, .advance 0 none,
    .invoke (.document (.set "x" (.map [(.string "tag", .string "a")]))),
    .advance 2 none, .advance 2 none, .advance 2 none, .advance 2 none, .advance 2 none,
    .advance 2 none,
    .invoke (.document (.set "x" (.map [(.string "tag", .string "b")]))),
    .advance 4 none, .advance 4 none, .advance 4 none, .advance 4 none,
    .advance 4 (some (.storage "boom")), .advance 4 none, .advance 4 none, .advance 4 none,
    .invoke (.document (.set "y" (.map [(.string "tag", .string "a")]))),
    .advance 6 none, .advance 6 none, .advance 6 none, .advance 6 none, .advance 6 none,
    .advance 6 none]

/-- What a read has given that does not yield the key. -/
def outdated (index : Index) (indexKey : Bytes) : Except Error (List Entry) → List Entry
  | .ok entries => entries.filter fun e => indexKey ∉ index.path.indexKeys e.value
  | .error _ => []

theorem exists_of_mem_outdated {result : Except Error (List Entry)} {entry : Entry}
    {index : Index} {indexKey : Bytes} (mem : entry ∈ outdated index indexKey result) :
    ∃ entries, result = .ok entries ∧ entry ∈ entries ∧
      ¬ index.path.Yields entry.value indexKey := by
  cases result with
  | error e => cases mem
  | ok entries =>
      obtain ⟨mem, unlike⟩ := List.mem_filter.1 mem
      rw [← FieldPath.mem_indexKeys]
      exact ⟨entries, rfl, mem, of_decide_eq_true unlike⟩

/-- After the removal has failed, the first value is asked for. -/
theorem exists_of_removalFails :
    ∃ s index footprints entries after entry,
      Run (Database.bucketFaultRules (Database.fresh .default "t").1 {"x", "y"} "i")
        (Database.fresh .default "t").2 s ∧
      (∀ operation, s.pending operation = none) ∧
      s.db.Registered (Database.fresh .default "t").1 index ∧
      Ends (.alone BucketLoad fun _ _ fault => fault = none) s.db
        (index.getAll (.string "a")) footprints (.ok entries) after ∧
      entry ∈ entries ∧ ¬ index.path.Yields entry.value [5, 97] := by
  have played : (((System.initial (Database.fresh .default "t").2).play?
      (Database.bucketFaultRules (Database.fresh .default "t").1 {"x", "y"} "i")
      removalFails).any fun s => s.isQuiet &&
        ((s.db.indexesOf (Database.fresh .default "t").1.id).find? "i").any fun index =>
          index.name == "i" &&
          (Database.endure? (fun _ _ fault => fault = none) [none, none, none] s.db
            (index.getAll (.string "a"))).any fun read =>
              (outdated index [5, 97] read.2.1).head?.isSome) = true := by
    decide +kernel
  obtain ⟨s, run, hs⟩ := Run.exists_of_play? played
  simp only [Bool.and_eq_true, Option.any_eq_true, beq_iff_eq] at hs
  obtain ⟨quiet, index, found, name, ⟨footprints, result, after⟩, endured, some⟩ := hs
  obtain ⟨entry, first⟩ := Option.isSome_iff_exists.1 some
  obtain ⟨entries, rfl, mem, unlike⟩ := exists_of_mem_outdated (List.mem_of_head? first)
  refine ⟨s, index, footprints, entries, after, entry, run, run.quiet quiet, ?_,
    .of_endure? endured, mem, unlike⟩
  rwa [Database.Registered, name]

/-- The read after which the document is given that does not yield the key: its removal was given
up. -/
theorem found_unless_givenUp_of_removal :
    Bucket.Listable {"x", "y"} ∧
      (Database.fresh .default "t").2.Blank (Database.fresh .default "t").1 ∧
      ∃ steps s index footprints entries after entry indexKey document stored,
        Trace (Database.upkeepRules (Database.fresh .default "t").1 {"x", "y"})
          (Database.fresh .default "t").2 steps s ∧
        (∀ operation, s.pending operation = none) ∧
        s.db.Registered (Database.fresh .default "t").1 index ∧
        Ends (.alone BucketLoad fun _ _ fault => fault = none) s.db
          (index.getAll (.string "a")) footprints (.ok entries) after ∧
        entry ∈ entries ∧ entry = entryOf document stored ∧
        ¬ index.path.Yields stored.value indexKey ∧
        Found (Database.fresh .default "t").1 steps s.db index indexKey document stored := by
  have listable : Bucket.Listable {"x", "y"} := Bucket.listable_pair (by decide) (by decide)
  have blank := Database.blank_fresh .default "t"
  obtain ⟨s, index, footprints, entries, after, entry, run, quiet, registered, read, mem, unlike⟩ :=
    exists_of_removalFails
  obtain ⟨steps, trace⟩ := run.exists_trace
  have trace : Trace (Database.upkeepRules (Database.fresh .default "t").1 {"x", "y"})
      (Database.fresh .default "t").2 steps s :=
    trace.imp rfl (fun _ _ h => h) (fun _ _ _ h => h.1) fun _ _ h => h
  obtain ⟨indexKey, hk, found⟩ := (found_unless_givenUp listable blank trace quiet registered
    (fun _ _ fault => fault = none) (.string "a")).1 footprints entries after read
  obtain ⟨document, stored, rfl, here⟩ := found entry mem
  obtain rfl : [5, 97] = indexKey := Option.some.inj (Eq.trans (by decide) hk)
  exact ⟨listable, blank, steps, s, index, footprints, entries, after, _, [5, 97], document, stored,
    trace, quiet, registered, read, mem, rfl, unlike, here⟩

/-- **Not everything that an index gives yields the key,** when calls on its buckets may fail. -/
theorem found_outdated :
    ¬ ∀ (table : Table) (documents : Set String) (name : String) (db : Database)
        (s : System TableRequest TableTask TableOutcome),
      Bucket.Listable documents → db.Blank table →
        Run (Database.bucketFaultRules table documents name) db s →
        (∀ operation, s.pending operation = none) →
        ∀ (index : Index) (value : Value) (indexKey : Bytes) (footprints : List Footprint)
          (entries : List Entry) (after : Database),
          s.db.Registered table index → value.indexKey? = some indexKey →
          Ends (.alone BucketLoad fun _ _ fault => fault = none) s.db (index.getAll value)
            footprints (.ok entries) after →
          ∀ entry ∈ entries, index.path.Yields entry.value indexKey := by
  intro claim
  obtain ⟨s, index, footprints, entries, after, entry, run, quiet, registered, read, mem, unlike⟩ :=
    exists_of_removalFails
  exact unlike (claim _ _ _ _ s (Bucket.listable_pair (by decide) (by decide))
    (Database.blank_fresh .default "t") run quiet index (.string "a") [5, 97] footprints entries
    after registered (by decide) read entry mem)

end DocStore
