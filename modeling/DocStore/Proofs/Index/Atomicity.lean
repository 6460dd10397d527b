/-
What the creation of an index leaves behind when it fails.

An index is registered before the documents are filed, so that no write in between is missed.  From
then on nothing takes the registration back: a document that cannot be filed is passed over, and the
only failure that the creation still reports is that of the cursor on the documents, with which it
ends at once.

* `IndexCreation.Published` — the index is registered, and nothing has been filed before there is a
  cursor;
* `IndexCreation.published_step` — **once the index is registered, only the cursor makes the
  creation fail;**
* `IndexCreation.fails_cases` — the two ways in which it fails;
* `Database.find?_addIndex` — what a new index does to the indexes of its table;
* `Table.createIndex_atomic` — **a creation that fails has changed nothing, unless it was the cursor
  that failed, and then all that it has done is to register the index;**
* `Table.createIndex_not_atomic` — in that case the name stays taken.
-/

import DocStore.Proofs.Database.Catalog
import DocStore.Proofs.Run.Alone

set_option autoImplicit false

namespace DocStore

variable {faults : Database → Call → Option Error → Prop} {db after : Database} {table : Table}
  {name path : String}

namespace IndexCreation

/-- The index is registered, in a database like this one as long as there is no cursor. -/
structure Published (table : Table) (registered db : Database) (c : IndexCreation) : Prop where
  ofTable : c.table = table
  later : ∀ name path, c.stage ≠ .registering name path
  untouched : ∀ index, c.stage = .opening index → db = registered

/-- With the documents on their way into the index, a creation waits. -/
theorem published_filed (registered db : Database) (index : Index)
    (progress : Progress SettleQueue Unit) {result : Except Error Index → Prop} :
    (filed table index progress).Satisfies (Published table registered db) result := by
  cases progress with
  | waiting queue => exact ⟨rfl, fun _ _ => Stage.noConfusion, fun _ => Stage.noConfusion⟩
  | finished ended => exact ⟨rfl, fun _ _ => Stage.noConfusion, fun _ => Stage.noConfusion⟩

/-- **Once the index is registered, only the cursor makes the creation fail.** -/
theorem published_step {registered : Database} {c : IndexCreation} {fault : Option Error}
    (h : c.Published table registered db) (possible : faults db (Task.call c) fault) :
    (Task.resume c (db.perform (Task.call c) fault).1).Satisfies
      (Published table registered (db.perform (Task.call c) fault).2)
      fun result => ∀ e, result = .error e →
        (db.perform (Task.call c) fault).2 = registered ∧
          faults registered (.iter table.documents false) (some e) := by
  obtain ⟨owner, stage⟩ := c
  obtain rfl : owner = table := h.ofTable
  cases stage with
  | registering name path => exact absurd rfl (h.later name path)
  | opening index =>
      obtain rfl := h.untouched index rfl
      have call : Task.call (⟨owner, .opening index⟩ : IndexCreation)
          = .iter owner.documents false := rfl
      rw [call] at possible ⊢
      rcases db.perform_cases (.iter owner.documents false) fault with ⟨e, rfl, failed⟩ | opened
      · rw [failed]
        rintro _ same
        cases same
        exact ⟨rfl, possible⟩
      · rw [opened]
        exact published_filed _ _ index _
  | filing index queue => exact published_filed _ _ index _
  | releasing index =>
      have call : Task.call (⟨owner, .releasing index⟩ : IndexCreation)
          = .release owner.documents := rfl
      rw [call, Database.perform_of_site?_none rfl]
      exact fun _ same => nomatch same

/-- A creation that fails has done nothing, or has only registered the index. -/
theorem fails_cases {steps : List Footprint} {e : Error}
    (failed : Ends (.alone IndexCreation faults) db (table.createIndex name path) steps
      (.error e) after) :
    after = db ∨ ∃ parsed, FieldPath.parseField path = .ok parsed ∧
      (db.indexesOf table.id).find? name = none ∧ after = (db.addIndex table name parsed).2 ∧
      faults after (.iter table.documents false) (some e) := by
  unfold Table.createIndex start at failed
  split at failed
  · exact Or.inl failed.of_alone_finished.2
  split at failed
  · exact Or.inl failed.of_alone_finished.2
  rename_i parsed valid
  obtain ⟨fault, later, -, rest⟩ := failed.of_alone_waiting
  have call : Task.call (⟨table, .registering name parsed⟩ : IndexCreation)
      = .registerIndex table name parsed := rfl
  rw [call] at rest
  rcases db.perform_cases (.registerIndex table name parsed) fault with ⟨e, -, faulty⟩ | forward
  · rw [faulty] at rest
    exact Or.inl rest.of_alone_finished.2
  rw [forward, ← db.perform_none] at rest
  cases free : (db.indexesOf table.id).find? name with
  | some index =>
      rw [Database.perform_registerIndex_of_some free] at rest
      exact Or.inl rest.of_alone_finished.2
  | none =>
      rw [Database.perform_registerIndex_of_none free] at rest
      obtain ⟨same, possible⟩ := rest.alone_satisfies
        (P := Published table (db.addIndex table name parsed).2)
        (Q := fun later result => ∀ e, result = .error e →
          later = (db.addIndex table name parsed).2 ∧
            faults (db.addIndex table name parsed).2 (.iter table.documents false) (some e))
        (fun _ _ _ published possible => published_step published possible)
        ⟨rfl, fun _ _ => Stage.noConfusion, fun _ _ => rfl⟩ e rfl
      exact Or.inr ⟨parsed, valid, rfl, same, same ▸ possible⟩

end IndexCreation

/-- What a new index does to the indexes of its table. -/
theorem Database.find?_addIndex (db : Database) (table : Table) (name : String) (path : FieldPath)
    {other : String} (ne : other ≠ name) :
    ((db.addIndex table name path).2.indexesOf table.id).find? other
      = (db.indexesOf table.id).find? other := by
  rcases indexesOf_putIndexes_cases (db.putBackend (db.backend.openKeyspace
    (Name.buckets table.name name)).2) table.id ((db.indexesOf table.id).insert name
      (db.addIndex table name path).1) with there | ⟨before, after⟩
  · refine (congrArg (SortedMap.find? · other) there).trans ?_
    exact (SortedMap.find?_insert _ _ _ _).trans (if_neg ne)
  · exact congrArg (SortedMap.find? · other) (after.trans before.symm)

/-- **A creation that fails has changed nothing, unless it was the cursor on the documents that
failed, and then all that it has done is to register the index.** -/
theorem Table.createIndex_atomic {steps : List Footprint} {e : Error}
    (failed : Ends (.alone IndexCreation faults) db (table.createIndex name path) steps
      (.error e) after) :
    (∀ id, id < db.backend.stores.length → after.backend.store id = db.backend.store id) ∧
      after.catalog = db.catalog ∧
      (∀ other, other ≠ table.id → after.indexesOf other = db.indexesOf other) ∧
      (∀ other, other ≠ name →
        (after.indexesOf table.id).find? other = (db.indexesOf table.id).find? other) ∧
      (after = db ∨ ∃ parsed, FieldPath.parseField path = .ok parsed ∧
        (db.indexesOf table.id).find? name = none ∧ after = (db.addIndex table name parsed).2 ∧
        faults after (.iter table.documents false) (some e)) := by
  rcases IndexCreation.fails_cases failed with rfl | ⟨parsed, valid, free, rfl, possible⟩
  · exact ⟨fun _ _ => rfl, rfl, fun _ _ => rfl, fun _ _ => rfl, Or.inl rfl⟩
  · exact ⟨fun id stored => Backend.store_openKeyspace _ stored, rfl,
      fun other ne => Database.indexesOf_putIndexes_of_ne _ ne _,
      fun other ne => db.find?_addIndex table name parsed ne,
      Or.inr ⟨parsed, valid, free, rfl, possible⟩⟩

/-- The keyspace of the buckets cannot be opened, and nothing else fails: the creation has changed
nothing. -/
theorem Table.createIndex_atomic_of_open :
    ∃ steps after, Ends
        (.alone IndexCreation fun db call fault =>
          fault = none ∨ db.site? call = some (Site.mk (Name.buckets "t" "i") .openKeyspace))
        (Database.fresh .default "t").2 ((Database.fresh .default "t").1.createIndex "i" "n")
        steps (.error (.storage "boom")) after ∧
      after = (Database.fresh .default "t").2 := by
  have suffered : (Database.endure?
      (fun db call fault =>
        fault = none ∨ db.site? call = some (Site.mk (Name.buckets "t" "i") .openKeyspace))
      [some (.storage "boom")] (Database.fresh .default "t").2
      ((Database.fresh .default "t").1.createIndex "i" "n")).any
      (fun ended => failureOf ended.2.1 == some (.storage "boom")) = true := by
    decide +kernel
  obtain ⟨⟨steps, result, after⟩, hs, hf⟩ := (Option.any_eq_true _ _).1 suffered
  obtain rfl := eq_of_failureOf (beq_iff_eq.1 hf)
  have ends := Ends.of_endure? hs
  refine ⟨steps, after, ends, ?_⟩
  obtain ⟨-, -, -, -, same | ⟨parsed, -, -, -, no | other⟩⟩ := Table.createIndex_atomic ends
  · exact same
  · cases no
  · exact nomatch congrArg (Option.map Site.access) other

/-- **A creation whose cursor fails has failed, but the index is registered**, so that it cannot be
created once the storage works again. -/
theorem Table.createIndex_not_atomic :
    ∃ steps after last, Ends (.alone IndexCreation fun _ _ _ => True)
        (Database.fresh .default "t").2 ((Database.fresh .default "t").1.createIndex "i" "n")
        steps (.error (.storage "boom")) after ∧
      ((Database.fresh .default "t").2.indexesOf (Database.fresh .default "t").1.id).find? "i"
        = none ∧
      ((after.indexesOf (Database.fresh .default "t").1.id).find? "i").isSome ∧
      Completes after ((Database.fresh .default "t").1.createIndex "i" "n")
        (.error (.alreadyExists "t/i")) last := by
  have suffered : (Database.endure? (fun _ _ _ => True) [none, some (.storage "boom")]
      (Database.fresh .default "t").2
      ((Database.fresh .default "t").1.createIndex "i" "n")).any
      (fun ended => failureOf ended.2.1 == some (.storage "boom") &&
        ((ended.2.2.indexesOf (Database.fresh .default "t").1.id).find? "i").isSome &&
        (ended.2.2.finish? 1 ((Database.fresh .default "t").1.createIndex "i" "n")).any
          fun again => failureOf again.1 == some (.alreadyExists "t/i")) = true := by
    decide +kernel
  obtain ⟨⟨steps, result, after⟩, hs, hf⟩ := (Option.any_eq_true _ _).1 suffered
  simp only [Bool.and_eq_true, beq_iff_eq] at hf
  obtain ⟨⟨failed, registered⟩, again⟩ := hf
  obtain ⟨⟨result', last⟩, finished, taken⟩ := (Option.any_eq_true _ _).1 again
  obtain rfl := eq_of_failureOf failed
  obtain rfl := eq_of_failureOf (beq_iff_eq.1 taken)
  exact ⟨steps, after, last, .of_endure? hs, rfl, registered, .of_finish? finished⟩

end DocStore
