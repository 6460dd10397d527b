/-
What an index tells of the history of its table.

Operations are made on a table one after another, from its creation in a fresh database on.  After
each of them every bucket of every index lists the documents that yield its key, in the order in
which they last began to yield it; the documents that were there when the index was created come
first, by ascending key.

* `Session` — the states of such a table;
* `Membership.lasted`, `Membership.Sooner` — for how many states a document has belonged into a
  bucket, and which of two documents comes first;
* `Database.Follows.sooner` — an operation that follows the documents keeps this order;
* `Session.completes` — every further operation ends;
* `Session.lists` — **the buckets list the documents that yield their keys, in the order in which
  they last began to yield them.**

The documents that are asked for are among some whose lists survive being written
(`Bucket.Listable`).  Nothing else limits the run: keys, values, paths, attempts and counters are
arbitrary, and operations may fail for all ordinary reasons.
-/

import DocStore.Database.Catalog
import DocStore.Proofs.Table.Sequential

set_option autoImplicit false

namespace DocStore

variable {db after first : Database} {table : Table} {documents : Set String}
  {earlier states : List Database} {index : Index} {indexKey : Bytes}

/-! ### Sessions -/

/-- The states of a table on which operations are made one after another, the latest first. -/
inductive Session (table : Table) (documents : Set String) (first : Database) :
    List Database → Prop
  /-- None has been made. -/
  | start : Session table documents first [first]
  /-- One more has ended. -/
  | request {db after : Database} {earlier : List Database} {request : TableRequest}
      {outcome : TableOutcome} (before : Session table documents first (db :: earlier))
      (names : request.Names documents)
      (done : Completes db (request.start table) outcome after) :
      Session table documents first (after :: db :: earlier)

/-- The states after some more operations, each of at most so many calls. -/
def Session.replay? (table : Table) (documents : Set String) [DecidablePred (· ∈ documents)]
    (calls : Nat) : List Database → List TableRequest → Option (List Database)
  | states, [] => some states
  | [], _ :: _ => none
  | db :: earlier, next :: rest =>
      if next.Names documents then
        match db.finish? calls (next.start table) with
        | some (_, after) => replay? table documents calls (after :: db :: earlier) rest
        | none => none
      else none

theorem Session.of_replay? [DecidablePred (· ∈ documents)] {calls : Nat}
    {requests : List TableRequest} {later : List Database}
    (session : Session table documents first states)
    (h : replay? table documents calls states requests = some later) :
    Session table documents first later := by
  induction requests generalizing states with
  | nil =>
      obtain rfl := Option.some.inj h
      exact session
  | cons request rest ih =>
      cases states with
      | nil => cases h
      | cons db earlier =>
          rw [replay?] at h
          split at h
          · rename_i names
            split at h
            · rename_i outcome after done
              exact ih (session.request names (.of_finish? done)) h
            · cases h
          · cases h

/-- A table that was created in a database without tables. -/
theorem blank_of_createTable {config : Config} {name : String}
    (created : Completes (Database.empty config) (createTable name) (.ok table) first) :
    first.Blank table := by
  unfold createTable at created
  split at created
  · have done : Completes (Database.empty config) (.waiting (⟨name⟩ : TableCreation))
        (.ok (Database.fresh config name).1) (Database.fresh config name).2 :=
      .waits rfl (.finished _ _)
    obtain ⟨same, rfl⟩ := created.unique done
    obtain rfl := Except.ok.inj same
    exact Database.blank_fresh config name
  · cases created

/-- A table is tidy after its creation. -/
theorem Database.Blank.tidy (blank : db.Blank table) (documents : Set String) :
    db.Tidy table documents where
  tended := blank.tended documents
  tries key stored hs := by
    rw [blank.empty] at hs
    cases hs
  exact index indexKey d := by
    rw [listed_of_not_registered (blank.not_registered index)]
    exact iff_of_false List.not_mem_nil fun due => blank.not_registered index due.1

/-! ### Which document comes first -/

/-- For how many states, up to the latest one, a document has belonged into a bucket of an index
that is registered. -/
def Membership.lasted (table : Table) (m : Membership) (states : List Database) : Nat :=
  (states.takeWhile fun db => m.Due table db).length

/-- The first document has belonged into a bucket of an index for longer, or just as long, and
comes first in the order of the keys. -/
def Membership.Sooner (table : Table) (index : Index) (indexKey : Bytes) (states : List Database)
    (d e : String) : Prop :=
  lasted table ⟨index, indexKey, e⟩ states < lasted table ⟨index, indexKey, d⟩ states ∨
    lasted table ⟨index, indexKey, e⟩ states = lasted table ⟨index, indexKey, d⟩ states ∧
      Utf8.encode d < Utf8.encode e

namespace Membership

variable {m : Membership}

theorem lasted_cons_of_due (due : m.Due table db) :
    m.lasted table (db :: states) = m.lasted table states + 1 := by
  rw [lasted, List.takeWhile_cons, if_pos (decide_eq_true due), List.length_cons]
  rfl

theorem lasted_cons_of_not (not : ¬ m.Due table db) : m.lasted table (db :: states) = 0 := by
  rw [lasted, List.takeWhile_cons, if_neg fun due => not (of_decide_eq_true due), List.length_nil]

end Membership

/-- **An operation that follows the documents keeps the order.** -/
theorem Database.Follows.sooner (follows : db.Follows table after)
    (exact : ∀ d, d ∈ db.listed table index indexKey
      ↔ Membership.Due table ⟨index, indexKey, d⟩ db)
    (h : (db.listed table index indexKey).Pairwise
      (Membership.Sooner table index indexKey (db :: earlier))) :
    (after.listed table index indexKey).Pairwise
      (Membership.Sooner table index indexKey (after :: db :: earlier)) := by
  obtain ⟨newcomers, same, ascending, members⟩ := follows index indexKey
  rw [same, List.pairwise_append]
  have old : ∀ d, Membership.Due table ⟨index, indexKey, d⟩ after →
      Membership.lasted table ⟨index, indexKey, d⟩ (after :: db :: earlier)
        = Membership.lasted table ⟨index, indexKey, d⟩ (db :: earlier) + 1 :=
    fun d => Membership.lasted_cons_of_due
  have stays : ∀ d ∈ (db.listed table index indexKey).filter
      (fun d => Membership.Due table ⟨index, indexKey, d⟩ after),
      Membership.Due table ⟨index, indexKey, d⟩ db ∧
        Membership.Due table ⟨index, indexKey, d⟩ after := by
    intro d hd
    obtain ⟨hm, due⟩ := List.mem_filter.1 hd
    exact ⟨(exact d).1 hm, of_decide_eq_true due⟩
  have comes : ∀ d ∈ newcomers,
      Membership.lasted table ⟨index, indexKey, d⟩ (after :: db :: earlier) = 1 := by
    intro d hd
    obtain ⟨due, new⟩ := (members d).1 hd
    rw [old d due, Membership.lasted_cons_of_not new]
  -- two that stay, two that come, and one of each kind
  refine ⟨?_, ?_, ?_⟩
  · refine (h.filter _).imp_of_mem ?_
    intro d e hd he sooner
    rw [Membership.Sooner, old d (stays d hd).2, old e (stays e he).2]
    exact sooner.imp Nat.succ_lt_succ fun ⟨same, less⟩ => ⟨congrArg (· + 1) same, less⟩
  · refine ascending.imp_of_mem ?_
    intro d e hd he less
    rw [Membership.Sooner, comes d hd, comes e he]
    exact Or.inr ⟨rfl, less⟩
  · intro d hd e he
    obtain ⟨before, now⟩ := stays d hd
    rw [Membership.Sooner, comes e he, old d now, Membership.lasted_cons_of_due before]
    exact Or.inl (by omega)

namespace Session

/-! ### Every operation follows -/

variable (listable : Bucket.Listable documents) (blank : first.Blank table)
include listable blank

/-- The table is tidy in every state. -/
theorem tidy (session : Session table documents first (db :: earlier)) :
    db.Tidy table documents := by
  generalize hs : db :: earlier = states at session
  -- by induction on the session: whatever an operation does, it is what it does alone
  induction session generalizing db earlier with
  | start =>
      cases hs
      exact blank.tidy documents
  | request before names done ih =>
      cases hs
      obtain ⟨outcome, after, done', tidy, -⟩ :=
        TableRequest.completes listable (ih rfl) names
      rwa [(done.unique done').2]

/-- Every operation follows the documents. -/
theorem follows (session : Session table documents first (after :: db :: earlier)) :
    db.Follows table after := by
  cases session with
  | request before names done =>
      obtain ⟨outcome, after, done', -, follows⟩ :=
        TableRequest.completes listable (before.tidy listable blank) names
      rwa [(done.unique done').2]

/-- The documents in a bucket are in the order in which they last began to belong there. -/
theorem sooner (session : Session table documents first (db :: earlier)) (index : Index)
    (indexKey : Bytes) : (db.listed table index indexKey).Pairwise
      (Membership.Sooner table index indexKey (db :: earlier)) := by
  generalize hs : db :: earlier = states at session
  induction session generalizing db earlier with
  | start =>
      cases hs
      rw [Database.listed_of_not_registered (blank.not_registered index)]
      exact List.Pairwise.nil
  | request before names done ih =>
      cases hs
      exact (follows listable blank (.request before names done)).sooner
        ((before.tidy listable blank).exact index indexKey) (ih rfl)

/-- **Every further operation ends.** -/
theorem completes (session : Session table documents first (db :: earlier))
    {request : TableRequest} (names : request.Names documents) :
    ∃ outcome after, Completes db (request.start table) outcome after := by
  obtain ⟨outcome, after, done, -⟩ :=
    TableRequest.completes listable (session.tidy listable blank) names
  exact ⟨outcome, after, done⟩

end Session

/-! ### What the buckets tell -/

/-- The document is in the table and yields the key at the path. -/
def Database.Yields (db : Database) (table : Table) (path : FieldPath) (indexKey : Bytes)
    (d : String) : Prop :=
  ∃ stored, (db.backend.store table.documents).get? (Utf8.encode d) = some stored ∧
    path.Yields stored.value indexKey

theorem Database.Registered.due_iff (arranged : db.Arranged table)
    (hi : db.Registered table index) (d : String) :
    Membership.Due table ⟨index, indexKey, d⟩ db ↔ db.Yields table index.path indexKey d := by
  rw [Membership.Due, and_iff_right hi, Membership.wanted_iff_yields, hi.documents arranged]
  rfl

/-- What follows the documents keeps the places of those that stay, and puts the others at the
end. -/
theorem Database.Follows.places (follows : db.Follows table after)
    (exact : ∀ d, d ∈ db.listed table index indexKey
      ↔ Membership.Due table ⟨index, indexKey, d⟩ db) :
    ∃ kept newcomers, after.listed table index indexKey = kept ++ newcomers ∧
      kept.Sublist (db.listed table index indexKey) ∧
      ∀ d ∈ newcomers, d ∉ db.listed table index indexKey := by
  obtain ⟨newcomers, same, -, members⟩ := follows index indexKey
  refine ⟨_, newcomers, same, List.filter_sublist, fun d hd => ?_⟩
  rw [exact]
  exact ((members d).1 hd).2

/-- **The buckets list the documents that yield their keys, in the order in which they last began
to yield them.**  Every operation ends; the buckets that exist are those of the keys that some
document yields; and from one state to the next the documents that stay keep their places, and those
that come are put at the end. -/
theorem Session.lists (listable : Bucket.Listable documents) {config : Config} {name : String}
    (created : Completes (Database.empty config) (createTable name) (.ok table) first)
    (session : Session table documents first (db :: earlier)) :
    (∀ request : TableRequest, request.Names documents →
      ∃ outcome after, Completes db (request.start table) outcome after) ∧
    ∀ index, db.Registered table index →
      db.backend.find? (Name.buckets table.name index.name) = some index.buckets ∧
      ∀ indexKey,
        (((db.backend.store index.buckets).get? indexKey).isSome
          ↔ ∃ d, db.Yields table index.path indexKey d) ∧
        ∀ stored, (db.backend.store index.buckets).get? indexKey = some stored →
          ∃ list, Bucket.decode? stored.value = some list ∧ list.Nodup ∧
            (∀ d, d ∈ list ↔ db.Yields table index.path indexKey d) ∧
            list.Pairwise (Membership.Sooner table index indexKey (db :: earlier)) ∧
            ∀ before rest, earlier = before :: rest → before.Registered table index →
              ∃ old kept newcomers,
                (before.backend.store index.buckets).bucket? indexKey = some old ∧
                  list = kept ++ newcomers ∧ kept.Sublist old ∧ ∀ d ∈ newcomers, d ∉ old := by
  have blank := blank_of_createTable created
  have tidy := session.tidy listable blank
  have arranged := tidy.tended.arranged
  refine ⟨fun request => session.completes listable blank, fun index hi => ?_⟩
  refine ⟨(arranged.registered _ _ hi).2, fun indexKey => ?_⟩
  obtain ⟨list, hl, nodup, -, empty⟩ := (tidy.tended.buckets index hi).bucket? indexKey
  have listed := Database.listed_of_bucket? hi hl
  have members : ∀ d, d ∈ list ↔ db.Yields table index.path indexKey d := by
    intro d
    rw [← hi.due_iff arranged, ← tidy.exact, listed]
  refine ⟨?_, fun stored hs => ⟨list, ?_, nodup, members, ?_, ?_⟩⟩
  · rw [Option.isSome_iff_ne_none, ne_eq, ← empty]
    constructor
    · intro ne
      obtain ⟨d, hd⟩ := List.exists_mem_of_ne_nil list ne
      exact ⟨d, (members d).1 hd⟩
    · rintro ⟨d, hd⟩
      exact List.ne_nil_of_mem ((members d).2 hd)
  · rwa [Store.bucket?, hs] at hl
  · rw [← listed]
    exact session.sooner listable blank index indexKey
  · rintro before rest rfl hb
    -- the lists before and after the last operation are compared
    cases session with
    | request earlier names done =>
        have tidy' := earlier.tidy listable blank
        obtain ⟨old, ho, -⟩ := (tidy'.tended.buckets index hb).bucket? indexKey
        have places := (Session.follows listable blank (.request earlier names done)).places
          (tidy'.exact index indexKey)
        rw [listed, Database.listed_of_bucket? hb ho] at places
        obtain ⟨kept, newcomers, places⟩ := places
        exact ⟨old, kept, newcomers, ho, places⟩

/-- Two documents are there when an index is created.  The first is rewritten and keeps its place;
then it is deleted and set again, and comes last. -/
theorem Session.lists_of_restored :
    ∃ db earlier index,
      Bucket.Listable {"x", "y"} ∧
        Completes (Database.empty .default) (createTable "t")
          (.ok (Database.fresh .default "t").1) (Database.fresh .default "t").2 ∧
        Session (Database.fresh .default "t").1 {"x", "y"} (Database.fresh .default "t").2
          (db :: earlier) ∧
        db.Registered (Database.fresh .default "t").1 index ∧
        (db.backend.store index.buckets).bucket? (Json.bool true).indexKey = some ["y", "x"] ∧
        ["y", "x"].Pairwise (Membership.Sooner (Database.fresh .default "t").1 index
          (Json.bool true).indexKey (db :: earlier)) := by
  have listable : Bucket.Listable {"x", "y"} := Bucket.listable_pair (by decide) (by decide)
  have created : Completes (Database.empty .default) (createTable "t")
      (.ok (Database.fresh .default "t").1) (Database.fresh .default "t").2 :=
    Completes.of_finish? (show Database.finish? 1 _ _ = _ from rfl)
  have replayed : ((replay? (Database.fresh .default "t").1 {"x", "y"} 40
      [(Database.fresh .default "t").2]
      [.document (.set "x" (.map [(.string "n", .bool true)])),
        .document (.set "y" (.map [(.string "n", .bool true)])), .createIndex "i" "n",
        .document (.set "x" (.map [(.string "n", .bool true), (.string "m", .null)])),
        .document (.delete "x"),
        .document (.set "x" (.map [(.string "n", .bool true)]))]).any fun states =>
          states.head?.any fun db =>
            ((db.indexesOf (Database.fresh .default "t").1.id).find? "i").any fun index =>
              decide (db.Registered (Database.fresh .default "t").1 index) &&
                (db.backend.store index.buckets).bucket? (Json.bool true).indexKey
                  == some ["y", "x"]) = true := by
    decide +kernel
  obtain ⟨states, hs, last⟩ := (Option.any_eq_true _ _).1 replayed
  have session := Session.start.of_replay? hs
  obtain ⟨db, hd, found⟩ := (Option.any_eq_true _ _).1 last
  obtain ⟨earlier, rfl⟩ := List.head?_eq_some_iff.1 hd
  obtain ⟨index, -, holds⟩ := (Option.any_eq_true _ _).1 found
  rw [Bool.and_eq_true, beq_iff_eq, decide_eq_true_iff] at holds
  obtain ⟨registered, bucket⟩ := holds
  refine ⟨db, earlier, index, listable, created, session, registered, bucket, ?_⟩
  cases stored : (db.backend.store index.buckets).get? (Json.bool true).indexKey with
  | none =>
      rw [Store.bucket?, stored] at bucket
      cases bucket
  | some v =>
      obtain ⟨list, hl, -, -, sooner, -⟩ :=
        (((Session.lists listable created session).2 index registered).2 _).2 v stored
      rw [Store.bucket?, stored] at bucket
      obtain rfl := Option.some.inj (hl.symm.trans bucket)
      exact sooner

end DocStore
