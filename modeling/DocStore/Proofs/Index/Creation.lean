/-
Creating an index while documents are written.

A new index is empty, and from the moment at which it is registered the writers keep it.  What was
there before is filed by the creation, which takes a snapshot after that moment: whatever belongs
into a bucket and is not in it yet is in the snapshot, or has been written since.

* `Database.Registers.tended` — a new index comes into a table in order;
* `IndexCreation.mem_memberships_iff` — the memberships that are filed are those of the snapshot;
* `IndexCreation.Sound`, `IndexCreation.Repairs`, `IndexCreation.GivesUp` — what the creation relies
  on, the memberships that it makes right, and those that it gives up at a reply;
* `IndexCreation.mends` — **every call of the creation mends all memberships but those that it makes
  it give up.**

A creation that fails before it has its snapshot leaves an index in which everything is missing that
was there before, and nothing is that should not be.
-/

import DocStore.Proofs.Index.Mending
import DocStore.Proofs.Range.Drain
import DocStore.Proofs.Text.Lossy

set_option autoImplicit false

namespace DocStore

variable {db after : Database} {table : Table} {documents : Set String} {m : Membership}
  {kind : Bucket.Change} {fault : Option Error}

namespace Database

/-! ### A new index -/

variable {name : String} {path : FieldPath} {index : Index}

theorem Registers.registered_iff (h : db.Registers table name path index after) (other : Index) :
    after.Registered table other ↔ other = index ∨ db.Registered table other := by
  rw [Registered, Registered, h.find?]
  by_cases same : other.name = name
  · rw [if_pos same, same, h.free]
    constructor
    · exact fun hi => Or.inl (Option.some.inj hi).symm
    · rintro (rfl | no)
      · rfl
      · cases no
  · rw [if_neg same]
    refine (or_iff_right ?_).symm
    rintro rfl
    exact same h.belongs.ofName

theorem Registers.not_registered (h : db.Registers table name path index after) :
    ¬ db.Registered table index := by
  intro hi
  have taken := h.free
  rw [← h.belongs.ofName, hi] at taken
  cases taken

/-- A new index comes into a table in order. -/
theorem Registers.tended (h : db.Registers table name path index after)
    (tended : db.Tended table documents) (arranged : after.Arranged table) :
    after.Tended table documents where
  arranged := arranged
  buckets other ho := by
    rcases (h.registered_iff other).1 ho with rfl | ho
    · rw [h.store_buckets]
      exact Store.holdsBuckets_empty _ documents
    · rw [h.store_eq (ho.lt_length tended.arranged)]
      exact tended.buckets other ho
  keys := by
    rw [h.store_eq tended.arranged.stored]
    exact tended.keys

/-- Nothing is filed in a new index. -/
theorem Registers.not_filed (h : db.Registers table name path index after)
    (same : m.index = index) : ¬ m.Filed after := by
  rintro ⟨list, hl, hm⟩
  rw [same, Store.bucket?, h.store_buckets] at hl
  obtain rfl : [] = list := Option.some.inj hl
  cases hm

/-- The memberships of other indexes are not touched by a new one. -/
theorem Registers.untouched (h : db.Registers table name path index after)
    (arranged : db.Arranged table) (hm : db.Registered table m.index) :
    m.Untouched table db after where
  registered := hm
  filed := by
    rw [Membership.Filed, Membership.Filed, h.store_eq (hm.lt_length arranged)]
  wanted := by
    rw [Membership.Wanted, Membership.Wanted, hm.documents arranged, h.store_eq arranged.stored]

/-- What registering an index replies, and what becomes of the table. -/
theorem Tended.perform_registerIndex (tended : db.Tended table documents) (name : String)
    (path : FieldPath) :
    (∃ e, db.perform (.registerIndex table name path) none = (.index (.error e), db)) ∨
      ∃ index after, db.perform (.registerIndex table name path) none
          = (.index (.ok index), after) ∧
        db.Registers table name path index after ∧ after.Tended table documents ∧
        db.Extends table after := by
  cases hf : (db.indexesOf table.id).find? name with
  | some index =>
      exact Or.inl ⟨_, perform_registerIndex_of_some hf path⟩
  | none =>
      obtain ⟨arranged, registers⟩ := tended.arranged.registerIndex hf path
      have done := perform_registerIndex_of_none hf path
      have same := congrArg Prod.snd done
      have room : db.HasRoom (.registerIndex table name path) := trivial
      refine Or.inr ⟨_, _, done, registers, registers.tended tended arranged, ?_, ?_, ?_⟩
      · exact fun other ho => (registers.registered_iff other).2 (Or.inr ho)
      · intro id key stored h
        exact same ▸ recalls_perform none room h
      · intro id key counter h
        exact same ▸ passed_perform none room h

/-! ### Cursors -/

/-- An access that leaves all slots as they are touches no membership. -/
theorem Tended.untouched_of_slots (tended : db.Tended table documents) {call : Call}
    (access : call.IsAccess) (room : db.HasRoom call)
    (slots : ∀ id, ((db.perform call none).2.backend.store id).slots
      = (db.backend.store id).slots) :
    (db.perform call none).2.Tended table documents ∧ db.Extends table (db.perform call none).2 ∧
      ∀ m : Membership, (db.perform call none).2.Registered table m.index →
        m.Untouched table db (db.perform call none).2 := by
  obtain ⟨tended', indexes, get⟩ := tended.perform_of_slots access slots
  refine ⟨tended', extends_perform table access room, fun m hm => ⟨?_, ?_, ?_⟩⟩
  · rwa [Registered, indexes] at hm
  · rw [Membership.Filed, Membership.Filed, Store.bucket?, Store.bucket?, get]
  · rw [Membership.Wanted, Membership.Wanted, get]

end Database

namespace IndexCreation

/-- The memberships that are filed are those of the documents in the snapshot. -/
theorem mem_memberships_iff {index : Index} {store : Store}
    (keys : ∀ key stored, store.get? key = some stored → ∃ d ∈ documents, key = Utf8.encode d) :
    m ∈ memberships index store.snapshot ↔ m.index = index ∧ m.document ∈ documents ∧
      ∃ stored, store.get? (Utf8.encode m.document) = some stored ∧
        index.path.Yields stored.value m.indexKey := by
  simp only [memberships, List.mem_flatMap, List.mem_map, FieldPath.mem_indexKeys]
  constructor
  · rintro ⟨e, he, indexKey, hk, rfl⟩
    have stored := Store.mem_snapshot.1 he
    obtain ⟨d, hd, same⟩ := keys _ _ stored
    have text : e.keyText = d := by
      rw [Entry.keyText, same, Utf8.lossy_encode]
    refine ⟨rfl, text ▸ hd, ⟨e.value, e.counter⟩, ?_, hk⟩
    rw [text, ← same]
    exact stored
  · rintro ⟨rfl, -, stored, hs, hk⟩
    refine ⟨⟨Utf8.encode m.document, stored.value, stored.counter⟩, Store.mem_snapshot.2 hs,
      m.indexKey, hk, ?_⟩
    rw [Entry.keyText, Utf8.lossy_encode]

/-- The index is registered, and the memberships that are filed are its own. -/
def Sound (db : Database) (table : Table) (documents : Set String) (c : IndexCreation) : Prop :=
  c.table = table ∧
    match c.stage with
    | .registering _ _ => True
    | .opening index => db.Registered table index
    | .filing index queue =>
        db.Registered table index ∧ table.retry.maxAttempts ≠ some 0 ∧
          queue.Sound db table documents ∧ queue.Concerns (fun m => m.index = index) fun _ => True
    | .releasing index => db.Registered table index

/-- Before the snapshot, what is not filed; afterwards, what remains of the snapshot. -/
def Repairs (db : Database) (c : IndexCreation) (m : Membership) : Prop :=
  match c.stage with
  | .registering _ _ => False
  | .opening index => m.index = index ∧ ¬ m.Filed db
  | .filing _ queue => queue.Repairs db m
  | .releasing _ => False

/-- The membership whose settling this reply makes fail; before the snapshot, all memberships that
would have been filed, if there is no cursor or no attempt at all. -/
def GivesUp (kind : Bucket.Change) (reply : Reply) (c : IndexCreation) (m : Membership) : Prop :=
  match c.stage with
  | .opening index =>
      m.index = index ∧ kind = .add ∧
        (c.table.retry.maxAttempts = some 0 ∨ ∃ e, reply = .cursor (.error e))
  | .filing _ queue => queue.GivesUp reply m
  | _ => False

/-- The index that is being created, once it is registered. -/
def index? (c : IndexCreation) : Option Index :=
  match c.stage with
  | .registering _ _ => none
  | .opening index => some index
  | .filing index _ => some index
  | .releasing index => some index

variable {c : IndexCreation}

theorem Sound.mono (h : c.Sound db table documents) (later : db.Extends table after) :
    c.Sound after table documents := by
  obtain ⟨ofTable, h⟩ := h
  refine ⟨ofTable, ?_⟩
  obtain ⟨_, stage⟩ := c
  cases stage with
  | registering name path => trivial
  | opening index => exact later.registered _ h
  | filing index queue =>
      exact ⟨later.registered _ h.1, h.2.1, h.2.2.1.mono later, h.2.2.2⟩
  | releasing index => exact later.registered _ h

theorem Repairs.mono (h : c.Repairs db m) (later : db.Extends table after)
    (filed : m.Filed after → m.Filed db) : c.Repairs after m := by
  obtain ⟨_, stage⟩ := c
  cases stage with
  | registering name path => exact h
  | opening index => exact h.imp_right fun not hf => not (filed hf)
  | filing index queue => exact SettleQueue.Repairs.mono h later filed
  | releasing index => exact h

/-- A creation repairs memberships of its own index. -/
theorem Repairs.index?_eq (h : c.Repairs db m) (sound : c.Sound db table documents) :
    c.index? = some m.index := by
  obtain ⟨_, stage⟩ := c
  cases stage with
  | registering name path => exact h.elim
  | opening index => exact congrArg some h.1.symm
  | filing index queue =>
      obtain ⟨-, -, -, -, concerns⟩ := sound
      rcases h with ⟨same, -⟩ | hm
      · exact congrArg some (same ▸ concerns.1.1.symm)
      · exact congrArg some (concerns.2 m hm).symm
  | releasing index => exact h.elim

/-- An index that is being created is registered. -/
theorem Sound.registered (h : c.Sound db table documents) {index : Index}
    (hi : c.index? = some index) : db.Registered table index := by
  obtain ⟨_, stage⟩ := c
  cases stage with
  | registering name path => cases hi
  | opening i =>
      obtain rfl := Option.some.inj hi
      exact h.2
  | filing i queue =>
      obtain rfl := Option.some.inj hi
      exact h.2.1
  | releasing i =>
      obtain rfl := Option.some.inj hi
      exact h.2

/-- The creation goes on with what it files. -/
theorem mends_filed {index : Index} (hi : after.Registered table index)
    {progress : Progress SettleQueue Unit}
    (sound : progress.Satisfies (fun q => table.retry.maxAttempts ≠ some 0 ∧
      q.Sound after table documents ∧ q.Concerns (fun m => m.index = index) fun _ => True)
        fun _ => True)
    {repaired given : Membership → Prop}
    (h : db.Mends table documents kind repaired after fun m =>
      progress.Waits (fun q => q.Repairs after m) ∨ given m) :
    (filed table index progress).Satisfies (fun c => c.Sound after table documents)
        (fun result => ∀ i, result = .ok i → after.Registered table i) ∧
      db.Mends table documents kind repaired after fun m =>
        (filed table index progress).Waits (fun c => c.Repairs after m) ∨ given m := by
  cases progress with
  | waiting queue => exact ⟨⟨rfl, hi, sound⟩, h⟩
  | finished result => exact ⟨⟨rfl, hi⟩, h⟩

/-- The creation goes on so, from one state to another: it stays sound, the index that it gives is
registered, and the step mends all memberships but those that are given up. -/
def Steps (db : Database) (table : Table) (documents : Set String) (kind : Bucket.Change)
    (c : IndexCreation) (after : Database) (progress : Progress IndexCreation (Except Error Index))
    (given : Membership → Prop) : Prop :=
  progress.Satisfies (fun t => t.Sound after table documents)
      (fun result => ∀ i, result = .ok i → after.Registered table i) ∧
    db.Mends table documents kind (c.Repairs db) after fun m =>
      progress.Waits (fun t => t.Repairs after m) ∨ given m

/-- The index is registered, and nothing is filed in it yet. -/
theorem steps_registering (tended : db.Tended table documents) (name : String)
    (path : FieldPath) {given : Membership → Prop} :
    let c : IndexCreation := ⟨table, .registering name path⟩
    let performed := db.perform (Task.call c) fault
    Steps db table documents kind c performed.2 (Task.resume c performed.1) given := by
  intro c performed
  have failed : ∀ e, performed = (.index (.error e), db) →
      Steps db table documents kind c performed.2 (Task.resume c performed.1) given := by
    intro e hp
    rw [hp]
    refine ⟨?_, tended.mends_none⟩
    rintro _ ⟨⟩
  rcases db.perform_cases (.registerIndex table name path) fault with ⟨e, -, hp⟩ | forward
  · exact failed e hp
  · have same : performed = db.perform (.registerIndex table name path) none :=
      forward.trans (db.perform_none _).symm
    rcases tended.perform_registerIndex name path with
      ⟨e, hp⟩ | ⟨index, after, done, registers, kept, later⟩
    · exact failed e (same.trans hp)
    · rw [same, done]
      refine ⟨⟨rfl, (registers.registered_iff index).2 (Or.inl rfl)⟩, kept, later, ?_⟩
      intro m hm
      -- memberships of the new index are not filed yet, and the others are not touched
      rcases (registers.registered_iff m.index).1 hm with new | old
      · exact Or.inl (Or.inl ⟨new, registers.not_filed new⟩)
      · exact Or.inr (Or.inr ⟨registers.untouched tended.arranged old, id⟩)

/-- What is not filed in the new index has only to be added. -/
theorem mends_unopened (tended : after.Tended table documents) (later : db.Extends table after)
    (untouched : ∀ m : Membership, after.Registered table m.index → m.Untouched table db after)
    {index : Index} {reply : Reply}
    (unopened : table.retry.maxAttempts = some 0 ∨ ∃ e, reply = .cursor (.error e))
    (may : table.MayGiveUp fault) {P : Membership → Prop} :
    let c : IndexCreation := ⟨table, .opening index⟩
    db.Mends table documents kind (c.Repairs db) after fun m =>
      P m ∨ c.GivesUp kind reply m ∧ table.MayGiveUp fault := by
  refine Database.mends_of_untouched tended later untouched ?_
  rintro m hm ⟨same, unfiled⟩
  cases kind with
  | add => exact Or.inl (Or.inr ⟨⟨same, rfl, unopened⟩, may⟩)
  | remove => exact Or.inr fun filed => absurd ((untouched m hm).filed.1 filed) unfiled

/-- A document that is wanted is in the snapshot, and one that is not filed needs nothing else. -/
theorem repairs_snapshot (tended : db.Tended table documents) (hi : db.Registered table m.index)
    (untouched : m.Untouched table db after) (unfiled : ¬ m.Filed db) {P : Prop}
    (listed : m ∈ memberships m.index (db.backend.store table.documents).snapshot → P) :
    P ∨ m.Agrees after kind := by
  by_cases wanted : m.Wanted db
  · obtain ⟨stored, hs, hk⟩ := Membership.wanted_iff_yields.1 wanted
    rw [hi.documents tended.arranged] at hs
    obtain ⟨d, hd, same⟩ := tended.keys _ _ hs
    refine Or.inl (listed ((mem_memberships_iff tended.keys).2 ⟨rfl, ?_, stored, hs, hk⟩))
    rwa [Utf8.encode_injective same]
  · have exact : m.Exact db := iff_of_false unfiled wanted
    exact Or.inr (untouched.agrees (exact.agrees kind))

/-- A cursor that is opened gives what has to be filed. -/
theorem steps_opening (tended : db.Tended table documents) {index : Index}
    (h : db.Registered table index) :
    let c : IndexCreation := ⟨table, .opening index⟩
    let performed := db.perform (Task.call c) fault
    Steps db table documents kind c performed.2 (Task.resume c performed.1)
      fun m => c.GivesUp kind performed.1 m ∧ table.MayGiveUp fault := by
  intro c performed
  cases fault with
  | some e =>
      refine ⟨?_, mends_unopened tended (.refl db table) (fun _ hm => ⟨hm, Iff.rfl, Iff.rfl⟩)
        (Or.inr ⟨e, rfl⟩) (table.mayGiveUp_some e)⟩
      rintro _ ⟨⟩
  | none =>
      have gone : Task.resume c performed.1 = filed table index (SettleQueue.start
          (memberships index (db.backend.store table.documents).snapshot)) := by
        rw [← Range.drain_all table.documents (db.backend.store table.documents).snapshot]
        rfl
      have slots : ∀ id, (performed.2.backend.store id).slots = (db.backend.store id).slots :=
        fun id => (Database.slots_putStore_cursors db.backend table.documents id _).1
      have access : (Call.iter table.documents false).IsAccess := trivial
      obtain ⟨kept, later, untouched⟩ := tended.untouched_of_slots access trivial slots
      have hi := later.registered _ h
      have own : ∀ m ∈ memberships index (db.backend.store table.documents).snapshot,
          m.index = index ∧ m.document ∈ documents := fun m hm =>
        ((mem_memberships_iff tended.keys).1 hm).imp_right And.left
      rw [gone]
      by_cases tries : table.retry.maxAttempts = some 0
      · -- nothing is filed, as no attempt may be made
        rw [SettleQueue.start_eq_finished fun m hm => by
          rw [(own m hm).1, h.retry tended.arranged, tries]]
        refine ⟨⟨rfl, hi⟩, mends_unopened kept later untouched (Or.inl tries) (Or.inr ?_)⟩
        rw [tries]
        nofun
      · have started := SettleQueue.sound_start tries kept
          (fun m hm => ⟨(own m hm).1 ▸ hi, (own m hm).2⟩)
        refine mends_filed hi ?_ (Database.mends_of_untouched kept later untouched ?_)
        · exact (started.and (SettleQueue.concerns_start fun m hm => (own m hm).1)).imp
            (fun _ hq => ⟨tries, hq.1.1, hq.2⟩) fun _ _ => trivial
        · rintro m hm ⟨rfl, unfiled⟩
          refine repairs_snapshot tended h (untouched m hm) unfiled fun listed => Or.inl ?_
          refine started.imp (fun _ hq => hq.2 m listed) fun _ empty => ?_
          rw [empty] at listed
          cases listed

/-- The cursor is released. -/
theorem steps_releasing (tended : db.Tended table documents) {index : Index}
    (h : db.Registered table index) {given : Membership → Prop} :
    let c : IndexCreation := ⟨table, .releasing index⟩
    let performed := db.perform (Task.call c) none
    Steps db table documents kind c performed.2 (Task.resume c performed.1) given := by
  intro c performed
  have slots : ∀ id, (performed.2.backend.store id).slots = (db.backend.store id).slots :=
    fun id => (Database.slots_putStore_cursors db.backend table.documents id _).1
  have access : (Call.release table.documents).IsAccess := trivial
  obtain ⟨kept, later, untouched⟩ := tended.untouched_of_slots access trivial slots
  refine ⟨?_, Database.mends_of_untouched kept later untouched fun _ _ no => False.elim no⟩
  rintro _ ⟨⟩
  exact later.registered _ h

/-- **Every call of the creation mends all memberships but those that it makes it give up.** -/
theorem mends (listable : Bucket.Listable documents) (tended : db.Tended table documents)
    (h : c.Sound db table documents) (room : fault = none → db.HasRoom (Task.call c)) :
    let performed := db.perform (Task.call c) fault
    let progress := Task.resume c performed.1
    progress.Satisfies (fun t => t.Sound performed.2 table documents)
        (fun result => ∀ i, result = .ok i → performed.2.Registered table i) ∧
      db.Mends table documents kind (c.Repairs db) performed.2 fun m =>
        progress.Waits (fun t => t.Repairs performed.2 m) ∨
          c.GivesUp kind performed.1 m ∧ table.MayGiveUp fault := by
  intro performed progress
  obtain ⟨rfl, h⟩ := h
  obtain ⟨table, stage⟩ := c
  cases stage with
  | registering name path => exact steps_registering tended name path
  | opening index => exact steps_opening tended h
  | filing index queue =>
      obtain ⟨hi, tries, sound, concerns⟩ := h
      obtain ⟨sound, mends⟩ := SettleQueue.mends listable tries tended sound room
      have own := SettleQueue.concerns_resume concerns performed.1 (fun _ _ _ => trivial)
        fun _ _ _ _ => Progress.satisfies_true _
      exact mends_filed (mends.later.registered _ hi)
        ((sound.and own).imp (fun _ h => ⟨tries, h⟩) fun _ _ => trivial) mends
  | releasing index => cases fault <;> exact steps_releasing tended h

/-- A creation stays with its index; one that has none yet gets an index that nobody has had. -/
theorem index?_step (tended : db.Tended table documents) (h : c.Sound db table documents) :
    let performed := db.perform (Task.call c) none
    (Task.resume c performed.1).Satisfies
      (fun t => ∀ i, t.index? = some i →
        c.index? = some i ∨ db.backend.stores.length ≤ i.buckets)
      (fun result => ∀ i, result = .ok i → c.index? = some i) := by
  intro performed
  obtain ⟨rfl, -⟩ := h
  obtain ⟨table, stage⟩ := c
  cases stage with
  -- only here an index is given out, and its store is a new one
  | registering name path =>
      rcases tended.perform_registerIndex name path with ⟨e, failed⟩ | ⟨index, after, done, new, -⟩
      · have ended : Task.resume (⟨table, .registering name path⟩ : IndexCreation) performed.1
            = .finished (.error e) := by
          rw [show performed.1 = .index (.error e) from congrArg Prod.fst failed]
          rfl
        rw [ended]
        rintro _ ⟨⟩
      · have gone : Task.resume (⟨table, .registering name path⟩ : IndexCreation) performed.1
            = .waiting ⟨table, .opening index⟩ := by
          rw [show performed.1 = .index (.ok index) from congrArg Prod.fst done]
          rfl
        rw [gone]
        rintro _ ⟨⟩
        exact Or.inr (Nat.le_of_eq new.new.symm)
  | opening index =>
      have gone : Task.resume (⟨table, .opening index⟩ : IndexCreation) performed.1
        = filed table index (SettleQueue.start (memberships index (Range.onCursor table.documents
            (.ofEntries (db.backend.store table.documents).snapshot false) .min .max
              false).drain)) := rfl
      rw [gone]
      unfold filed
      split <;> exact fun _ hi => Or.inl hi
  | filing index queue =>
      have gone : Task.resume (⟨table, .filing index queue⟩ : IndexCreation) performed.1
        = filed table index (Task.resume queue performed.1) := rfl
      rw [gone]
      unfold filed
      split <;> exact fun _ hi => Or.inl hi
  | releasing index =>
      have ended : Task.resume (⟨table, .releasing index⟩ : IndexCreation) performed.1
        = .finished (.ok index) := rfl
      rw [ended]
      rintro _ ⟨⟩
      rfl

end IndexCreation

end DocStore
