/-
Who makes a membership right.

While operations run, a bucket may differ from what the documents say.  There is then an operation
under way that will make up for it: it has the membership still before it, or it has been there and
will notice, when it looks again, that the document has been written since.  A call may fail, and
attempts may be limited; then the operation gives a membership up, and goes on with the others.

* `Settling.Repairs`, `SettleQueue.Repairs`, `IndexSync.Repairs` — the memberships that an operation
  makes right, or will notice that it has not;
* `Settling.GivesUp`, `SettleQueue.GivesUp`, `IndexSync.GivesUp` — the memberships that it gives up
  at a reply;
* `Settling.Sound`, `SettleQueue.Sound`, `IndexSync.Sound` — what it relies on;
* `Database.Mends` — a call after which every membership agrees with the documents, or is repaired
  by the operation that made the call, or has not been touched;
* `Settling.mends`, `SettleQueue.mends`, `IndexSync.mends` — **every call mends all memberships but
  those that it makes the operation give up.**

Additions and removals are followed apart: to give up a removal never keeps a document out of a
bucket, and to give up an addition never leaves one in it.  What an operation repairs is not
disturbed by the calls of others (`Settling.Repairs.mono` and so on), unless they put the document
into the bucket; but then it is theirs to repair.
-/

import DocStore.Proofs.Index.Edits
import DocStore.Proofs.Index.Steps

set_option autoImplicit false

namespace DocStore

variable {db after : Database} {table : Table} {documents : Set String} {m : Membership}
  {kind : Bucket.Change} {fault : Option Error}

/-- The operation is under way and satisfies this. -/
abbrev Progress.Waits {τ α : Type} (task : τ → Prop) (progress : Progress τ α) : Prop :=
  progress.Satisfies task fun _ => False

theorem Progress.exists_of_waits {τ α : Type} {task : τ → Prop} {progress : Progress τ α}
    (h : progress.Waits task) : ∃ t, progress = .waiting t ∧ task t := by
  cases progress with
  | waiting t => exact ⟨t, rfl, h⟩
  | finished a => exact h.elim

/-! ### Calls that mend -/

/-- Neither the bucket nor the document has changed in what concerns the membership. -/
structure Membership.Untouched (table : Table) (db after : Database) (m : Membership) : Prop where
  registered : db.Registered table m.index
  filed : m.Filed after ↔ m.Filed db
  wanted : m.Wanted after ↔ m.Wanted db

theorem Membership.Untouched.agrees (h : m.Untouched table db after) (agrees : m.Agrees db kind) :
    m.Agrees after kind := by
  cases kind with
  | add => exact fun due => h.filed.2 (agrees (h.wanted.1 due))
  | remove => exact fun due => h.wanted.2 (agrees (h.filed.1 due))

namespace Database

/-- A later state in which every membership is repaired, or nothing of this kind is left to be done
to it, or it was not repaired before and has not been touched. -/
structure Mends (db : Database) (table : Table) (documents : Set String) (kind : Bucket.Change)
    (repaired : Membership → Prop) (after : Database) (repairs : Membership → Prop) : Prop where
  tended : after.Tended table documents
  later : db.Extends table after
  mended : ∀ m : Membership, after.Registered table m.index →
    repairs m ∨ m.Agrees after kind ∨ m.Untouched table db after ∧ ¬ repaired m

variable {repaired repaired' repairs repairs' : Membership → Prop}

theorem Mends.imp (h : db.Mends table documents kind repaired after repairs)
    (before : ∀ m, repaired' m → repaired m) (now : ∀ m, repairs m → repairs' m) :
    db.Mends table documents kind repaired' after repairs' where
  tended := h.tended
  later := h.later
  mended m hm := by
    rcases h.mended m hm with hr | agrees | ⟨untouched, not⟩
    · exact Or.inl (now m hr)
    · exact Or.inr (Or.inl agrees)
    · exact Or.inr (Or.inr ⟨untouched, fun hr => not (before m hr)⟩)

/-- Something is repaired before and after the call. -/
theorem Mends.or (h : db.Mends table documents kind repaired after repairs)
    (P : Membership → Prop) :
    db.Mends table documents kind (fun m => repaired m ∨ P m) after fun m => repairs m ∨ P m where
  tended := h.tended
  later := h.later
  mended m hm := by
    by_cases hp : P m
    · exact Or.inl (Or.inr hp)
    · rcases h.mended m hm with hr | agrees | ⟨untouched, not⟩
      · exact Or.inl (Or.inl hr)
      · exact Or.inr (Or.inl agrees)
      · exact Or.inr (Or.inr ⟨untouched, fun hr => hr.elim not hp⟩)

/-- A call that touches no membership mends, if what was repaired is repaired or agrees. -/
theorem mends_of_untouched (tended : after.Tended table documents) (later : db.Extends table after)
    (untouched : ∀ m : Membership, after.Registered table m.index → m.Untouched table db after)
    (kept : ∀ m : Membership, after.Registered table m.index → repaired m →
      repairs m ∨ m.Agrees after kind) :
    db.Mends table documents kind repaired after repairs where
  tended := tended
  later := later
  mended m hm := by
    by_cases hr : repaired m
    · exact (kept m hm hr).imp_right Or.inl
    · exact Or.inr (Or.inr ⟨untouched m hm, hr⟩)

/-- So does one that changes nothing. -/
theorem Tended.mends_self (h : db.Tended table documents)
    (kept : ∀ m : Membership, db.Registered table m.index → repaired m →
      repairs m ∨ m.Agrees db kind) : db.Mends table documents kind repaired db repairs :=
  mends_of_untouched h (.refl db table) (fun _ hm => ⟨hm, Iff.rfl, Iff.rfl⟩) kept

/-- Where nothing was repaired, there is nothing to keep. -/
theorem Tended.mends_none (h : db.Tended table documents) :
    db.Mends table documents kind (fun _ => False) db repairs :=
  h.mends_self fun _ _ no => no.elim

/-- A change of one bucket touches one membership. -/
theorem Files.untouched {n : Membership} {change : Bucket.Change}
    (h : db.Files table n change after) (tended : db.Tended table documents)
    (hm : db.Registered table m.index) (ne : m ≠ n) : m.Untouched table db after where
  registered := hm
  filed := h.others m hm ne
  wanted := by
    rw [Membership.Wanted, Membership.Wanted, hm.documents tended.arranged, h.documents]

/-- A change of one bucket mends, if the membership that it touches is repaired or agrees. -/
theorem Files.mends {n : Membership} {change : Bucket.Change} (h : db.Files table n change after)
    (before : db.Tended table documents) (tended : after.Tended table documents)
    (later : db.Extends table after)
    (own : repairs n ∨ n.Agrees after kind)
    (kept : ∀ m, m ≠ n → repaired m → repairs m ∨ m.Agrees after kind) :
    db.Mends table documents kind repaired after repairs where
  tended := tended
  later := later
  mended m hm := by
    by_cases same : m = n
    · subst same
      exact own.imp_right Or.inl
    · by_cases hr : repaired m
      · exact (kept m same hr).imp_right Or.inl
      · rw [Registered, h.indexes] at hm
        exact Or.inr (Or.inr ⟨h.untouched before hm same, hr⟩)

/-- What a step of one operation repairs, it repairs for an operation that stands for this one, and
what it gives up is given up. -/
theorem mends_map {τ σ α β : Type} {progress : Progress τ α} {sound : τ → Prop}
    {result : α → Prop} {repairs : Membership → τ → Prop} {given : Membership → Prop}
    (wrap : τ → σ) (convert : α → β)
    {sound' : σ → Prop} {result' : β → Prop} {repairs' : Membership → σ → Prop}
    (h : progress.Satisfies sound result)
    (mends : db.Mends table documents kind repaired after fun m =>
      progress.Waits (repairs m) ∨ given m)
    (ht : ∀ t, sound t → sound' (wrap t)) (hr : ∀ a, result a → result' (convert a))
    (hm : ∀ m t, repairs m t → repairs' m (wrap t)) :
    (progress.map wrap convert).Satisfies sound' result' ∧
      db.Mends table documents kind repaired after fun m =>
        (progress.map wrap convert).Waits (repairs' m) ∨ given m := by
  refine ⟨Progress.satisfies_map.2 (h.imp ht hr), mends.imp (fun _ hr => hr) fun m hp => ?_⟩
  exact hp.imp_left fun hw => Progress.satisfies_map.2 (hw.imp (hm m) fun _ no => no)

end Database

/-! ### Settling -/

namespace Settling

/-- A settling of a registered index. -/
structure Sound (db : Database) (table : Table) (documents : Set String) (s : Settling) : Prop where
  registered : db.Registered table s.membership.index
  listed : s.membership.document ∈ documents
  limit : s.attempts.limit = table.retry.maxAttempts
  editing : ∀ seen edit, s.stage = .editing seen edit →
    edit.membership = s.membership ∧ edit.Sound db table documents seen

/-- The membership that is made right; once its bucket is changed, only if this will be noticed. -/
def Repairs (db : Database) (s : Settling) (m : Membership) : Prop :=
  s.membership = m ∧ ∀ seen, s.stage = .after seen → m.Watched db seen

/-- The membership, if this reply makes the settling fail. -/
def GivesUp (reply : Reply) (s : Settling) (m : Membership) : Prop :=
  s.membership = m ∧ ∃ e, Task.resume s reply = .finished (.error e)

variable {s : Settling}

theorem Sound.mono (h : s.Sound db table documents) (later : db.Extends table after) :
    s.Sound after table documents where
  registered := later.registered _ h.registered
  listed := h.listed
  limit := h.limit
  editing seen edit hs := (h.editing seen edit hs).imp_right fun he => he.mono later

theorem Repairs.mono (h : s.Repairs db m) (later : db.Extends table after)
    (filed : m.Filed after → m.Filed db) : s.Repairs after m :=
  ⟨h.1, fun seen hs => (h.2 seen hs).mono later filed⟩

/-- A settling that starts over has its membership before it, unless there is a limit. -/
theorem sound_again (registered : db.Registered table s.membership.index)
    (listed : s.membership.document ∈ documents)
    (limit : s.attempts.limit = table.retry.maxAttempts) :
    s.again.Satisfies (fun t => t.Sound db table documents ∧ t.Repairs db s.membership)
      fun result => (∃ e, result = .error e) ∧ table.retry.maxAttempts ≠ none := by
  unfold again
  rcases s.attempts.begin_cases with begun | ⟨e, ended, limited⟩
  · rw [begun]
    exact ⟨⟨registered, listed, limit, by simp⟩, rfl, by simp⟩
  · rw [ended]
    exact ⟨⟨e, rfl⟩, limit ▸ limited⟩

theorem sound_start (tries : table.retry.maxAttempts ≠ some 0)
    (tended : db.Tended table documents) (registered : db.Registered table m.index)
    (listed : m.document ∈ documents) :
    (start m).Waits fun t => t.Sound db table documents ∧ t.Repairs db m := by
  have same := registered.retry tended.arranged
  unfold start again
  rw [RetryPolicy.begin_attempts (same ▸ tries)]
  exact ⟨⟨registered, listed, congrArg RetryPolicy.maxAttempts same, by simp⟩, rfl, by simp⟩

/-- What a settling repaired is given up with it, when it fails without doing anything. -/
theorem mends_failed (tended : db.Tended table documents) {reply : Reply} {e : Error}
    (failed : Task.resume s reply = .finished (.error e)) (may : table.MayGiveUp fault)
    {P : Membership → Prop} :
    db.Mends table documents kind (s.Repairs db) db fun m =>
      P m ∨ s.GivesUp reply m ∧ table.MayGiveUp fault :=
  tended.mends_self fun _ _ hm => Or.inl (Or.inr ⟨⟨hm.1, e, failed⟩, may⟩)

/-- The bucket is changed: what others have written since the document was read will be noticed. -/
theorem mends_editing (listable : Bucket.Listable documents) (tended : db.Tended table documents)
    {attempts : Attempts} {seen : Option Counter} {edit : BucketEdit}
    (h : Sound db table documents ⟨m, attempts, .editing seen edit⟩)
    (room : fault = none → db.HasRoom (Task.call edit)) :
    let s : Settling := ⟨m, attempts, .editing seen edit⟩
    let performed := db.perform (Task.call edit) fault
    let progress := Task.resume s performed.1
    progress.Satisfies (fun t => t.Sound performed.2 table documents) (fun _ => True) ∧
      db.Mends table documents kind (s.Repairs db) performed.2 fun m =>
        progress.Waits (fun t => t.Repairs performed.2 m) ∨
          s.GivesUp performed.1 m ∧ table.MayGiveUp fault := by
  intro s performed progress
  obtain ⟨same, he⟩ := h.editing seen edit rfl
  obtain ⟨kept, later, stepped⟩ := BucketEdit.step listable tended he room
  have gone : progress = s.edited seen (Task.resume edit performed.1) := rfl
  cases hr : Task.resume edit performed.1 with
  | waiting e =>
      rw [show Task.resume edit (db.perform (Task.call edit) fault).1 = .waiting e from hr]
        at stepped
      obtain ⟨unchanged, he, hm, -⟩ := stepped
      rw [gone, hr, show performed.2 = db from unchanged]
      refine ⟨⟨h.registered, h.listed, h.limit, ?_⟩, tended.mends_self ?_⟩
      · rintro _ _ ⟨⟩
        exact ⟨hm.trans same, he⟩
      · rintro n - ⟨rfl, -⟩
        exact Or.inl (Or.inl ⟨rfl, by simp [s]⟩)
  | finished result =>
      rw [show Task.resume edit (db.perform (Task.call edit) fault).1 = .finished result from hr]
        at stepped
      rcases stepped with ⟨rfl, files⟩ | ⟨⟨e, rfl⟩, unchanged, may⟩
      · rw [gone, hr]
        refine ⟨⟨later.registered _ h.registered, h.listed, h.limit, by simp⟩,
          files.mends tended kept later ?_ ?_⟩
        · -- the change was right when the document was read; if not any more, this will be seen
          rcases (he.mono later).justified.exact_or_watched files.own with exact | watched
          · exact Or.inr (exact.agrees kind)
          · refine Or.inl (Or.inl ⟨same.symm, ?_⟩)
            rintro _ ⟨⟩
            exact watched
        · rintro n ne ⟨rfl, -⟩
          exact absurd same.symm ne
      · have failed : progress = .finished (.error e) := gone.trans (congrArg (s.edited seen) hr)
        rw [failed, show performed.2 = db from unchanged]
        exact ⟨trivial, mends_failed tended failed may⟩

/-- The document is looked at once more: as long as nobody has written it, its membership agrees,
and otherwise the settling begins again. -/
theorem mends_after (tended : db.Tended table documents) {attempts : Attempts}
    {seen : Option Counter} (h : Sound db table documents ⟨m, attempts, .after seen⟩) :
    let s : Settling := ⟨m, attempts, .after seen⟩
    let performed := db.perform (Task.call s) fault
    let progress := Task.resume s performed.1
    progress.Satisfies (fun t => t.Sound performed.2 table documents) (fun _ => True) ∧
      db.Mends table documents kind (s.Repairs db) performed.2 fun m =>
        progress.Waits (fun t => t.Repairs performed.2 m) ∨
          s.GivesUp performed.1 m ∧ table.MayGiveUp fault := by
  intro s performed progress
  cases fault with
  | some e => exact ⟨trivial, mends_failed tended rfl (table.mayGiveUp_some e)⟩
  | none =>
      by_cases found : ((db.backend.store m.index.documents).get?
        (Utf8.encode m.document)).map Versioned.counter = seen
      · have ended : progress = .finished (.ok ()) := if_pos found
        rw [ended]
        refine ⟨trivial, tended.mends_self ?_⟩
        rintro n - ⟨rfl, watched⟩
        exact Or.inr (((watched seen rfl).exact found).agrees kind)
      · have gone : progress = again s := if_neg found
        have again := @sound_again db table documents s h.registered h.listed h.limit
        cases hp : Settling.again s with
        | waiting t =>
            rw [hp] at again
            rw [gone, hp]
            refine ⟨again.1, tended.mends_self ?_⟩
            rintro n - ⟨rfl, -⟩
            exact Or.inl (Or.inl again.2)
        | finished result =>
            rw [hp] at again
            obtain ⟨⟨e, rfl⟩, limited⟩ := again
            have failed := gone.trans hp
            rw [failed]
            exact ⟨trivial, mends_failed tended failed (Or.inr limited)⟩

/-- **Every call of a settling mends, unless it makes it fail.** -/
theorem mends (listable : Bucket.Listable documents) (tries : table.retry.maxAttempts ≠ some 0)
    (tended : db.Tended table documents) (h : s.Sound db table documents)
    (room : fault = none → db.HasRoom (Task.call s)) :
    let performed := db.perform (Task.call s) fault
    let progress := Task.resume s performed.1
    progress.Satisfies (fun t => t.Sound performed.2 table documents) (fun _ => True) ∧
      db.Mends table documents kind (s.Repairs db) performed.2 fun m =>
        progress.Waits (fun t => t.Repairs performed.2 m) ∨
          s.GivesUp performed.1 m ∧ table.MayGiveUp fault := by
  obtain ⟨m, attempts, stage⟩ := s
  cases stage with
  | editing seen edit => exact mends_editing listable tended h room
  | before =>
      intro performed progress
      cases fault with
      | some e => exact ⟨trivial, mends_failed tended rfl (table.mayGiveUp_some e)⟩
      | none =>
          have started := BucketEdit.sound_start tries tended h.registered h.listed
            (Membership.justified_of_get? db m)
          obtain ⟨edit, hs, he, same, -⟩ := Progress.exists_of_waits started
          have begun : progress = .waiting ⟨m, attempts, .editing _ edit⟩ :=
            congrArg (edited ⟨m, attempts, .before⟩ _) hs
          rw [begun]
          refine ⟨⟨h.registered, h.listed, h.limit, ?_⟩, tended.mends_self ?_⟩
          · rintro _ _ ⟨⟩
            exact ⟨same, he⟩
          · rintro n - ⟨rfl, -⟩
            exact Or.inl (Or.inl ⟨rfl, by simp⟩)
  | after seen => exact mends_after tended h

end Settling

/-! ### Several settlings -/

namespace SettleQueue

/-- Settlings of memberships of registered indexes. -/
structure Sound (db : Database) (table : Table) (documents : Set String) (queue : SettleQueue) :
    Prop where
  current : queue.current.Sound db table documents
  rest : ∀ m ∈ queue.rest, db.Registered table m.index ∧ m.document ∈ documents

/-- The memberships that are made right, one after another. -/
def Repairs (db : Database) (queue : SettleQueue) (m : Membership) : Prop :=
  queue.current.Repairs db m ∨ m ∈ queue.rest

/-- The membership whose settling this reply makes fail. -/
def GivesUp (reply : Reply) (queue : SettleQueue) (m : Membership) : Prop :=
  queue.current.GivesUp reply m

variable {queue : SettleQueue}

theorem Sound.mono (h : queue.Sound db table documents) (later : db.Extends table after) :
    queue.Sound after table documents where
  current := h.current.mono later
  rest m hm := (h.rest m hm).imp_left (later.registered _)

theorem Repairs.mono (h : queue.Repairs db m) (later : db.Extends table after)
    (filed : m.Filed after → m.Filed db) : queue.Repairs after m :=
  h.imp_left fun hc => hc.mono later filed

/-- A queue that begins has all its memberships before it. -/
theorem sound_start (tries : table.retry.maxAttempts ≠ some 0)
    (tended : db.Tended table documents) {memberships : List Membership}
    (h : ∀ m ∈ memberships, db.Registered table m.index ∧ m.document ∈ documents) :
    (start memberships).Satisfies
      (fun q => q.Sound db table documents ∧ ∀ m ∈ memberships, q.Repairs db m)
      fun _ => memberships = [] := by
  cases memberships with
  | nil => rfl
  | cons m rest =>
      obtain ⟨registered, listed⟩ := h m List.mem_cons_self
      obtain ⟨s, hs, sound, repairs⟩ := Progress.exists_of_waits
        (Settling.sound_start tries tended registered listed)
      unfold start
      rw [hs]
      refine ⟨⟨sound, fun n hn => h n (List.mem_cons_of_mem m hn)⟩, fun n hn => ?_⟩
      rcases List.mem_cons.1 hn with rfl | hn
      · exact Or.inl repairs
      · exact Or.inr hn

/-- **Every call of a queue mends all memberships but the one that it makes it give up.** -/
theorem mends (listable : Bucket.Listable documents) (tries : table.retry.maxAttempts ≠ some 0)
    (tended : db.Tended table documents) (h : queue.Sound db table documents)
    (room : fault = none → db.HasRoom (Task.call queue)) :
    let performed := db.perform (Task.call queue) fault
    let progress := Task.resume queue performed.1
    progress.Satisfies (fun q => q.Sound performed.2 table documents) (fun _ => True) ∧
      db.Mends table documents kind (queue.Repairs db) performed.2 fun m =>
        progress.Waits (fun q => q.Repairs performed.2 m) ∨
          queue.GivesUp performed.1 m ∧ table.MayGiveUp fault := by
  intro performed progress
  obtain ⟨sound, mends⟩ := @Settling.mends db table documents kind fault queue.current listable
    tries tended h.current room
  have rest : ∀ m ∈ queue.rest, performed.2.Registered table m.index ∧ m.document ∈ documents :=
    fun m hm => (h.rest m hm).imp_left (mends.later.registered _)
  have gone : progress = _ := resume_eq_andThen queue performed.1
  rw [gone]
  have both := mends.or fun m => m ∈ queue.rest
  cases hr : Task.resume queue.current performed.1 with
  | waiting current =>
      rw [show Task.resume queue.current (db.perform (Task.call queue.current) fault).1
        = .waiting current from hr] at sound both
      refine ⟨⟨sound, rest⟩, both.imp (fun _ hm => hm) fun m hm => ?_⟩
      exact hm.elim (fun h => h.imp_left Or.inl) fun h => Or.inl (Or.inr h)
  | finished result =>
      rw [show Task.resume queue.current (db.perform (Task.call queue.current) fault).1
        = .finished result from hr] at both
      have started := sound_start tries mends.tended rest
      refine ⟨started.imp (fun _ hq => hq.1) fun _ _ => trivial, both.imp (fun _ hm => hm) ?_⟩
      rintro m ((no | given) | hm)
      · exact no.elim
      · exact Or.inr given
      · refine Or.inl (started.imp (fun _ hq => hq.2 m hm) fun _ none => ?_)
        rw [none] at hm
        cases hm

end SettleQueue

/-! ### Bringing indexes in line -/

namespace IndexSync

/-- The bytes of the document were these at the counter of the change, or there is neither. -/
def Stored (db : Database) (table : Table) (document : String) (written : Option Counter)
    (new : Bytes) : Prop :=
  ∃ stored : Option (Versioned Bytes), written = stored.map Versioned.counter ∧
    (∀ v, stored = some v →
      (db.backend.store table.documents).Recalls (Utf8.encode document) v) ∧
    new = stored.elim [] Versioned.value

/-- The memberships that are touched are those of the document in registered indexes, and the
changes that are made and to be made are justified by what the document was. -/
def Sound (db : Database) (table : Table) (documents : Set String) (sync : IndexSync) : Prop :=
  sync.table = table ∧ sync.document ∈ documents ∧
    match sync.stage with
    | .reading _ new => Stored db table sync.document sync.written new
    | .editing edit rest touched =>
        edit.Sound db table documents sync.written ∧ edit.membership ∈ touched ∧
          (∀ c ∈ rest, c.1 ∈ touched ∧ c.1.Justified db sync.written c.2) ∧
          ∀ m ∈ touched, db.Registered table m.index ∧ m.document = sync.document
    | .rechecking touched => ∀ m ∈ touched, db.Registered table m.index ∧ m.document = sync.document
    | .settling queue => queue.Sound db table documents

/-- The memberships that the change of the document ends or begins; once a bucket has been changed,
only if a later change of the document will be noticed. -/
def Repairs (db : Database) (sync : IndexSync) (m : Membership) : Prop :=
  match sync.stage with
  | .reading old new =>
      m.document = sync.document ∧
        ¬ (m.index.path.Yields old m.indexKey ↔ m.index.path.Yields new m.indexKey)
  | .editing edit rest touched =>
      m = edit.membership ∨ m ∈ rest.map Prod.fst ∨ m ∈ touched ∧ m.Watched db sync.written
  | .rechecking touched => m ∈ touched ∧ m.Watched db sync.written
  | .settling queue => queue.Repairs db m

/-- The membership whose change this reply makes fail, if the change is of this kind; all those that
are touched, if the reply makes it impossible to look again. -/
def GivesUp (kind : Bucket.Change) (reply : Reply) (sync : IndexSync) (m : Membership) : Prop :=
  match sync.stage with
  | .reading _ _ => False
  | .editing edit _ _ =>
      edit.membership = m ∧ edit.change = kind ∧
        ∃ e, Task.resume edit reply = .finished (.error e)
  | .rechecking touched => m ∈ touched ∧ ∃ e, reply = .document (.error e)
  | .settling queue => queue.GivesUp reply m

variable {sync : IndexSync}

theorem Sound.mono (h : sync.Sound db table documents) (later : db.Extends table after) :
    sync.Sound after table documents := by
  obtain ⟨ofTable, listed, h⟩ := h
  refine ⟨ofTable, listed, ?_⟩
  obtain ⟨_, document, written, stage⟩ := sync
  cases stage with
  | reading old new =>
      obtain ⟨stored, hw, hr, hn⟩ := h
      exact ⟨stored, hw, fun v hv => later.recalls _ _ _ (hr v hv), hn⟩
  | editing edit rest touched =>
      obtain ⟨he, mem, hr, ht⟩ := h
      exact ⟨he.mono later, mem, fun c hc => (hr c hc).imp_right fun j => j.mono later,
        fun m hm => (ht m hm).imp_left (later.registered _)⟩
  | rechecking touched => exact fun m hm => (h m hm).imp_left (later.registered _)
  | settling queue => exact SettleQueue.Sound.mono h later

theorem Repairs.mono (h : sync.Repairs db m) (later : db.Extends table after)
    (filed : m.Filed after → m.Filed db) : sync.Repairs after m := by
  obtain ⟨_, document, written, stage⟩ := sync
  have watched : m.Watched db written → m.Watched after written := fun hw => hw.mono later filed
  cases stage with
  | reading old new => exact h
  | editing edit rest touched => exact h.imp_right fun h => h.imp_right (And.imp_right watched)
  | rechecking touched => exact And.imp_right watched h
  | settling queue => exact SettleQueue.Repairs.mono h later filed

/-- What an operation repairs, it concerns. -/
theorem Repairs.of_concerns {P : Membership → Prop} {E : BucketEdit → Prop}
    (h : sync.Repairs db m) (concerns : sync.Concerns P E)
    (own : m.document = sync.document → P m) : P m := by
  obtain ⟨_, document, written, stage⟩ := sync
  cases stage with
  | reading old new => exact own h.1
  | editing edit rest touched =>
      obtain ⟨hm, -, hr, ht⟩ := concerns
      rcases h with rfl | h | ⟨h, -⟩
      · exact hm
      · obtain ⟨c, hc, rfl⟩ := List.mem_map.1 h
        exact hr c hc
      · exact ht m h
  | rechecking touched => exact concerns m h.1
  | settling queue =>
      rcases h with ⟨rfl, -⟩ | h
      · exact concerns.1.1
      · exact concerns.2 m h

/-- What the document was at the counter of its change justifies the changes of its buckets. -/
theorem Stored.justified {document : String} {written : Option Counter} {new : Bytes}
    (h : Stored db table document written new) (ofTable : m.index.documents = table.documents)
    (ofDocument : m.document = document) {change : Bucket.Change}
    (hc : change = .add ↔ m.index.path.Yields new m.indexKey) : m.Justified db written change := by
  obtain ⟨stored, hw, hr, rfl⟩ := h
  refine ⟨stored, hw, ?_, ?_⟩
  · rw [ofTable, ofDocument]
    exact hr
  · have wanted : m.wanted stored = true ↔ change = .add := by
      rw [hc, Membership.wanted_iff_elim]
    cases change with
    | add => rw [if_pos (wanted.2 rfl)]
    | remove => rw [if_neg fun hw => nomatch wanted.1 hw]

/-- The operation goes on to the next bucket, or to the document when there is none left. -/
theorem sound_edit (tries : table.retry.maxAttempts ≠ some 0) (tended : db.Tended table documents)
    (ofTable : sync.table = table) (listed : sync.document ∈ documents)
    {touched : List Membership}
    (ht : ∀ m ∈ touched, db.Registered table m.index ∧ m.document = sync.document)
    {changes : List (Membership × Bucket.Change)}
    (hc : ∀ c ∈ changes, c.1 ∈ touched ∧ c.1.Justified db sync.written c.2) :
    (sync.edit touched changes).Sound db table documents ∧
      ∀ m, m ∈ changes.map Prod.fst ∨ m ∈ touched ∧ m.Watched db sync.written →
        (sync.edit touched changes).Repairs db m := by
  cases changes with
  | nil =>
      refine ⟨⟨ofTable, listed, ht⟩, fun m hm => ?_⟩
      rcases hm with hm | hm
      · cases hm
      · exact hm
  | cons c rest =>
      obtain ⟨m, change⟩ := c
      obtain ⟨mem, justified⟩ := hc (m, change) List.mem_cons_self
      obtain ⟨registered, document⟩ := ht m mem
      obtain ⟨edit, hs, he, rfl, -⟩ := Progress.exists_of_waits
        (BucketEdit.sound_start tries tended registered (document ▸ listed) justified)
      unfold IndexSync.edit
      rw [hs]
      refine ⟨⟨ofTable, listed, he, mem, fun c h => hc c (List.mem_cons_of_mem _ h), ht⟩, ?_⟩
      intro n hn
      rcases hn with hn | hn
      · rcases List.mem_cons.1 hn with same | hn
        · exact Or.inl same
        · exact Or.inr (Or.inl hn)
      · exact Or.inr (Or.inr hn)

/-- The changes of buckets that a change of the document demands are justified. -/
theorem Stored.justified_of_mem_changes {document : String} {written : Option Counter}
    {old new : Bytes} (h : Stored db table document written new) (arranged : db.Arranged table)
    {c : Membership × Bucket.Change}
    (hc : c ∈ changes ((db.indexesOf table.id).entries.map (·.2)) document old new) :
    (db.Registered table c.1.index ∧ c.1.document = document) ∧
      c.1.Justified db written c.2 := by
  obtain ⟨m, change⟩ := c
  obtain ⟨hi, hd, hk⟩ := (mem_changes_iff fun i hi j hj => Database.eq_of_name arranged hi hj).1 hc
  have registered := (Database.mem_indexes arranged).1 hi
  refine ⟨⟨registered, hd⟩, h.justified (registered.documents arranged) hd ?_⟩
  cases change with
  | add => exact iff_of_true rfl hk.1
  | remove => exact iff_of_false (fun no => nomatch no) hk.2

/-- The operation goes on so, from one state to another: it stays sound, and the step mends all
memberships but those that are given up. -/
def Steps (db : Database) (table : Table) (documents : Set String) (kind : Bucket.Change)
    (sync : IndexSync) (after : Database) (progress : Progress IndexSync Unit)
    (given : Membership → Prop) : Prop :=
  progress.Satisfies (fun t => t.Sound after table documents) (fun _ => True) ∧
    db.Mends table documents kind (sync.Repairs db) after fun m =>
      progress.Waits (fun t => t.Repairs after m) ∨ given m

/-- What a change of the document ends or begins is among the changes of buckets that it demands. -/
theorem mem_changes_of_repairs (arranged : db.Arranged table)
    (hm : db.Registered table m.index) {document : String} {written : Option Counter}
    {old new : Bytes} (h : Repairs db ⟨table, document, written, .reading old new⟩ m) :
    m ∈ (changes ((db.indexesOf table.id).entries.map (·.2)) document old new).map (·.1) := by
  obtain ⟨hd, differ⟩ := h
  have distinct := fun i hi j hj => @Database.eq_of_name _ _ arranged i j hi hj
  have hi := (Database.mem_indexes arranged).2 hm
  -- what differs is begun or ended, and both are demanded
  by_cases hn : m.index.path.Yields new m.indexKey
  · have ho : ¬ m.index.path.Yields old m.indexKey := fun ho => differ (iff_of_true ho hn)
    exact List.mem_map.2 ⟨(m, .add), (mem_changes_iff distinct).2 ⟨hi, hd, hn, ho⟩, rfl⟩
  · have ho : m.index.path.Yields old m.indexKey :=
      by_contra fun ho => differ (iff_of_false ho hn)
    exact List.mem_map.2 ⟨(m, .remove), (mem_changes_iff distinct).2 ⟨hi, hd, ho, hn⟩, rfl⟩

/-- The indexes are looked up. -/
theorem steps_reading (tries : table.retry.maxAttempts ≠ some 0)
    (tended : db.Tended table documents) {document : String} (listed : document ∈ documents)
    {written : Option Counter} {old new : Bytes} (h : Stored db table document written new)
    {given : Membership → Prop} :
    Steps db table documents kind ⟨table, document, written, .reading old new⟩ db
      (Task.resume (⟨table, document, written, .reading old new⟩ : IndexSync)
        (.indexes ((db.indexesOf table.id).entries.map (·.2)))) given := by
  have justified : ∀ c ∈ changes ((db.indexesOf table.id).entries.map (·.2)) document old new,
      (db.Registered table c.1.index ∧ c.1.document = document) ∧ c.1.Justified db written c.2 :=
    fun c hc => h.justified_of_mem_changes tended.arranged hc
  have listing : ∀ m : Membership, db.Registered table m.index →
      Repairs db ⟨table, document, written, .reading old new⟩ m →
        m ∈ (changes ((db.indexesOf table.id).entries.map (·.2)) document old new).map (·.1) :=
    fun m hm hr => mem_changes_of_repairs tended.arranged hm hr
  cases hc : changes ((db.indexesOf table.id).entries.map (·.2)) document old new with
  | nil =>
      rw [hc] at listing
      rw [resume_reading_of_nil rfl hc]
      refine ⟨trivial, tended.mends_self fun m hm hr => ?_⟩
      cases listing m hm hr
  | cons c rest =>
      rw [hc] at justified listing
      rw [resume_reading_of_cons rfl hc]
      have touched : ∀ m ∈ (c :: rest).map (·.1),
          db.Registered table m.index ∧ m.document = document := by
        intro m hm
        obtain ⟨d, hd, rfl⟩ := List.mem_map.1 hm
        exact (justified d hd).1
      obtain ⟨sound, repairs⟩ := @sound_edit db table documents
        ⟨table, document, written, .reading old new⟩ tries tended rfl listed _ touched _
        fun d hd => ⟨List.mem_map_of_mem hd, (justified d hd).2⟩
      exact ⟨sound, tended.mends_self fun m hm hr =>
        Or.inl (Or.inl (repairs m (Or.inl (listing m hm hr))))⟩

/-- A change that has failed is given up, and the operation goes on with the next one. -/
theorem steps_failed (tries : table.retry.maxAttempts ≠ some 0) (tended : db.Tended table documents)
    {document : String} {written : Option Counter} {edit : BucketEdit}
    {rest : List (Membership × Bucket.Change)} {touched : List Membership}
    (h : Sound db table documents ⟨table, document, written, .editing edit rest touched⟩)
    {reply : Reply} {e : Error} (failed : Task.resume edit reply = .finished (.error e))
    (may : table.MayGiveUp fault) :
    let sync : IndexSync := ⟨table, document, written, .editing edit rest touched⟩
    Steps db table documents kind sync db (.waiting (sync.edit touched rest))
      fun m => sync.GivesUp kind reply m ∧ table.MayGiveUp fault := by
  intro sync
  obtain ⟨-, listed, he, mem, hr, ht⟩ := h
  obtain ⟨sound, repairs⟩ :=
    @sound_edit db table documents sync tries tended rfl listed touched ht rest hr
  refine ⟨sound, tended.mends_self ?_⟩
  rintro m - (rfl | hm | hm)
  · by_cases same : kind = edit.change
    · exact Or.inl (Or.inr ⟨⟨rfl, same.symm, e, failed⟩, may⟩)
    · -- what is due is the change that has failed, or it will be noticed that it is not
      rcases he.justified.agrees_or_watched same with agrees | watched
      · exact Or.inr agrees
      · exact Or.inl (Or.inl (repairs _ (Or.inr ⟨mem, watched⟩)))
  · exact Or.inl (Or.inl (repairs m (Or.inl hm)))
  · exact Or.inl (Or.inl (repairs m (Or.inr hm)))

/-- A bucket is read or written. -/
theorem steps_editing (listable : Bucket.Listable documents)
    (tries : table.retry.maxAttempts ≠ some 0) (tended : db.Tended table documents)
    {document : String} {written : Option Counter} {edit : BucketEdit}
    {rest : List (Membership × Bucket.Change)} {touched : List Membership}
    (h : Sound db table documents ⟨table, document, written, .editing edit rest touched⟩)
    (room : fault = none → db.HasRoom (Task.call edit)) :
    let sync : IndexSync := ⟨table, document, written, .editing edit rest touched⟩
    let performed := db.perform (Task.call edit) fault
    Steps db table documents kind sync performed.2 (Task.resume sync performed.1)
      fun m => sync.GivesUp kind performed.1 m ∧ table.MayGiveUp fault := by
  intro sync performed
  have sound := h
  obtain ⟨-, listed, he, mem, hr, ht⟩ := h
  obtain ⟨kept, later, stepped⟩ := BucketEdit.step listable tended he room
  rw [show Task.resume sync performed.1 = _ from resume_editing sync edit rest touched performed.1]
  cases hp : Task.resume edit performed.1 with
  | waiting e =>
      rw [show Task.resume edit (db.perform (Task.call edit) fault).1 = .waiting e from hp]
        at stepped
      obtain ⟨unchanged, sound, same, -⟩ := stepped
      rw [show performed.2 = db from unchanged]
      refine ⟨⟨rfl, listed, sound, same ▸ mem, hr, ht⟩, tended.mends_self fun m _ hm => ?_⟩
      exact Or.inl (Or.inl (hm.imp_left fun h => h.trans same.symm))
  | finished result =>
      rw [show Task.resume edit (db.perform (Task.call edit) fault).1 = .finished result from hp]
        at stepped
      rcases stepped with ⟨-, files⟩ | ⟨⟨e, rfl⟩, unchanged, may⟩
      · obtain ⟨sound, repairs⟩ := @sound_edit performed.2 table documents sync tries kept rfl
          listed _ (fun m hm => (ht m hm).imp_left (later.registered _)) _ fun c hc =>
            (hr c hc).imp_right fun j => j.mono later
        refine ⟨sound, files.mends tended kept later ?_ ?_⟩
        · -- the membership of this bucket is exact, or it will be noticed that it is not
          rcases (he.mono later).justified.exact_or_watched files.own with exact | watched
          · exact Or.inr (exact.agrees kind)
          · exact Or.inl (Or.inl (repairs _ (Or.inr ⟨mem, watched⟩)))
        · rintro m ne (same | hm | ⟨hm, watched⟩)
          · exact absurd same ne
          · exact Or.inl (Or.inl (repairs m (Or.inl hm)))
          · refine Or.inl (Or.inl (repairs m (Or.inr ⟨hm, watched.mono later ?_⟩)))
            exact (files.others m (ht m hm).1 ne).1
      · rw [show performed.2 = db from unchanged]
        exact steps_failed tries tended sound hp may

/-- The document is read again. -/
theorem steps_rechecking (tries : table.retry.maxAttempts ≠ some 0)
    (tended : db.Tended table documents) {document : String} {written : Option Counter}
    {touched : List Membership}
    (h : Sound db table documents ⟨table, document, written, .rechecking touched⟩) :
    let sync : IndexSync := ⟨table, document, written, .rechecking touched⟩
    let performed := db.perform (Task.call sync) fault
    Steps db table documents kind sync performed.2 (Task.resume sync performed.1)
      fun m => sync.GivesUp kind performed.1 m ∧ table.MayGiveUp fault := by
  intro sync performed
  obtain ⟨-, listed, h⟩ := h
  cases fault with
  | some e =>
      refine ⟨trivial, tended.mends_self ?_⟩
      rintro m - ⟨hm, -⟩
      exact Or.inl (Or.inr ⟨⟨hm, e, rfl⟩, table.mayGiveUp_some e⟩)
  | none =>
      -- at the counter of its own change, nobody has written the document since
      by_cases found : ((db.backend.store table.documents).get? (Utf8.encode document)).map
        Versioned.counter = written
      · rw [show Task.resume sync performed.1 = .finished () from if_pos found]
        refine ⟨trivial, tended.mends_self ?_⟩
        rintro m - ⟨hm, watched⟩
        obtain ⟨registered, hd⟩ := h m hm
        refine Or.inr ((watched.exact ?_).agrees kind)
        rw [registered.documents tended.arranged, hd]
        exact found
      · have inside : ∀ m ∈ touched, db.Registered table m.index ∧ m.document ∈ documents := by
          intro m hm
          obtain ⟨registered, hd⟩ := h m hm
          exact ⟨registered, hd ▸ listed⟩
        have started := SettleQueue.sound_start tries tended inside
        rw [show Task.resume sync performed.1 = settled sync (SettleQueue.start touched) from
          if_neg found]
        cases hs : SettleQueue.start touched with
        | waiting queue =>
            rw [hs] at started
            exact ⟨⟨rfl, listed, started.1⟩, tended.mends_self fun m _ hm =>
              Or.inl (Or.inl (started.2 m hm.1))⟩
        | finished result =>
            rw [hs] at started
            refine ⟨trivial, tended.mends_self ?_⟩
            rintro m - ⟨hm, -⟩
            rw [show touched = [] from started] at hm
            cases hm

/-- **Every call of the operation mends all memberships but those that it makes it give up.** -/
theorem mends (listable : Bucket.Listable documents) (tries : table.retry.maxAttempts ≠ some 0)
    (tended : db.Tended table documents) (h : sync.Sound db table documents)
    (room : fault = none → db.HasRoom (Task.call sync)) :
    let performed := db.perform (Task.call sync) fault
    let progress := Task.resume sync performed.1
    progress.Satisfies (fun t => t.Sound performed.2 table documents) (fun _ => True) ∧
      db.Mends table documents kind (sync.Repairs db) performed.2 fun m =>
        progress.Waits (fun t => t.Repairs performed.2 m) ∨
          sync.GivesUp kind performed.1 m ∧ table.MayGiveUp fault := by
  obtain ⟨rfl, listed, hs⟩ := h
  obtain ⟨table, document, written, stage⟩ := sync
  cases stage with
  | reading old new =>
      cases fault <;> exact steps_reading tries tended listed hs
  | editing edit rest touched =>
      exact steps_editing listable tries tended ⟨rfl, listed, hs⟩ room
  | rechecking touched => exact steps_rechecking tries tended ⟨rfl, listed, hs⟩
  | settling queue =>
      obtain ⟨sound, mends⟩ := SettleQueue.mends listable tries tended hs room
      exact Database.mends_map _ _ sound mends (fun _ h => ⟨rfl, listed, h⟩) (fun _ _ => trivial)
        fun _ _ h => h

end IndexSync

end DocStore
