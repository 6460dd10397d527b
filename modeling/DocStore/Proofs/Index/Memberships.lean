/-
The memberships that the upkeep of indexes is about.

Whatever an operation does to indexes, it does to the buckets of some memberships, one after
another: those of the indexes that it found registered, and of its document.  A condition on them
is kept as long as the operation runs, and so is one on the change of a bucket under way.

* `BucketEdit.membership` — the membership that a change of a bucket is about;
* `Settling.Concerns`, `SettleQueue.Concerns`, `IndexSync.Concerns`, `IndexCreation.Concerns` —
  conditions on the memberships of an operation and on the change under way;
* `SettleQueue.concerns_resume`, `IndexSync.concerns_resume`, `IndexCreation.concerns_resume` —
  **the conditions are kept**, if the registered indexes satisfy them.
-/

import DocStore.Index.Sync
import DocStore.Proofs.Database.Stores
import DocStore.Proofs.Run.System
import DocStore.Table.Indexing

set_option autoImplicit false

namespace DocStore

variable {P Q : Membership → Prop} {E F : BucketEdit → Prop}

namespace BucketEdit

/-! ### One bucket -/

/-- The membership that a change is about. -/
def membership (edit : BucketEdit) : Membership :=
  ⟨edit.index, edit.indexKey, edit.document⟩

/-- A new attempt is the same change of the same bucket, which is read again. -/
theorem satisfies_again (edit : BucketEdit) :
    edit.again.Satisfies
      (fun e => e.membership = edit.membership ∧ e.change = edit.change ∧ e.write = none)
      fun _ => True := by
  unfold again
  split
  · exact ⟨rfl, rfl, rfl⟩
  · trivial

theorem satisfies_start (index : Index) (indexKey : Bytes) (change : Bucket.Change)
    (document : String) :
    (start index indexKey change document).Satisfies
      (fun e => e.membership = ⟨index, indexKey, document⟩ ∧ e.change = change ∧ e.write = none)
      fun _ => True :=
  satisfies_again _

/-- A change stays with its bucket. -/
theorem membership_resume (edit : BucketEdit) (reply : Reply) :
    (Task.resume edit reply).Satisfies (fun e => e.membership = edit.membership)
      fun _ => True := by
  have again : edit.again.Satisfies (fun e => e.membership = edit.membership) fun _ => True :=
    edit.satisfies_again.imp (fun _ h => h.1) fun _ h => h
  simp only [Task.resume]
  split
  · trivial
  · split
    · trivial
    · trivial
    · rfl
  · unfold written
    split
    · exact again
    · trivial
  · unfold written
    split
    · exact again
    · trivial
  · rfl

/-- A change reads its bucket, or makes the write that it waits for. -/
theorem call_cases (edit : BucketEdit) :
    edit.write = none ∧ Task.call edit = .get edit.index.buckets edit.indexKey ∨
      ∃ write, edit.write = some write ∧
        Task.call edit = write.call edit.index.buckets edit.indexKey := by
  cases hw : edit.write with
  | none => exact Or.inl ⟨rfl, by simp only [Task.call, hw]⟩
  | some write => exact Or.inr ⟨write, rfl, by simp only [Task.call, hw]⟩

theorem call_isAccess (edit : BucketEdit) : (Task.call edit).IsAccess := by
  rcases edit.call_cases with ⟨-, hc⟩ | ⟨write, -, hc⟩
  · rw [hc]
    trivial
  · rw [hc]
    exact write.call_isAccess _ _

end BucketEdit

/-! ### Settling -/

/-- The membership of a settling, and its change of the bucket, satisfy these conditions. -/
def Settling.Concerns (P : Membership → Prop) (E : BucketEdit → Prop) (s : Settling) : Prop :=
  P s.membership ∧ ∀ seen edit, s.stage = .editing seen edit →
    edit.membership = s.membership ∧ E edit

/-- So do those of several. -/
def SettleQueue.Concerns (P : Membership → Prop) (E : BucketEdit → Prop) (queue : SettleQueue) :
    Prop :=
  queue.current.Concerns P E ∧ ∀ m ∈ queue.rest, P m

namespace Settling

theorem Concerns.imp {s : Settling} (h : s.Concerns P E) (hP : ∀ m, P m → Q m)
    (hE : ∀ e, P e.membership → E e → F e) : s.Concerns Q F := by
  refine ⟨hP _ h.1, fun seen edit hs => ?_⟩
  obtain ⟨same, he⟩ := h.2 seen edit hs
  exact ⟨same, hE edit (same ▸ h.1) he⟩

theorem concerns_again {s : Settling} (h : P s.membership) :
    s.again.Satisfies (Concerns P E) fun _ => True := by
  unfold again
  split
  · exact ⟨h, by simp⟩
  · trivial

theorem concerns_edited {s : Settling} (h : P s.membership) (seen : Option Counter)
    {progress : Progress BucketEdit (Except Error Unit)}
    (hp : progress.Satisfies (fun e => e.membership = s.membership ∧ E e) fun _ => True) :
    (s.edited seen progress).Satisfies (Concerns P E) fun _ => True := by
  match progress, hp with
  | .waiting edit, hp =>
      refine ⟨h, ?_⟩
      intro _ _ same
      cases same
      exact hp
  | .finished (.ok ()), _ => exact ⟨h, by simp⟩
  | .finished (.error e), _ => trivial

theorem concerns_resume {s : Settling} (h : s.Concerns P E) (reply : Reply)
    (fresh : ∀ e : BucketEdit, P e.membership → e.write = none → E e)
    (own : ∀ e : BucketEdit, Task.call e = Task.call s → P e.membership → E e →
      (Task.resume e reply).Satisfies E fun _ => True) :
    (Task.resume s reply).Satisfies (Concerns P E) fun _ => True := by
  -- a change that begins is about the membership, and has planned nothing yet
  have started : ∀ change, (BucketEdit.start s.membership.index s.membership.indexKey change
      s.membership.document).Satisfies (fun e => e.membership = s.membership ∧ E e)
        fun _ => True := by
    intro change
    refine (BucketEdit.satisfies_start _ _ _ _).imp ?_ fun _ h => h
    rintro e ⟨same, -, unread⟩
    exact ⟨same, fresh e (same ▸ h.1) unread⟩
  obtain ⟨m, attempts, stage⟩ := s
  cases stage with
  | before =>
      match reply with
      | .document (.error e) => trivial
      | .document (.ok stored) => exact concerns_edited h.1 _ (started _)
      | .counter _ | .done _ | .cursor _ | .indexes _ | .index _ | .table _ => exact h
  | editing seen edit =>
      obtain ⟨same, he⟩ := h.2 seen edit rfl
      have hm : P edit.membership := same ▸ h.1
      have stays := edit.membership_resume reply
      have keeps := own edit rfl hm he
      change (Settling.edited ⟨m, attempts, .editing seen edit⟩ seen
        (Task.resume edit reply)).Satisfies (Concerns P E) fun _ => True
      refine concerns_edited h.1 seen ?_
      cases hr : Task.resume edit reply with
      | waiting e =>
          rw [hr] at stays keeps
          exact ⟨stays.trans same, keeps⟩
      | finished result => trivial
  | after seen =>
      match reply with
      | .document (.error e) => trivial
      | .document (.ok stored) =>
          simp only [Task.resume]
          split
          · trivial
          · exact concerns_again h.1
      | .counter _ | .done _ | .cursor _ | .indexes _ | .index _ | .table _ => exact h

/-- A settling reads its document, or does what the change of its bucket does. -/
theorem call_of_concerns {G : Call → Prop} {s : Settling} (h : s.Concerns P E)
    (get : ∀ id key, G (.get id key))
    (edit : ∀ e : BucketEdit, P e.membership → E e → G (Task.call e)) : G (Task.call s) := by
  obtain ⟨m, attempts, stage⟩ := s
  cases stage with
  | before => exact get _ _
  | editing seen e =>
      obtain ⟨same, he⟩ := h.2 seen e rfl
      exact edit e (same ▸ h.1) he
  | after seen => exact get _ _

theorem call_isAccess (s : Settling) : (Task.call s).IsAccess := by
  obtain ⟨m, attempts, stage⟩ := s
  cases stage with
  | before => trivial
  | editing seen edit => exact edit.call_isAccess
  | after seen => trivial

end Settling

namespace SettleQueue

theorem Concerns.imp {queue : SettleQueue} (h : queue.Concerns P E) (hP : ∀ m, P m → Q m)
    (hE : ∀ e, P e.membership → E e → F e) : queue.Concerns Q F :=
  ⟨h.1.imp hP hE, fun m hm => hP m (h.2 m hm)⟩

theorem concerns_start {memberships : List Membership} (h : ∀ m ∈ memberships, P m) :
    (start memberships).Satisfies (Concerns P E) fun _ => True := by
  induction memberships with
  | nil => trivial
  | cons m rest ih =>
      have first : (Settling.start m).Satisfies (Settling.Concerns P E) fun _ => True :=
        Settling.concerns_again (h m List.mem_cons_self)
      have later : ∀ n ∈ rest, P n := fun n hn => h n (List.mem_cons_of_mem m hn)
      unfold start
      cases hs : Settling.start m with
      | waiting current =>
          rw [hs] at first
          exact ⟨first, later⟩
      -- a settling that has no attempt ends at once, and the next one begins
      | finished result => exact ih later

theorem concerns_resume {queue : SettleQueue} (h : queue.Concerns P E) (reply : Reply)
    (fresh : ∀ e : BucketEdit, P e.membership → e.write = none → E e)
    (own : ∀ e : BucketEdit, Task.call e = Task.call queue → P e.membership → E e →
      (Task.resume e reply).Satisfies E fun _ => True) :
    (Task.resume queue reply).Satisfies (Concerns P E) fun _ => True := by
  have current := Settling.concerns_resume h.1 reply fresh own
  simp only [Task.resume]
  split
  · rename_i s hs
    rw [show Task.resume queue.current reply = .waiting s from hs] at current
    exact ⟨current, h.2⟩
  · exact concerns_start h.2

end SettleQueue

/-! ### Documents that change -/

/-- The memberships that are touched, and the change of a bucket under way, satisfy these
conditions. -/
def IndexSync.Concerns (P : Membership → Prop) (E : BucketEdit → Prop) (sync : IndexSync) : Prop :=
  match sync.stage with
  | .reading _ _ => True
  | .editing edit rest touched =>
      P edit.membership ∧ E edit ∧ (∀ c ∈ rest, P c.1) ∧ ∀ m ∈ touched, P m
  | .rechecking touched => ∀ m ∈ touched, P m
  | .settling queue => queue.Concerns P E

namespace IndexSync

/-- A change of a document touches memberships of this document in the given indexes. -/
theorem of_mem_changes {indexes : List Index} {document : String} {old new : Bytes}
    {c : Membership × Bucket.Change} (h : c ∈ changes indexes document old new) :
    c.1.index ∈ indexes ∧ c.1.document = document := by
  simp only [changes, List.mem_append, List.mem_filterMap, Option.map_eq_some_iff] at h
  rcases h with ⟨b, -, i, hi, rfl⟩ | ⟨b, -, i, hi, rfl⟩ <;>
    exact ⟨List.mem_of_find?_eq_some hi, rfl⟩

theorem Concerns.imp {sync : IndexSync} (h : sync.Concerns P E) (hP : ∀ m, P m → Q m)
    (hE : ∀ e, P e.membership → E e → F e) : sync.Concerns Q F := by
  unfold Concerns at h ⊢
  split
  · trivial
  · rename_i edit rest touched hs
    simp only [hs] at h
    obtain ⟨hm, he, hr, ht⟩ := h
    exact ⟨hP _ hm, hE _ hm he, fun c hc => hP _ (hr c hc), fun m hm => hP m (ht m hm)⟩
  · rename_i touched hs
    simp only [hs] at h
    exact fun m hm => hP m (h m hm)
  · rename_i queue hs
    simp only [hs] at h
    exact h.imp hP hE

/-- What an operation keeps of its beginning. -/
def Continues (sync other : IndexSync) : Prop :=
  other.table = sync.table ∧ other.document = sync.document ∧ other.written = sync.written

theorem continues_edit (sync : IndexSync) (touched : List Membership)
    (changes : List (Membership × Bucket.Change)) :
    sync.Continues (sync.edit touched changes) := by
  induction changes with
  | nil => exact ⟨rfl, rfl, rfl⟩
  | cons c rest ih =>
      unfold edit
      split
      · exact ⟨rfl, rfl, rfl⟩
      · exact ih

theorem concerns_edit {sync : IndexSync} {touched : List Membership}
    {changes : List (Membership × Bucket.Change)} (ht : ∀ m ∈ touched, P m)
    (hc : ∀ c ∈ changes, P c.1)
    (fresh : ∀ e : BucketEdit, P e.membership → e.write = none → E e) :
    (sync.edit touched changes).Concerns P E := by
  induction changes with
  | nil => exact ht
  | cons c rest ih =>
      obtain ⟨m, change⟩ := c
      have hm : P m := hc _ List.mem_cons_self
      have started := BucketEdit.satisfies_start m.index m.indexKey change m.document
      unfold edit
      cases hs : BucketEdit.start m.index m.indexKey change m.document with
      | waiting e =>
          rw [hs] at started
          obtain ⟨same, -, unread⟩ := started
          have he : P e.membership := same ▸ hm
          exact ⟨he, fresh e he unread, fun c h => hc c (List.mem_cons_of_mem _ h), ht⟩
      | finished result => exact ih fun c h => hc c (List.mem_cons_of_mem _ h)

theorem concerns_settled {sync : IndexSync} {progress : Progress SettleQueue Unit}
    (h : progress.Satisfies (SettleQueue.Concerns P E) fun _ => True) :
    (sync.settled progress).Satisfies (fun s => s.Concerns P E ∧ sync.Continues s)
      fun _ => True := by
  cases progress with
  | waiting queue => exact ⟨h, rfl, rfl, rfl⟩
  | finished result => trivial

/-- **The conditions are kept**, if the registered indexes satisfy them. -/
theorem concerns_resume {sync : IndexSync} (h : sync.Concerns P E) (reply : Reply)
    (registered : ∀ old new indexes, sync.stage = .reading old new → reply = .indexes indexes →
      ∀ i ∈ indexes, ∀ k, P ⟨i, k, sync.document⟩)
    (fresh : ∀ e : BucketEdit, P e.membership → e.write = none → E e)
    (own : ∀ e : BucketEdit, Task.call e = Task.call sync → P e.membership → E e →
      (Task.resume e reply).Satisfies E fun _ => True) :
    (Task.resume sync reply).Satisfies (fun s => s.Concerns P E ∧ sync.Continues s)
      fun _ => True := by
  obtain ⟨table, document, written, stage⟩ := sync
  cases stage with
  | reading old new =>
      match reply with
      | .indexes indexes =>
          -- what the document demands is about it, in one of the registered indexes
          have touched : ∀ c ∈ changes indexes document old new, P c.1 := by
            intro c hc
            obtain ⟨hi, hd⟩ := of_mem_changes hc
            have hm := registered old new indexes rfl rfl c.1.index hi c.1.indexKey
            rwa [← hd] at hm
          simp only [Task.resume]
          split
          · trivial
          · refine ⟨concerns_edit ?_ touched fresh, continues_edit _ _ _⟩
            intro m hm
            obtain ⟨c, hc, rfl⟩ := List.mem_map.1 hm
            exact touched c hc
      | .document _ | .counter _ | .done _ | .cursor _ | .index _ | .table _ =>
          exact ⟨h, rfl, rfl, rfl⟩
  | editing edit rest touched =>
      obtain ⟨hm, he, hr, ht⟩ := h
      have stays := edit.membership_resume reply
      have keeps := own edit rfl hm he
      simp only [Task.resume]
      split
      · rename_i e hs
        rw [show Task.resume edit reply = .waiting e from hs] at stays keeps
        exact ⟨⟨(stays : e.membership = edit.membership) ▸ hm, keeps, hr, ht⟩, rfl, rfl, rfl⟩
      · exact ⟨concerns_edit ht hr fresh, continues_edit _ _ _⟩
  | rechecking touched =>
      match reply with
      | .document (.error e) => trivial
      | .document (.ok stored) =>
          simp only [Task.resume]
          split
          · trivial
          · exact concerns_settled (SettleQueue.concerns_start h)
      | .counter _ | .done _ | .cursor _ | .indexes _ | .index _ | .table _ =>
          exact ⟨h, rfl, rfl, rfl⟩
  | settling queue =>
      exact concerns_settled (SettleQueue.concerns_resume h reply fresh own)

/-- Bringing indexes in line reads, or does what the change of a bucket does. -/
theorem call_of_concerns {G : Call → Prop} {sync : IndexSync} (h : sync.Concerns P E)
    (get : ∀ id key, G (.get id key)) (read : ∀ table, G (.readIndexes table))
    (edit : ∀ e : BucketEdit, P e.membership → E e → G (Task.call e)) : G (Task.call sync) := by
  obtain ⟨table, document, written, stage⟩ := sync
  cases stage with
  | reading old new => exact read _
  | editing e rest touched => exact edit e h.1 h.2.1
  | rechecking touched => exact get _ _
  | settling queue => exact Settling.call_of_concerns h.1 get edit

theorem call_isAccess (sync : IndexSync) : (Task.call sync).IsAccess := by
  obtain ⟨table, document, written, stage⟩ := sync
  cases stage with
  | reading old new => trivial
  | editing edit rest touched => exact edit.call_isAccess
  | rechecking touched => trivial
  | settling queue => exact queue.current.call_isAccess

end IndexSync

/-! ### Indexes that are created -/

/-- The memberships that are filed, and the change of a bucket under way, satisfy these
conditions. -/
def IndexCreation.Concerns (P : Membership → Prop) (E : BucketEdit → Prop) (c : IndexCreation) :
    Prop :=
  ∀ index queue, c.stage = .filing index queue → queue.Concerns P E

namespace IndexCreation

theorem Concerns.imp {c : IndexCreation} (h : c.Concerns P E) (hP : ∀ m, P m → Q m)
    (hE : ∀ e, P e.membership → E e → F e) : c.Concerns Q F :=
  fun index queue hs => (h index queue hs).imp hP hE

theorem concerns_filed {table : Table} {index : Index} {progress : Progress SettleQueue Unit}
    (h : progress.Satisfies (SettleQueue.Concerns P E) fun _ => True) :
    (filed table index progress).Satisfies (fun c => c.Concerns P E) fun _ => True := by
  match progress, h with
  | .waiting queue, h =>
      intro _ _ same
      cases same
      exact h
  | .finished (), _ => exact fun _ _ same => nomatch same

/-- **The conditions are kept**, if the entries of the cursor satisfy them. -/
theorem concerns_resume {c : IndexCreation} (h : c.Concerns P E) (reply : Reply)
    (opened : ∀ index cursor, c.stage = .opening index → reply = .cursor (.ok cursor) →
      ∀ m ∈ memberships index
        (Range.onCursor c.table.documents cursor .min .max false).drain, P m)
    (fresh : ∀ e : BucketEdit, P e.membership → e.write = none → E e)
    (own : ∀ e : BucketEdit, Task.call e = Task.call c → P e.membership → E e →
      (Task.resume e reply).Satisfies E fun _ => True) :
    (Task.resume c reply).Satisfies (fun c => c.Concerns P E) fun _ => True := by
  obtain ⟨table, stage⟩ := c
  cases stage with
  | registering name path =>
      match reply with
      | .index (.ok index) => exact fun _ _ same => nomatch same
      | .index (.error e) => trivial
      | .document _ | .counter _ | .done _ | .cursor _ | .indexes _ | .table _ => exact h
  | opening index =>
      match reply with
      | .cursor (.ok cursor) =>
          exact concerns_filed (SettleQueue.concerns_start (opened index cursor rfl rfl))
      | .cursor (.error e) => trivial
      | .document _ | .counter _ | .done _ | .indexes _ | .index _ | .table _ => exact h
  | filing index queue =>
      exact concerns_filed (SettleQueue.concerns_resume (h index queue rfl) reply fresh own)
  | releasing index =>
      match reply with
      | .done _ => trivial
      | .document _ | .counter _ | .cursor _ | .indexes _ | .index _ | .table _ => exact h

end IndexCreation

end DocStore
