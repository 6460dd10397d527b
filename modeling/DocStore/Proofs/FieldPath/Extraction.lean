/-
What a path finds, by the places where it finds it.

A place in a document is told by the keys and the positions on the way down to it.  A path leads to
a place when it is this way with some positions left out: arrays that it meets in front of a key are
gone through item by item, and so is the array that it ends at, but only that one.  A position that
the path names itself is never left out, and there is nothing left out in front of it.

So the positions that were left out tell the place, and the order of the values that are found is
the lexicographic order of these positions.

* `Json.child?`, `Json.at?` — the tree one step down, and the one at an address;
* `FieldPath.Inserts`, `FieldPath.Appends`, `FieldPath.Leads` — the addresses that a path leads to,
  with the positions that it leaves out;
* `FieldPath.Leads.positions_eq` — an address tells the positions that were left out;
* `FieldPath.Finds` — a list of values is those at some addresses, in the order of the positions;
* `FieldPath.extract_places` — **a path finds the values at the addresses to which it leads, each
  address once, in the order of the positions that it leaves out.**
-/

import DocStore.FieldPath

set_option autoImplicit false

namespace DocStore

namespace Json

open FieldPath (Segment)

/-- The tree one step below a tree: a member of an object, or an item of an array. -/
def child? : Segment → Json → Option Json
  | .key name, .object members => member? name members
  | .index position, .array items => items[position]?
  | _, _ => none

/-- The tree at an address, if the address exists. -/
def at? : List Segment → Json → Option Json
  | [], tree => some tree
  | step :: address, tree => (child? step tree).bind (at? address)

end Json

namespace FieldPath

/-! ### Addresses -/

/-- An address is some steps with positions inserted in front of keys. -/
inductive Inserts :
    (steps : List Segment) → (positions : List Nat) → (address : List Segment) → Prop
  /-- There is no step left. -/
  | nil : Inserts [] [] []
  /-- A key follows. -/
  | key {name : String} {steps : List Segment} {positions : List Nat} {address : List Segment} :
      Inserts steps positions address →
        Inserts (.key name :: steps) positions (.key name :: address)
  /-- A position follows that the steps name. -/
  | index {position : Nat} {steps : List Segment} {positions : List Nat} {address : List Segment} :
      Inserts steps positions address →
        Inserts (.index position :: steps) positions (.index position :: address)
  /-- A position is inserted, with a key still to come. -/
  | insert {position : Nat} {name : String} {steps : List Segment} {positions : List Nat}
      {address : List Segment} :
      Inserts (.key name :: steps) positions address →
        Inserts (.key name :: steps) (position :: positions) (.index position :: address)

/-- The positions that are appended to the address of a tree: one of its own if the tree is an
array, and none otherwise. -/
def Appends : Json → List Nat → Prop
  | .array items, positions => ∃ position < items.length, positions = [position]
  | _, positions => positions = []

/-- Some steps lead to an address of a document, with positions that they leave out: the inserted
ones, and then the appended one. -/
def Leads (steps : List Segment) (document : Json) (positions : List Nat)
    (address : List Segment) : Prop :=
  ∃ inserted stem place appended, Inserts steps inserted stem ∧ document.at? stem = some place ∧
    Appends place appended ∧ positions = inserted ++ appended ∧
    address = stem ++ appended.map Segment.index

theorem leads_nil {document : Json} {positions : List Nat} {address : List Segment} :
    Leads [] document positions address ↔
      Appends document positions ∧ address = positions.map Segment.index := by
  constructor
  · rintro ⟨inserted, stem, place, appended, inserts, found, appends, rfl, rfl⟩
    cases inserts
    cases found
    exact ⟨appends, rfl⟩
  · rintro ⟨appends, rfl⟩
    exact ⟨[], [], document, positions, .nil, rfl, appends, rfl, rfl⟩

/-- A key leads on from the member of an object, or from every item of an array. -/
theorem leads_key {name : String} {steps : List Segment} {document : Json}
    {positions : List Nat} {address : List Segment} :
    Leads (.key name :: steps) document positions address ↔
      (∃ value below, document.child? (.key name) = some value ∧ address = .key name :: below ∧
        Leads steps value positions below) ∨
      ∃ position item others below, document.child? (.index position) = some item ∧
        positions = position :: others ∧ address = .index position :: below ∧
        Leads (.key name :: steps) item others below := by
  constructor
  · rintro ⟨inserted, stem, place, appended, inserts, found, appends, rfl, rfl⟩
    cases inserts with
    | key inserts =>
        obtain ⟨value, member, found⟩ := Option.bind_eq_some_iff.1 found
        exact .inl ⟨value, _, member, rfl, _, _, place, appended, inserts, found, appends, rfl, rfl⟩
    | insert inserts =>
        obtain ⟨item, here, found⟩ := Option.bind_eq_some_iff.1 found
        exact .inr ⟨_, item, _, _, here, rfl, rfl, _, _, place, appended, inserts, found, appends,
          rfl, rfl⟩
  · rintro (⟨value, below, member, rfl, inserted, stem, place, appended, inserts, found, appends,
      rfl, rfl⟩ | ⟨position, item, others, below, here, rfl, rfl, inserted, stem, place, appended,
      inserts, found, appends, rfl, rfl⟩)
    · exact ⟨inserted, .key name :: stem, place, appended, .key inserts,
        Option.bind_eq_some_iff.2 ⟨value, member, found⟩, appends, rfl, rfl⟩
    · exact ⟨position :: inserted, .index position :: stem, place, appended, .insert inserts,
        Option.bind_eq_some_iff.2 ⟨item, here, found⟩, appends, rfl, rfl⟩

/-- A position that is named leads on from that item. -/
theorem leads_index {position : Nat} {steps : List Segment} {document : Json}
    {positions : List Nat} {address : List Segment} :
    Leads (.index position :: steps) document positions address ↔
      ∃ item below, document.child? (.index position) = some item ∧
        address = .index position :: below ∧ Leads steps item positions below := by
  constructor
  · rintro ⟨inserted, stem, place, appended, inserts, found, appends, rfl, rfl⟩
    cases inserts with
    | index inserts =>
        obtain ⟨item, here, found⟩ := Option.bind_eq_some_iff.1 found
        exact ⟨item, _, here, rfl, _, _, place, appended, inserts, found, appends, rfl, rfl⟩
  · rintro ⟨item, below, here, rfl, inserted, stem, place, appended, inserts, found, appends,
      rfl, rfl⟩
    exact ⟨inserted, .index position :: stem, place, appended, .index inserts,
      Option.bind_eq_some_iff.2 ⟨item, here, found⟩, appends, rfl, rfl⟩

/-- **An address tells the positions that were left out.** -/
theorem Leads.positions_eq {steps : List Segment} {document : Json} {positions others : List Nat}
    {address : List Segment} (h : Leads steps document positions address)
    (h' : Leads steps document others address) : positions = others := by
  induction address generalizing steps document positions others with
  | nil =>
      cases steps with
      | nil =>
          have appended := (leads_nil.1 h).2
          have appended' := (leads_nil.1 h').2
          rw [List.map_eq_nil_iff.1 appended.symm, List.map_eq_nil_iff.1 appended'.symm]
      | cons step steps =>
          -- each step is a part of the address
          cases step with
          | key name =>
              rcases leads_key.1 h with ⟨_, _, _, here, _⟩ | ⟨_, _, _, _, _, _, here, _⟩
              all_goals cases here
          | index position =>
              obtain ⟨_, _, _, here, _⟩ := leads_index.1 h
              cases here
  | cons step address ih =>
      cases steps with
      | nil =>
          have same := (leads_nil.1 h).2.symm.trans (leads_nil.1 h').2
          exact List.map_inj_right (fun _ _ => Segment.index.inj) |>.1 same
      | cons next steps =>
          cases next with
          | key name =>
              rcases leads_key.1 h with ⟨value, _, child, ⟨⟩, leads⟩ |
                ⟨position, item, positions, _, child, rfl, ⟨⟩, leads⟩
              · rcases leads_key.1 h' with ⟨_, _, child', ⟨⟩, leads'⟩ | ⟨_, _, _, _, _, _, ⟨⟩, _⟩
                obtain rfl := Option.some.inj (child.symm.trans child')
                exact ih leads leads'
              · rcases leads_key.1 h' with ⟨_, _, _, ⟨⟩, _⟩ | ⟨_, _, _, _, child', rfl, ⟨⟩, leads'⟩
                obtain rfl := Option.some.inj (child.symm.trans child')
                rw [ih leads leads']
          | index position =>
              obtain ⟨item, _, child, ⟨⟩, leads⟩ := leads_index.1 h
              obtain ⟨_, _, child', ⟨⟩, leads'⟩ := leads_index.1 h'
              obtain rfl := Option.some.inj (child.symm.trans child')
              exact ih leads leads'

/-! ### Lists of values -/

/-- The values are those at the addresses of a document that a relation has, with positions, in the
order of the positions. -/
def Finds (relation : List Nat → List Segment → Prop) (document : Json) (values : List Json) :
    Prop :=
  ∃ places : List (List Nat × List Segment),
    (∀ positions address, (positions, address) ∈ places ↔ relation positions address) ∧
    places.Pairwise (fun p q => p.1 < q.1) ∧
    places.map (fun p => document.at? p.2) = values.map some

section

variable {relation other : List Nat → List Segment → Prop} {document : Json} {values : List Json}

theorem Finds.congr (h : Finds relation document values)
    (same : ∀ positions address, relation positions address ↔ other positions address) :
    Finds other document values := by
  obtain ⟨places, mem, rest⟩ := h
  exact ⟨places, fun positions address => (mem positions address).trans (same positions address),
    rest⟩

theorem finds_nil (none : ∀ positions address, ¬ relation positions address) :
    Finds relation document [] :=
  ⟨[], fun positions address => iff_of_false List.not_mem_nil (none positions address), .nil, rfl⟩

/-- A document itself is at the empty address. -/
theorem finds_self (document : Json) :
    Finds (fun positions address => positions = [] ∧ address = []) document [document] :=
  ⟨[([], [])], fun positions address => by simp, List.pairwise_singleton _ _, rfl⟩

/-- What is found in a part of a document is found in the document, with the step to the part in
front of the addresses, and in front of the positions what of it is left out. -/
theorem Finds.inPart {step : Segment} {part : Json} (front : List Nat)
    (h : Finds relation part values) (child : document.child? step = some part) :
    Finds (fun positions address => ∃ others below, positions = front ++ others ∧
      address = step :: below ∧ relation others below) document values := by
  obtain ⟨places, mem, ordered, found⟩ := h
  refine ⟨places.map fun p => (front ++ p.1, step :: p.2), fun positions address => ?_, ?_, ?_⟩
  · simp only [List.mem_map, Prod.mk.injEq, Prod.exists, mem]
    constructor
    · rintro ⟨others, below, h, rfl, rfl⟩
      exact ⟨others, below, rfl, rfl, h⟩
    · rintro ⟨others, below, rfl, rfl, h⟩
      exact ⟨others, below, h, rfl, rfl⟩
  · exact List.pairwise_map.2 (ordered.imp List.append_left_lt)
  · rw [List.map_map, ← found]
    exact List.map_congr_left fun p _ => by simp [Json.at?, child]

/-- What is found behind other values is found with them. -/
theorem Finds.append {others : List Json} (h : Finds relation document values)
    (h' : Finds other document others)
    (before : ∀ positions address positions' address', relation positions address →
      other positions' address' → positions < positions') :
    Finds (fun positions address => relation positions address ∨ other positions address) document
      (values ++ others) := by
  obtain ⟨places, mem, ordered, found⟩ := h
  obtain ⟨places', mem', ordered', found'⟩ := h'
  refine ⟨places ++ places', fun positions address => ?_, ?_, ?_⟩
  · rw [List.mem_append, mem, mem']
  · refine List.pairwise_append.2 ⟨ordered, ordered', fun p hp q hq => ?_⟩
    exact before _ _ _ _ ((mem p.1 p.2).1 hp) ((mem' q.1 q.2).1 hq)
  · rw [List.map_append, found, found', List.map_append]

end

/-- What is found in some items of an array, from one on, is found in the array: the positions of
the items come first in the order. -/
theorem finds_items {relation : Json → List Nat → List Segment → Prop} {next : Json → List Json}
    {array : Json} (items : List Json) (start : Nat)
    (children : ∀ i, array.child? (.index (start + i)) = items[i]?)
    (parts : ∀ item ∈ items, Finds (relation item) item (next item)) :
    Finds (fun positions address => ∃ i item others below, items[i]? = some item ∧
      positions = (start + i) :: others ∧ address = .index (start + i) :: below ∧
      relation item others below) array (items.flatMap next) := by
  induction items generalizing start with
  | nil =>
      refine finds_nil fun _ _ h => ?_
      obtain ⟨_, _, _, _, here, _⟩ := h
      cases here
  | cons item items ih =>
      obtain ⟨part, parts⟩ := List.forall_mem_cons.1 parts
      have shift : ∀ i, start + 1 + i = start + (i + 1) := fun i => Nat.add_right_comm start 1 i
      have here : array.child? (.index start) = some item := children 0
      have first := part.inPart [start] here
      have rest := ih (start + 1) (fun i => by rw [shift]; exact children (i + 1)) parts
      simp only [shift] at rest
      refine (first.append rest ?_).congr fun positions address => ?_
      · rintro _ _ _ _ ⟨others, below, rfl, rfl, -⟩ ⟨i, item', others', below', -, rfl, rfl, -⟩
        exact List.cons_lt_cons_iff.2 (.inl (by omega))
      · constructor
        · rintro (⟨others, below, rfl, rfl, h⟩ | ⟨i, item', others, below, here, rfl, rfl, h⟩)
          · exact ⟨0, item, others, below, rfl, rfl, rfl, h⟩
          · exact ⟨i + 1, item', others, below, here, rfl, rfl, h⟩
        · rintro ⟨i, item', others, below, here, rfl, rfl, h⟩
          cases i with
          | zero =>
              obtain rfl : item = item' := Option.some.inj here
              exact .inl ⟨others, below, rfl, rfl, h⟩
          | succ i =>
              exact .inr ⟨i, item', others, below, here, rfl, rfl, h⟩

/-- **What is found in the items of an array** is found in the array, item by item. -/
theorem finds_array {relation : Json → List Nat → List Segment → Prop} {next : Json → List Json}
    (items : List Json) (parts : ∀ item ∈ items, Finds (relation item) item (next item)) :
    Finds (fun positions address => ∃ i item others below, items[i]? = some item ∧
      positions = i :: others ∧ address = .index i :: below ∧ relation item others below)
      (.array items) (items.flatMap next) := by
  have children : ∀ i, (Json.array items).child? (.index (0 + i)) = items[i]? := fun i => by
    rw [Nat.zero_add]
    rfl
  have found := finds_items items 0 children parts
  simpa only [Nat.zero_add] using found

/-! ### What a path finds -/

/-- At the end of a path, the items of an array are found, or the tree itself. -/
theorem finds_ending (document : Json) : Finds (Leads [] document) document (ending document) := by
  have leaf : (∀ positions, Appends document positions ↔ positions = []) →
      Finds (Leads [] document) document [document] := by
    intro none
    refine (finds_self document).congr fun positions address => ?_
    rw [leads_nil, none]
    constructor
    · rintro ⟨rfl, rfl⟩
      exact ⟨rfl, rfl⟩
    · rintro ⟨rfl, rfl⟩
      exact ⟨rfl, rfl⟩
  cases document with
  | array items =>
      have found := finds_array items fun item _ => finds_self item
      rw [List.flatMap_singleton'] at found
      refine found.congr fun positions address => ?_
      rw [leads_nil]
      constructor
      · rintro ⟨i, item, others, below, here, rfl, rfl, rfl, rfl⟩
        obtain ⟨lt, -⟩ := List.getElem?_eq_some_iff.1 here
        exact ⟨⟨i, lt, rfl⟩, rfl⟩
      · rintro ⟨⟨i, lt, rfl⟩, rfl⟩
        exact ⟨i, items[i], [], [], List.getElem?_eq_getElem lt, rfl, rfl, rfl, rfl⟩
  | _ => exact leaf fun _ => Iff.rfl

theorem findMemberInItems_eq (name : String) (next : Json → List Json) (items : List Json) :
    findMemberInItems name next items = items.flatMap (findMember name next) := by
  induction items with
  | nil => rfl
  | cons item items ih => rw [findMemberInItems, ih, List.flatMap_cons]

/-- A key finds nothing where there is neither the member nor an item. -/
theorem finds_key_nil {name : String} {steps : List Segment} {document : Json}
    (member : document.child? (.key name) = none)
    (items : ∀ i, document.child? (.index i) = none) :
    Finds (Leads (.key name :: steps) document) document [] := by
  refine finds_nil fun positions address h => ?_
  rcases leads_key.1 h with ⟨_, _, child, _⟩ | ⟨i, _, _, _, child, _⟩
  · rw [member] at child
    cases child
  · rw [items i] at child
    cases child

/-- A key finds what the rest of the path finds in the member, in every object that is reached
through arrays alone. -/
theorem finds_findMember {name : String} {steps : List Segment}
    (rest : ∀ value, Finds (Leads steps value) value (find steps value)) (document : Json) :
    Finds (Leads (.key name :: steps) document) document
      (findMember name (find steps) document) := by
  match document with
  | .object members =>
      rw [findMember]
      cases member : Json.member? name members with
      | none => exact finds_key_nil member fun _ => rfl
      | some value =>
          have child : (Json.object members).child? (.key name) = some value := member
          refine ((rest value).inPart [] child).congr fun positions address => ?_
          rw [leads_key]
          constructor
          · rintro ⟨_, below, rfl, rfl, h⟩
            exact .inl ⟨value, below, child, rfl, h⟩
          · rintro (⟨_, below, child', rfl, h⟩ | ⟨_, _, _, _, child', _⟩)
            · obtain rfl := Option.some.inj (child.symm.trans child')
              exact ⟨positions, below, rfl, rfl, h⟩
            · cases child'
  | .array items =>
      rw [findMember, findMemberInItems_eq]
      refine (finds_array items fun item _ => finds_findMember rest item).congr
        fun positions address => ?_
      rw [leads_key]
      constructor
      · exact .inr
      · rintro (⟨_, _, child, _⟩ | h)
        · cases child
        · exact h
  | .null | .bool _ | .number _ | .string _ => exact finds_key_nil rfl fun _ => rfl

/-- An index finds what the rest of the path finds in that item of an array. -/
theorem finds_findItem {position : Nat} {steps : List Segment}
    (rest : ∀ value, Finds (Leads steps value) value (find steps value)) (document : Json) :
    Finds (Leads (.index position :: steps) document) document
      (findItem position (find steps) document) := by
  have found : findItem position (find steps) document
      = ((document.child? (.index position)).map (find steps)).getD [] := by
    cases document with
    | array items =>
        rw [findItem, Json.child?]
        cases items[position]? <;> rfl
    | _ => rfl
  rw [found]
  cases child : document.child? (.index position) with
  | none =>
      refine finds_nil fun positions address h => ?_
      obtain ⟨_, _, child', _⟩ := leads_index.1 h
      rw [child] at child'
      cases child'
  | some item =>
      refine ((rest item).inPart [] child).congr fun positions address => ?_
      rw [leads_index]
      constructor
      · rintro ⟨_, below, rfl, rfl, h⟩
        exact ⟨item, below, child, rfl, h⟩
      · rintro ⟨_, below, child', rfl, h⟩
        obtain rfl := Option.some.inj (child.symm.trans child')
        exact ⟨positions, below, rfl, rfl, h⟩

/-- Steps find the values at the addresses to which they lead. -/
theorem finds_find (steps : List Segment) (document : Json) :
    Finds (Leads steps document) document (find steps document) := by
  induction steps generalizing document with
  | nil => exact finds_ending document
  | cons step steps ih =>
      cases step with
      | key name => exact finds_findMember ih document
      | index position => exact finds_findItem ih document

/-- **A path finds the values at the addresses to which it leads**: all of them and no others, each
address once, in the lexicographic order of the positions that the path leaves out. -/
theorem extract_places (path : FieldPath) (document : Json) :
    ∃ places : List (List Nat × List Segment),
      (∀ positions address, (positions, address) ∈ places ↔
        Leads path.segments document positions address) ∧
      places.Pairwise (fun p q => p.1 < q.1) ∧ (places.map Prod.snd).Nodup ∧
      places.map (fun p => document.at? p.2) = (path.extract document).map some := by
  obtain ⟨places, mem, ordered, found⟩ := finds_find path.segments document
  refine ⟨places, mem, ordered, List.pairwise_map.2 ?_, found⟩
  refine ordered.imp_of_mem fun {p q} hp hq less same => ?_
  have leads := (mem p.1 p.2).1 hp
  rw [same] at leads
  rw [leads.positions_eq ((mem q.1 q.2).1 hq)] at less
  exact List.lt_irrefl q.1 less

end FieldPath

end DocStore
