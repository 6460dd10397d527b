/-
The order in which members are written does not show in a tree.

An object lists its members by ascending key, and each member is put in its place when it comes.
Two members with different keys can come in either order, so members with different keys can come in
any order.  The maps of a value become objects in this way, at every depth.

* `Json.insert_comm` — members with different keys are put in either order;
* `Json.ofMembers_perm` — **the order in which members are written does not show in the object**;
* `Value.Rearranged` — values that differ in the order in which the entries of maps are written;
* `Value.Rearranged.toJson?_eq` — **they have the same tree**, or both have none.
-/

import DocStore.Value
import Mathlib.Data.List.Nodup
import Mathlib.Data.List.Perm.Basic

set_option autoImplicit false

namespace DocStore

namespace Json

/-! ### Members -/

/-- Members with different keys are put in either order. -/
theorem insert_comm {key key' : String} (ne : key ≠ key') (value value' : Json)
    (members : List (String × Json)) :
    insert key value (insert key' value' members)
      = insert key' value' (insert key value members) := by
  induction members with
  | nil => grind [insert]
  | cons m rest ih => grind [insert]

/-- **The order in which members are written does not show in the object**, if their keys
differ. -/
theorem ofMembers_perm {members others : List (String × Json)} (perm : members.Perm others)
    (distinct : (members.map Prod.fst).Nodup) : ofMembers members = ofMembers others := by
  refine congrArg object (perm.foldl_eq' ?_ [])
  intro m hm n hn sorted
  by_cases same : m.1 = n.1
  · obtain rfl := List.inj_on_of_nodup_map distinct hm hn same
    rfl
  · exact insert_comm (Ne.symm same) n.2 m.2 sorted

end Json

namespace Value

/-! ### Maps -/

/-- The members of a map, one entry at a time. -/
theorem entriesToMembers?_cons {key value : Value} {entries : List (Value × Value)}
    {members : List (String × Json)} :
    entriesToMembers? ((key, value) :: entries) = some members ↔
      ∃ name tree more, key.keyText? = some name ∧ value.toJson? = some tree ∧
        entriesToMembers? entries = some more ∧ members = (name, tree) :: more := by
  rw [entriesToMembers?]
  constructor
  · intro h
    split at h
    · rename_i name tree more hkey hvalue hrest
      exact ⟨name, tree, more, hkey, hvalue, hrest, (Option.some.inj h).symm⟩
    · cases h
  · rintro ⟨name, tree, more, hkey, hvalue, hrest, rfl⟩
    rw [hkey, hvalue, hrest]

/-- Entries in another order become the members in another order. -/
theorem entriesToMembers?_perm {entries others : List (Value × Value)}
    (perm : entries.Perm others) : ∀ {members}, entriesToMembers? entries = some members →
      ∃ members', entriesToMembers? others = some members' ∧ members.Perm members' := by
  induction perm with
  | nil => exact fun h => ⟨_, h, .refl _⟩
  | cons e _ ih =>
      intro members h
      obtain ⟨key, value⟩ := e
      obtain ⟨name, tree, more, hkey, hvalue, hrest, rfl⟩ := entriesToMembers?_cons.1 h
      obtain ⟨more', hrest', same⟩ := ih hrest
      exact ⟨_, entriesToMembers?_cons.2 ⟨name, tree, more', hkey, hvalue, hrest', rfl⟩,
        same.cons _⟩
  | swap e e' _ =>
      intro members h
      obtain ⟨key, value⟩ := e
      obtain ⟨key', value'⟩ := e'
      obtain ⟨name', tree', _, hkey', hvalue', tail, rfl⟩ := entriesToMembers?_cons.1 h
      obtain ⟨name, tree, more, hkey, hvalue, hrest, rfl⟩ := entriesToMembers?_cons.1 tail
      have tail := entriesToMembers?_cons.2 ⟨name', tree', more, hkey', hvalue', hrest, rfl⟩
      exact ⟨_, entriesToMembers?_cons.2 ⟨name, tree, _, hkey, hvalue, tail, rfl⟩, .swap _ _ _⟩
  | trans _ _ ih ih' =>
      intro members h
      obtain ⟨between, h, first⟩ := ih h
      obtain ⟨members', h, second⟩ := ih' h
      exact ⟨members', h, first.trans second⟩

/-- The keys of the members are the texts of the keys of the entries. -/
theorem map_keyText?_of_entriesToMembers? : {entries : List (Value × Value)} →
    {members : List (String × Json)} → entriesToMembers? entries = some members →
      entries.map (fun e => e.1.keyText?) = members.map (fun m => some m.1)
  | [], _, h => by
      obtain rfl := Option.some.inj h
      rfl
  | (key, value) :: entries, _, h => by
      obtain ⟨name, tree, more, hkey, -, hrest, rfl⟩ := entriesToMembers?_cons.1 h
      rw [List.map_cons, List.map_cons, map_keyText?_of_entriesToMembers? hrest, hkey]

/-- **A map whose entries are written in another order has the same tree**, if the texts of its keys
differ. -/
theorem toJson?_map_perm {entries others : List (Value × Value)} (perm : entries.Perm others)
    (distinct : (entries.map fun e => e.1.keyText?).Nodup) :
    (Value.map entries).toJson? = (Value.map others).toJson? := by
  rw [toJson?, toJson?]
  cases h : entriesToMembers? entries with
  | none =>
      cases h' : entriesToMembers? others with
      | none => rfl
      | some members' =>
          obtain ⟨members, found, -⟩ := entriesToMembers?_perm perm.symm h'
          rw [h] at found
          cases found
  | some members =>
      obtain ⟨members', h', same⟩ := entriesToMembers?_perm perm h
      rw [map_keyText?_of_entriesToMembers? h] at distinct
      have names : (members.map Prod.fst).Nodup := by
        refine List.Nodup.of_map some ?_
        rw [List.map_map]
        exact distinct
      rw [h', Option.map_some, Option.map_some, Json.ofMembers_perm same names]

/-! ### Values -/

/-- Values that differ in the order in which the entries of maps are written, at any depth.  No map
whose order differs has two keys with the same text: of these the last one counts. -/
inductive Rearranged : Value → Value → Prop
  | refl (value : Value) : Rearranged value value
  | trans {a b c : Value} (first : Rearranged a b) (second : Rearranged b c) : Rearranged a c
  /-- The entries of one map. -/
  | entries {entries others : List (Value × Value)} (perm : entries.Perm others)
      (distinct : (entries.map fun e => e.1.keyText?).Nodup) :
      Rearranged (.map entries) (.map others)
  /-- Inside an item of an array. -/
  | item {a b : Value} (before after : List Value) (inside : Rearranged a b) :
      Rearranged (.array (before ++ a :: after)) (.array (before ++ b :: after))
  /-- Inside the value of an entry. -/
  | value {a b : Value} (before : List (Value × Value)) (key : Value)
      (after : List (Value × Value)) (inside : Rearranged a b) :
      Rearranged (.map (before ++ (key, a) :: after)) (.map (before ++ (key, b) :: after))

/-- An item can be taken for another one with the same tree. -/
theorem itemsToJson?_congr {a b : Value} (h : a.toJson? = b.toJson?) (after : List Value) :
    ∀ before, itemsToJson? (before ++ a :: after) = itemsToJson? (before ++ b :: after)
  | [] => by rw [List.nil_append, List.nil_append, itemsToJson?, itemsToJson?, h]
  | item :: before => by
      rw [List.cons_append, List.cons_append, itemsToJson?, itemsToJson?,
        itemsToJson?_congr h after before]

/-- The value of an entry can be taken for another one with the same tree. -/
theorem entriesToMembers?_congr {a b : Value} (h : a.toJson? = b.toJson?) (key : Value)
    (after : List (Value × Value)) : ∀ before,
      entriesToMembers? (before ++ (key, a) :: after)
        = entriesToMembers? (before ++ (key, b) :: after)
  | [] => by rw [List.nil_append, List.nil_append, entriesToMembers?, entriesToMembers?, h]
  | (key', value) :: before => by
      rw [List.cons_append, List.cons_append, entriesToMembers?, entriesToMembers?,
        entriesToMembers?_congr h key after before]

/-- **Values that differ in the order of entries have the same tree**, or both have none. -/
theorem Rearranged.toJson?_eq {a b : Value} (h : Rearranged a b) : a.toJson? = b.toJson? := by
  induction h with
  | refl value => rfl
  | trans _ _ first second => exact first.trans second
  | entries perm distinct => exact toJson?_map_perm perm distinct
  | item before after _ ih => rw [toJson?, toJson?, itemsToJson?_congr ih]
  | value before key after _ ih => rw [toJson?, toJson?, entriesToMembers?_congr ih]

end Value

end DocStore
