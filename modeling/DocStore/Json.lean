/-
JSON trees, the dynamic form of a document.

* `Number`, `Json` — the trees; the members of an object are listed by ascending key;
* `Json.insert` — a member put in its place, instead of an older one of the same key;
* `Json.member?` — looking up a member;
* `Json.depth` — how deeply arrays and objects are nested.
-/

import DocStore.Number.Binary64

set_option autoImplicit false

namespace DocStore

/-- A number of a JSON tree.  An integer and a float are different trees even if they are equal as
numbers; infinities and NaNs are not numbers of JSON. -/
inductive Number
  /-- A number written without fraction and exponent. -/
  | int (n : Integer)
  /-- A number written with a fraction or an exponent. -/
  | float (x : Finite64)
  deriving DecidableEq

/-- A JSON tree. -/
inductive Json
  | null
  | bool (b : Bool)
  | number (n : Number)
  | string (s : String)
  | array (items : List Json)
  /-- The members, by ascending key and each key once. -/
  | object (members : List (String × Json))
  deriving Inhabited

namespace Json

/-- Puts a member in its place among members that ascend by key; an older one of the same key is
replaced. -/
def insert (key : String) (value : Json) : List (String × Json) → List (String × Json)
  | [] => [(key, value)]
  | (k, v) :: rest =>
      if key < k then (key, value) :: (k, v) :: rest
      else if key = k then (key, value) :: rest
      else (k, v) :: insert key value rest

/-- The object with the given members, written in this order: of members with the same key, the
last one stays. -/
def ofMembers (members : List (String × Json)) : Json :=
  .object (members.foldl (fun sorted m => insert m.1 m.2 sorted) [])

/-- The member with a key, if there is one. -/
def member? (key : String) : List (String × Json) → Option Json
  | [] => none
  | (k, v) :: rest => if key = k then some v else member? key rest

/-- The member that was put is found, and no other member is touched. -/
theorem member?_insert (key other : String) (value : Json) (members : List (String × Json)) :
    member? other (insert key value members)
      = if other = key then some value else member? other members := by
  induction members with
  | nil => by_cases h : other = key <;> simp [insert, member?, h]
  | cons m rest ih =>
      obtain ⟨k, v⟩ := m
      unfold insert
      split
      · by_cases h : other = key <;> simp [member?, h]
      · split
        · rename_i h
          subst h
          by_cases h : other = key <;> simp [member?, h]
        · rename_i h
          by_cases h' : other = k
          · subst h'
            simp [member?, Ne.symm h]
          · simp [member?, h', ih]

mutual

/-- How many arrays and objects are nested in each other at the deepest place. -/
def depth : Json → Nat
  | .array items => depthOfItems items + 1
  | .object members => depthOfMembers members + 1
  | _ => 0

/-- The greatest depth of some items. -/
def depthOfItems : List Json → Nat
  | [] => 0
  | item :: rest => max item.depth (depthOfItems rest)

/-- The greatest depth of some members. -/
def depthOfMembers : List (String × Json) → Nat
  | [] => 0
  | (_, value) :: rest => max value.depth (depthOfMembers rest)

end

end Json

end DocStore
