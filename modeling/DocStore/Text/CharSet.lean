/-
Sets of characters, given by ranges of code points.

* `CharSet` — closed ranges of code points, in ascending order and apart from each other;
* `CharSet.contains` — membership of a character, with `CharSet.contains_iff` to say what it is.

The search stops at the first range that ends at or after the character, which is right because
the ranges ascend; that they do is a field of the type.
-/

set_option autoImplicit false

namespace DocStore

/-- Whether no range ends before it begins and each ends before the next one begins. -/
def ascending : List (Nat × Nat) → Bool
  | [] => true
  | [r] => r.1 ≤ r.2
  | r :: s :: rest => decide (r.1 ≤ r.2) && decide (r.2 < s.1) && ascending (s :: rest)

/-- Closed ranges of code points, each ending before the next one begins. -/
structure CharSet where
  /-- First and last code point of each range. -/
  ranges : List (Nat × Nat)
  /-- The ranges ascend and are apart from each other. -/
  ranges_ascending : ascending ranges = true

namespace CharSet

/-- In ascending ranges every later range begins after the first one ends. -/
theorem lt_of_ascending {r : Nat × Nat} {rest : List (Nat × Nat)}
    (h : ascending (r :: rest) = true) : ∀ s ∈ rest, r.2 < s.1 := by
  induction rest generalizing r with
  | nil => simp
  | cons s rest ih =>
      simp only [ascending, Bool.and_eq_true, decide_eq_true_eq] at h
      intro t ht
      rcases List.mem_cons.1 ht with rfl | ht
      · exact h.1.2
      · have later := ih h.2 t ht
        have own : s.1 ≤ s.2 := by
          cases rest with
          | nil => simpa [ascending] using h.2
          | cons _ _ => simp_all [ascending]
        omega

theorem ascending_tail {r : Nat × Nat} {rest : List (Nat × Nat)}
    (h : ascending (r :: rest) = true) : ascending rest = true := by
  cases rest with
  | nil => rfl
  | cons s rest => simp_all [ascending]

/-- Whether a code point lies in one of ascending ranges. -/
def inRanges : List (Nat × Nat) → Nat → Bool
  | [], _ => false
  | r :: rest, n => if n ≤ r.2 then r.1 ≤ n else inRanges rest n

theorem inRanges_iff {ranges : List (Nat × Nat)} (h : ascending ranges = true) (n : Nat) :
    inRanges ranges n = true ↔ ∃ r ∈ ranges, r.1 ≤ n ∧ n ≤ r.2 := by
  induction ranges with
  | nil => simp [inRanges]
  | cons r rest ih =>
      by_cases hn : n ≤ r.2
      · simp only [inRanges, hn, if_true, List.mem_cons, exists_eq_or_imp, and_true,
          decide_eq_true_eq]
        refine ⟨Or.inl, fun hr => hr.elim id ?_⟩
        rintro ⟨s, hs, hsn, -⟩
        have := lt_of_ascending h s hs
        omega
      · simp [inRanges, hn, ih (ascending_tail h)]

/-- Whether a character is in the set. -/
def contains (set : CharSet) (c : Char) : Bool :=
  inRanges set.ranges c.toNat

/-- A character is in the set exactly if one of the ranges has its code point. -/
theorem contains_iff (set : CharSet) (c : Char) :
    set.contains c = true ↔ ∃ r ∈ set.ranges, r.1 ≤ c.toNat ∧ c.toNat ≤ r.2 :=
  inRanges_iff set.ranges_ascending _

end CharSet

end DocStore
