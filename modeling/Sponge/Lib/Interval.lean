import Mathlib.Algebra.BigOperators.Group.List.Basic
import Mathlib.Algebra.GroupWithZero.Nat
import Mathlib.Order.Interval.Finset.Nat
import Mathlib.Tactic.Common

/-!
# Lists of Disjoint Intervals

Objects of a type `α` occupy intervals of natural numbers: `a` occupies the `len a` numbers
from `start a` on.  A list of such objects is `Separated` when every object ends before the
next one starts.

`card_cover` counts the numbers that a separated list occupies.  `lookup` finds the value that a
list of objects gives to a number, where every object gives a value to exactly the numbers it
occupies.
-/

namespace Interval

variable {α : Type*} (start len : α → ℕ)

/-- The object `a` occupies the number `k`. -/
def Covers (a : α) (k : ℕ) : Prop :=
  start a ≤ k ∧ k < start a + len a

/-- Some object of the list occupies the number `k`. -/
def Covered (l : List α) (k : ℕ) : Prop :=
  ∃ a ∈ l, Covers start len a k

/-- Every object ends before the next one starts. -/
def Separated (l : List α) : Prop :=
  l.Pairwise fun a b => start a + len a ≤ start b

/-- The numbers occupied by the objects of a list. -/
def cover (l : List α) : Finset ℕ :=
  l.foldr (fun a acc => Finset.Ico (start a) (start a + len a) ∪ acc) ∅

variable {start len} {l l₁ l₂ : List α} {a : α} {k : ℕ}

theorem covered_cons : Covered start len (a :: l) k ↔ Covers start len a k ∨
    Covered start len l k := by
  simp [Covered]

theorem covered_append : Covered start len (l₁ ++ l₂) k ↔
    Covered start len l₁ k ∨ Covered start len l₂ k := by
  simp only [Covered, List.mem_append, or_and_right, exists_or]

theorem mem_cover : k ∈ cover start len l ↔ Covered start len l k := by
  induction l with
  | nil => simp [cover, Covered]
  | cons a l ih =>
    rw [covered_cons, ← ih]
    simp [cover, Covers]

/-- In a separated list an object and the objects after it have nothing in common. -/
theorem Separated.not_covered_tail (h : Separated start len (a :: l))
    (hk : Covers start len a k) : ¬ Covered start len l k := by
  rintro ⟨b, hb, hkb⟩
  have := (List.pairwise_cons.mp h).1 b hb
  unfold Covers at hk hkb
  omega

/-- Two objects of a separated list lie one after the other. -/
theorem Separated.before_or_after {b : α} (h : Separated start len l) (ha : a ∈ l) (hb : b ∈ l)
    (hne : a ≠ b) : start a + len a ≤ start b ∨ start b + len b ≤ start a := by
  induction l with
  | nil => cases ha
  | cons x l ih =>
    obtain ⟨hhead, htail⟩ := List.pairwise_cons.mp h
    -- at most one of them is the head, and the head comes first
    rcases List.mem_cons.mp ha with rfl | ha' <;> rcases List.mem_cons.mp hb with rfl | hb'
    · exact absurd rfl hne
    · exact .inl (hhead b hb')
    · exact .inr (hhead a ha')
    · exact ih htail ha' hb'

/-- **Counting.**  A separated list occupies as many numbers as its lengths add up to. -/
theorem card_cover (h : Separated start len l) :
    (cover start len l).card = (l.map len).sum := by
  induction l with
  | nil => rfl
  | cons a l ih =>
    have hdisj : Disjoint (Finset.Ico (start a) (start a + len a)) (cover start len l) := by
      rw [Finset.disjoint_left]
      intro k hk hcov
      exact h.not_covered_tail (Finset.mem_Ico.mp hk) (mem_cover.mp hcov)
    have hunion : cover start len (a :: l) =
        Finset.Ico (start a) (start a + len a) ∪ cover start len l := rfl
    rw [hunion, Finset.card_union_of_disjoint hdisj, ih (List.pairwise_cons.mp h).2,
      Nat.card_Ico, List.map_cons, List.sum_cons, Nat.add_sub_cancel_left]

/-! ## Values -/

section Lookup

variable {β : Type*} {f : α → ℕ → Option β}

/-- The value at `k` of the first object that has one there. -/
def lookup (f : α → ℕ → Option β) (l : List α) (k : ℕ) : Option β :=
  l.findSome? fun a => f a k

theorem lookup_cons (f : α → ℕ → Option β) (a : α) (l : List α) (k : ℕ) :
    lookup f (a :: l) k = (f a k).or (lookup f l k) := by
  rw [lookup, lookup, List.findSome?_cons]
  cases f a k <;> rfl

theorem lookup_eq_none_iff (hf : ∀ a k, f a k = none ↔ ¬ Covers start len a k) :
    lookup f l k = none ↔ ¬ Covered start len l k := by
  simp only [lookup, List.findSome?_eq_none_iff, hf, Covered, not_exists, not_and]

/-- In a separated list the object that occupies `k` gives the value there. -/
theorem Separated.lookup_eq (hf : ∀ a k, f a k = none ↔ ¬ Covers start len a k)
    (h : Separated start len l) (ha : a ∈ l) (hk : Covers start len a k) :
    lookup f l k = f a k := by
  induction l with
  | nil => cases ha
  | cons b l ih =>
    rw [lookup_cons]
    rcases List.mem_cons.mp ha with rfl | hmem
    · -- the objects after `a` have no value at `k`
      rw [(lookup_eq_none_iff hf).mpr (h.not_covered_tail hk), Option.or_none]
    · have hb : f b k = none := by
        rw [hf]
        exact fun hbk => h.not_covered_tail hbk ⟨a, hmem, hk⟩
      rw [hb, Option.none_or, ih (List.pairwise_cons.mp h).2 hmem]

end Lookup

end Interval
