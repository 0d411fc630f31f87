import Mathlib.Data.List.Basic
import Mathlib.Data.List.Infix
import Mathlib.Tactic.Common

/-!
# Slices of a List

`Slice.At S i d` says that the list `d` stands in `S` at position `i`.  The empty list
stands everywhere, also past the end of `S`.

The rules say how slices are cut, joined and spliced, and that they survive when `S` is
extended at its end.
-/

namespace Slice

variable {α : Type*}

/-- `d` stands in `S` at position `i`. -/
def At (S : List α) (i : ℕ) (d : List α) : Prop :=
  d <+: S.drop i

variable {S T d e : List α} {i j n : ℕ}

/-- The slices at the front are the prefixes. -/
theorem at_zero : At S 0 d ↔ d <+: S := by
  simp [At]

/-- A non-empty slice ends inside the list. -/
theorem At.end_le (h : At S i d) (hd : d ≠ []) : i + d.length ≤ S.length := by
  have hlen := h.length_le
  have hpos := List.length_pos_iff.mpr hd
  simp only [List.length_drop] at hlen
  omega

/-- A slice of `S` is a slice of every extension of `S`. -/
theorem At.mono (h : At S i d) (hST : S <+: T) : At T i d :=
  h.trans (hST.drop i)

/-- The front of a slice is a slice. -/
theorem At.take (h : At S i d) (n : ℕ) : At S i (d.take n) :=
  (List.take_prefix n d).trans h

/-- What is left of a slice after its first `n` elements is a slice `n` places on. -/
theorem At.drop (h : At S i d) (n : ℕ) : At S (i + n) (d.drop n) := by
  have := List.IsPrefix.drop h n
  rwa [List.drop_drop] at this

/-- Adjacent slices join. -/
theorem At.append (hd : At S i d) (he : At S (i + d.length) e) : At S i (d ++ e) := by
  obtain ⟨rest, hrest⟩ := hd
  have hdrop : S.drop (i + d.length) = rest := by
    rw [← List.drop_drop, ← hrest, List.drop_left]
  rw [At, hdrop] at he
  rw [At, ← hrest]
  exact List.prefix_append_right_inj d |>.mpr he

/-- Two overlapping slices, the first of which begins first, splice into one. -/
theorem At.splice (hd : At S i d) (he : At S j e) (hij : i ≤ j) (hji : j ≤ i + d.length) :
    At S i (d.take (j - i) ++ e) := by
  -- cut the first slice where the second one begins
  apply (hd.take _).append
  have hlen : i + (d.take (j - i)).length = j := by
    simp only [List.length_take]
    omega
  rwa [hlen]

/-- A slice at the end of a prefix extends it. -/
theorem At.extend_prefix (hS : d <+: S) (he : At S d.length e) : d ++ e <+: S :=
  at_zero.mp ((at_zero.mpr hS).append (by simpa using he))

end Slice
