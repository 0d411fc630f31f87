import Sponge.Reassembler.Spans

/-!
# The Stored Substrings

Let all substrings that are pushed be slices of one byte string `S`.  Then the set `_buf` is a
sorted list of disjoint, non-empty slices of `S`, and no function of the reassembler throws.

- `Piece S seg`: `seg` is a non-empty slice of `S`; the property survives cutting and merging
- `Stored S r`: the invariant of the set of stored substrings
- `handleSubstring_spec`: storing a substring adds exactly the indices that survive the cuts
-/

namespace Sponge

namespace StreamReassembler

/-! ## §1 Pieces -/

/-- A non-empty slice of `S`. -/
structure Piece (S : Bytes) (seg : Segment) : Prop where
  nonempty : seg.data ≠ []
  slice : Slice.At S seg.idx seg.data

section Piece

variable {S : Bytes} {seg a b : Segment}

theorem Piece.length_pos (h : Piece S seg) : 0 < seg.length :=
  List.length_pos_iff.mpr h.nonempty

theorem Piece.stop_le (h : Piece S seg) : seg.idx + seg.length ≤ S.length :=
  h.slice.end_le h.nonempty

/-- The second piece preferred: all slices agree where they overlap. -/
theorem Piece.splice (ha : Piece S a) (hb : Piece S b) (hle : a.idx ≤ b.idx)
    (hmeet : b.idx ≤ a.idx + a.length) :
    Piece S { idx := a.idx, data := a.data.take (b.idx - a.idx) ++ b.data } := by
  refine ⟨by simp [hb.nonempty], ?_⟩
  exact ha.slice.splice hb.slice hle hmeet

theorem Piece.extend (ha : Piece S a) (hb : Piece S b) (hmeet : a.idx ≤ b.idx + b.length) :
    Piece S { idx := b.idx, data := b.data ++ a.data.drop (b.idx + b.length - a.idx) } := by
  refine ⟨by simp [hb.nonempty], hb.slice.append ?_⟩
  have hdrop := ha.slice.drop (b.idx + b.length - a.idx)
  rwa [Nat.add_sub_cancel' hmeet] at hdrop

/-- The front of a piece. -/
theorem Piece.take (h : Piece S seg) {n : ℕ} (hn : 0 < n) :
    Piece S { idx := seg.idx, data := seg.data.take n } := by
  refine ⟨?_, h.slice.take n⟩
  rw [ne_eq, List.take_eq_nil_iff, not_or]
  exact ⟨by omega, h.nonempty⟩

/-- What is left of a piece from the index `i` on. -/
theorem Piece.drop_to (h : Piece S seg) {i : ℕ} (hle : seg.idx ≤ i)
    (hlt : i < seg.idx + seg.length) :
    Piece S { idx := i, data := seg.data.drop (i - seg.idx) } := by
  refine ⟨?_, ?_⟩
  · rw [ne_eq, List.drop_eq_nil_iff]
    have : seg.data.length = seg.length := rfl
    omega
  · have hdrop := h.slice.drop (i - seg.idx)
    rwa [Nat.add_sub_cancel' hle] at hdrop

/-- Pieces of a string that fits into memory survive all reshaping. -/
theorem reshaping_piece (hS : S.length ≤ 2 ^ 64) : Reshaping (Piece S) where
  nonempty h := h.nonempty
  fits h := h.stop_le.trans hS
  splice := Piece.splice
  extend := Piece.extend
  take h := h.take
  dropTo h := h.drop_to

end Piece

/-! ## §2 Storing a substring -/

/-- The state of the set of stored substrings between two operations and while a push is being
    handled. -/
structure Stored (S : Bytes) (r : StreamReassembler) : Prop where
  separated : Separated r.buf
  pieces : ∀ seg ∈ r.buf, Piece S seg
  above : ∀ seg ∈ r.buf, r.firstUnassembled ≤ seg.idx
  count : r.unassembledBytes = total r.buf

section Storing

variable {S : Bytes} {r r' : StreamReassembler} {seg t : Segment}

theorem Stored.storedAs (h : Stored S r) : StoredAs (Piece S) r :=
  ⟨h.separated, h.pieces, h.above, h.count.ge⟩

/-- While the counter is exact, it stays exact. -/
theorem InsertedAs.stored_exact (h : InsertedAs (Piece S) r t r')
    (hcount : r.unassembledBytes = total r.buf) : Stored S r' := by
  refine ⟨h.stored.separated, h.stored.pieces, h.stored.above, ?_⟩
  have := h.count
  omega

/-- **`_handle_substring`** either ignores the substring, which then lies outside the window,
    or stores what the cuts leave of it. -/
theorem handleSubstring_spec (hS : S.length < 2 ^ 64) (h : Stored S r) (hseg : Piece S seg) :
    ((r.firstUnacceptable ≤ seg.idx ∨ seg.idx + seg.length ≤ r.firstUnassembled) ∧
      r.handleSubstring seg = .ok r) ∨
    ∃ t r', KeptAs (Piece S) r seg t ∧ r.handleSubstring seg = .ok r' ∧
      InsertedAs (Piece S) r t r' ∧ Stored S r' := by
  rcases handleSubstring_spans (reshaping_piece hS.le) h.storedAs hseg with
    hdrop | ⟨t, r', -, hkept, -, hrun, hins⟩
  · exact .inl hdrop
  · exact .inr ⟨t, r', hkept, hrun, hins, hins.stored_exact h.count⟩

end Storing

end StreamReassembler

end Sponge
