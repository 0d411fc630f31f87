import Sponge.Reassembler.Bytes

/-!
# Contradicting Substrings

No end of the stream is announced.  Of the bytes that arrive for an index while it lies inside the
window, the first one should stay: no later push should change it.

- `Contest`: a reassembler next to the history of its bytes
- `FirstWins c`: no byte has been changed, and every byte is the first one that arrived
- `KeepsFirst r data index`: the pushes that respect this
- `first_wins_iff`: the property holds throughout a run if and only if all its pushes do

The exceptions are the pushes that contradict a stored substring strictly inside them, those into
a window whose end exceeds `size_t`, and those whose own last index does.
-/

namespace Sponge

namespace StreamReassembler

open Execution (Trace Always Along)

/-! ## §1 The property -/

/-- The calls on a reassembler, without an announcement of the end. -/
inductive Arrival where
  | push (data : Bytes) (hdata : data.length < 2 ^ 63) (index : UInt64)
  | read (len : ℕ)

/-- The byte that a push brings to an index inside the window. -/
def arrivedByte (r : StreamReassembler) (data : Bytes) (index : UInt64) (k : ℕ) : Option Byte :=
  if r.firstUnassembled ≤ k ∧ k < r.firstUnacceptable then byteOf { idx := index.toNat, data } k
  else none

/-- A reassembler next to the history of the bytes. -/
structure Contest where
  reassembler : StreamReassembler
  /-- the byte that was held or written at an index when there was one for the first time -/
  seen : ℕ → Option Byte
  /-- the byte of the earliest push that covered an index inside the window -/
  first : ℕ → Option Byte

def Contest.new (capacity : UInt64) : Contest where
  reassembler := .new capacity
  seen _ := none
  first _ := none

/-- One call. -/
def Contest.apply (c : Contest) : Arrival → Except StdException Contest
  | .push data _ index => do
    let reassembler ← c.reassembler.pushSubstring data index false
    return {
      reassembler
      seen := fun k => (c.seen k).or (reassembler.byteAt k)
      first := fun k => (c.first k).or (c.reassembler.arrivedByte data index k) }
  | .read len =>
    return { c with
      reassembler := { c.reassembler with output := (c.reassembler.output.read len).2 } }

def Contest.Step (c : Contest) (a : Arrival) (d : Contest) : Prop :=
  c.apply a = .ok d

/-- Conflicts are resolved in favour of the first byte. -/
structure FirstWins (c : Contest) : Prop where
  -- what has been held or written has not been changed since
  kept : ∀ k b, c.seen k = some b → c.reassembler.byteAt k = some b
  first : ∀ k, c.reassembler.byteAt k = c.first k

/-- **When a push lets the first byte win.** -/
inductive KeepsFirst (r : StreamReassembler) (data : Bytes) (index : UInt64) : Prop where
  -- it lies outside the window
  | past (h : r.firstUnacceptable ≤ index.toNat)
  | behind (hfits : index.toNat + data.length ≤ 2 ^ 64)
      (h : index.toNat + data.length ≤ r.firstUnassembled)
  -- it agrees with every stored substring that lies strictly inside it
  | agrees (hfits : index.toNat + data.length ≤ 2 ^ 64)
      (hwindow : r.firstUnread + r.capacity.toNat < 2 ^ 64)
      (h : ∀ x ∈ r.buf, r.Encloses data index x → ∀ k, Covers x k →
        byteOf x k = byteOf { idx := index.toNat, data } k)
  -- its last index wraps round and it brings nothing new
  | known (hover : 2 ^ 64 < index.toNat + data.length)
      (h : ∀ k, max index.toNat r.firstUnassembled ≤ k → k < r.firstUnacceptable →
        Covered r.buf k)

def Contest.KeepsFirst (c : Contest) : Arrival → Prop
  | .push data _ index => c.reassembler.KeepsFirst data index
  | .read _ => True

/-! ## §2 A push whose last index exceeds `size_t` -/

section Overflow

variable {r : StreamReassembler} {seg x : Segment} {kept rest : List Segment}

/-- The loop passes over what does not meet the bounds. -/
theorem overlapLoop_append {lo hi : ℕ} {l : List Segment} (m : Segment)
    (hkept : ∀ x ∈ kept, overlaps lo hi x = false) :
    overlapLoop lo hi (kept ++ l) r m = overlapLoop lo hi l r m := by
  induction kept with
  | nil => rfl
  | cons y kept ih =>
    obtain ⟨hy, hrest⟩ := List.forall_mem_cons.mp hkept
    rw [List.cons_append, overlapLoop, hy]
    exact ih hrest

theorem overlapLoop_of_none {lo hi : ℕ} {l : List Segment} (m : Segment)
    (hl : ∀ x ∈ l, overlaps lo hi x = false) : overlapLoop lo hi l r m = .ok (r, m) := by
  rw [← List.append_nil l, overlapLoop_append m hl]
  rfl

/-- A substring that has been taken out goes back to its place. -/
theorem setInsert_append (hsep : Separated (kept ++ x :: rest)) (hpos : 0 < x.length)
    (hkept : ∀ y ∈ kept, 0 < y.length) : setInsert x (kept ++ rest) = kept ++ x :: rest := by
  induction kept with
  | nil =>
    cases rest with
    | nil => rfl
    | cons y rest =>
      have := (List.pairwise_cons.mp hsep).1 y List.mem_cons_self
      rw [List.nil_append, setInsert, if_pos (by omega), List.nil_append]
  | cons y kept ih =>
    obtain ⟨hhead, htail⟩ := List.pairwise_cons.mp hsep
    have hy := hhead x (by simp)
    have hypos := hkept y List.mem_cons_self
    rw [List.cons_append, setInsert, if_neg (by omega), if_pos (by omega),
      ih htail fun z hz => hkept z (List.mem_cons_of_mem _ hz), List.cons_append]

/-- A substring whose last index wraps round and comes before the first one. -/
structure Wrapped (seg : Segment) : Prop where
  exceeds : 2 ^ 64 < seg.idx + seg.length
  start : seg.idx < 2 ^ 64
  length : seg.length < 2 ^ 63

theorem Wrapped.tailIdx_lt (h : Wrapped seg) : seg.tailIdx < seg.idx := by
  have h₁ := h.exceeds
  have h₂ := h.start
  have h₃ := h.length
  unfold Segment.tailIdx sizeTSub sizeT
  omega

/-- It meets the stored substring that contains its first index, and no other one. -/
theorem Wrapped.overlaps_iff (h : Wrapped seg) (hx : Solid x) :
    overlaps seg.idx seg.tailIdx x = true ↔ Covers x seg.idx := by
  have htail := h.tailIdx_lt
  have hpos := reshaping_solid.length_pos hx
  unfold overlaps
  rw [reshaping_solid.tailIdx_eq hx]
  simp only [Bool.or_eq_true, Bool.and_eq_true, decide_eq_true_eq, Interval.Covers]
  omega

/-- Merging it with that one loses all its bytes. -/
theorem Wrapped.mergeSeg_eq (h : Wrapped seg) (hx : Solid x) (hk : Covers x seg.idx) :
    mergeSeg seg x = .ok x := by
  have htail := h.tailIdx_lt
  have hpos := reshaping_solid.length_pos hx
  simp only [Interval.Covers] at hk
  unfold mergeSeg
  dsimp only
  rw [reshaping_solid.tailIdx_eq hx, if_neg (by omega), if_neg (by omega), if_pos (by omega)]
  rfl

/-- Neither cut applies to it. -/
theorem Wrapped.truncate_eq (h : Wrapped seg) (hlow : seg.idx < r.firstUnacceptable)
    (hhigh : r.firstUnassembled ≤ seg.tailIdx) : r.truncate seg = .ok seg := by
  have htail := h.tailIdx_lt
  have hleft : r.cutLeft seg = .ok seg := by
    rw [cutLeft, if_neg (by omega)]
    rfl
  have hright : r.cutRight seg.idx seg = .ok seg := by
    rw [cutRight, if_neg (by omega)]
    rfl
  rw [truncate, hleft]
  exact hright

/-- **Storing it** changes nothing if its first index is stored already. -/
theorem Wrapped.handleOverlap_of_covered (h : Wrapped seg) (hr : Running r)
    (hk : Covered r.buf seg.idx) : r.handleOverlap seg = .ok r := by
  obtain ⟨x, hx, hk⟩ := hk
  obtain ⟨kept, rest, hbuf⟩ := List.append_of_mem hx
  have hsolid := hr.solid
  have hsep := hr.separated
  have hcount := hr.count
  have herased := bufErase_spec hbuf hsep (reshaping_solid.length_pos (hsolid x hx)) hcount
  -- no other stored substring contains the index
  have hothers : ∀ y ∈ kept ++ rest, overlaps seg.idx seg.tailIdx y = false := by
    intro y hy
    rw [← Bool.not_eq_true, h.overlaps_iff (hsolid y (herased.subset hy))]
    exact fun hyk => herased.disjoint y hy _ hyk hk
  obtain ⟨hkept, hrest⟩ := List.forall_mem_append.mp hothers
  have hloop : overlapLoop seg.idx seg.tailIdx r.buf r seg = .ok (r.bufErase x, x) := by
    rw [hbuf, overlapLoop_append seg hkept, overlapLoop,
      if_pos ((h.overlaps_iff (hsolid x hx)).mpr hk), h.mergeSeg_eq (hsolid x hx) hk]
    exact overlapLoop_of_none x hrest
  rw [handleOverlap, hloop]
  -- the substring that was erased is inserted again
  have hback : setInsert x (r.bufErase x).buf = r.buf := by
    rw [herased.buf, hbuf]
    refine setInsert_append (hbuf ▸ hsep) (reshaping_solid.length_pos (hsolid x hx)) fun y hy => ?_
    exact reshaping_solid.length_pos (hsolid y (by rw [hbuf]; simp [hy]))
  have hsame := herased.count
  show Except.ok ((r.bufErase x).bufInsert x) = _
  rw [bufInsert, hback, hsame]
  rfl

/-- Otherwise it is added as it is. -/
theorem Wrapped.handleOverlap_of_not_covered (h : Wrapped seg) (hr : Running r)
    (hk : ¬ Covered r.buf seg.idx) : r.handleOverlap seg = .ok (r.bufInsert seg) := by
  have hnone : ∀ x ∈ r.buf, overlaps seg.idx seg.tailIdx x = false := by
    intro x hx
    rw [← Bool.not_eq_true, h.overlaps_iff (hr.solid x hx)]
    exact fun hxk => hk ⟨x, hx, hxk⟩
  rw [handleOverlap, overlapLoop_of_none seg hnone]
  rfl

/-- What a push of such a substring can do. -/
inductive Spills (r : StreamReassembler) (seg : Segment) : StreamReassembler → Prop where
  | unchanged : Spills r seg r
  | added (r' : StreamReassembler) (hstart : r.firstUnassembled < seg.idx)
      (hlow : seg.idx < r.firstUnacceptable) (hnew : ¬ Covered r.buf seg.idx)
      (hmem : seg ∈ r'.buf) (hsame : r'.firstUnassembled = r.firstUnassembled) : Spills r seg r'

/-- **A push whose last index exceeds `size_t`.** -/
theorem Running.push_wrapped {data : Bytes} {index : UInt64} (hr : Running r)
    (h : Wrapped { idx := index.toNat, data }) :
    ∃ r', r.pushSubstring data index false = .ok r' ∧
      Spills r { idx := index.toNat, data } r' := by
  have hover := h.exceeds
  have hidx : index.toNat < 2 ^ 64 := h.start
  have htail := h.tailIdx_lt
  have hne : data ≠ [] := by
    rintro rfl
    simp only [Segment.length, List.length_nil] at hover
    omega
  have hstore : r.store data index = r.handleSubstring { idx := index.toNat, data } := by
    simp [StreamReassembler.store, hne]
  -- nothing continues the output, so storing is all that happens
  have hpush : ∀ r₁ : StreamReassembler,
      r.handleSubstring { idx := index.toNat, data } = .ok r₁ → r₁.eof = false →
      (∀ x ∈ r₁.buf, r₁.firstUnassembled < x.idx) →
      r.pushSubstring data index false = .ok r₁ := by
    intro r₁ hrun heof hgap
    have hstore' : (r.announce data index false).store data index = .ok r₁ := hstore.trans hrun
    rw [pushSubstring, hstore']
    show Except.ok r₁.flush.finish = _
    rw [flush_of_gap hgap, finish_of_unannounced heof]
  by_cases hdrop : r.firstUnacceptable ≤ index.toNat ∨
      Segment.tailIdx { idx := index.toNat, data } < r.firstUnassembled
  · refine ⟨r, hpush r ?_ hr.unannounced hr.gap, .unchanged⟩
    rw [handleSubstring, if_pos hdrop]
  have hhandle : r.handleSubstring { idx := index.toNat, data } =
      r.handleOverlap { idx := index.toNat, data } := by
    rw [handleSubstring_eq hdrop, h.truncate_eq (by simp only; omega) (by omega)]
    rfl
  by_cases hk : Covered r.buf index.toNat
  · exact ⟨r, hpush r (hhandle.trans (h.handleOverlap_of_covered hr hk)) hr.unannounced hr.gap,
      .unchanged⟩
  · have hlt : r.firstUnassembled < index.toNat := by
      simp only at htail
      omega
    have hstart : ∀ x ∈ r.buf, x.idx ≠ index.toNat := by
      intro x hx heq
      exact hk ⟨x, hx, heq ▸ reshaping_solid.covers_idx (hr.solid x hx)⟩
    have hmem : ∀ x, x ∈ (r.bufInsert { idx := index.toNat, data }).buf ↔
        x = { idx := index.toNat, data } ∨ x ∈ r.buf := fun x => mem_setInsert hstart
    refine ⟨_, hpush _ (hhandle.trans (h.handleOverlap_of_not_covered hr hk)) hr.unannounced ?_,
      .added _ hlt (by simp only; omega) hk ((hmem _).mpr (.inl rfl)) rfl⟩
    intro x hx
    rcases (hmem x).mp hx with rfl | hx
    · exact hlt
    · exact hr.gap x hx

end Overflow

/-! ## §3 The bytes after a push -/

section Runs

variable {r r' : StreamReassembler} {data : Bytes} {index : UInt64} {k : ℕ}

theorem arrivedByte_of_not_covers (hk : ¬ Covers { idx := index.toNat, data } k) :
    r.arrivedByte data index k = none := by
  rw [arrivedByte, byteOf_of_not_covers hk, ite_self]

theorem arrivedByte_of_le (hk : r.firstUnacceptable ≤ k) : r.arrivedByte data index k = none := by
  rw [arrivedByte, if_neg (by omega)]

/-- **The bytes after a push** whose last index is a `size_t` and that agrees with what lies
    strictly inside it. -/
theorem Decided.byteAt_eq (hr : Running r) (h : Decided r data index r')
    (hagrees : ∀ x ∈ r.buf, r.Encloses data index x → ∀ k, Covers x k →
      byteOf x k = byteOf { idx := index.toNat, data } k)
    (hsame : ∀ k, r.firstUnassembled ≤ k → k < r.windowEnd →
      r.admittedByte data index k = r.arrivedByte data index k) (k : ℕ) :
    r'.byteAt k = (r.byteAt k).or (r.arrivedByte data index k) := by
  rcases Nat.lt_or_ge k r.firstUnassembled with hlow | hlow
  · have hk := hlow
    rw [firstUnassembled_eq] at hk
    rw [h.before k hlow, byteAt_of_lt hlow, List.getElem?_eq_getElem hk, Option.some_or]
  rcases Nat.lt_or_ge k r.windowEnd with hhigh | hhigh
  swap
  · have hend := firstUnacceptable_le hr.capacity
    rw [h.beyond k hhigh, hr.byteAt_of_windowEnd_le hhigh, arrivedByte_of_le (by omega)]
    rfl
  by_cases hwins : ∃ x ∈ r.buf, ¬ r.Encloses data index x ∧ Covers x k
  · obtain ⟨x, hx, hout, hk⟩ := hwins
    obtain ⟨b, hb⟩ := exists_byteOf hk
    rw [h.wins x hx hout k hk, hr.byteAt_of_mem hx hk, hb, Option.some_or]
  · have hloses := h.loses k hlow hhigh fun x hx hout hk => hwins ⟨x, hx, hout, hk⟩
    by_cases hcov : Covered r.buf k
    · -- what lies strictly inside is overwritten by the same byte
      obtain ⟨x, hx, hk⟩ := hcov
      have hin : r.Encloses data index x := by
        by_contra hout
        exact hwins ⟨x, hx, hout, hk⟩
      obtain ⟨b, hb⟩ := exists_byteOf hk
      rw [hloses, admittedByte, if_pos (hin.admits hk), ← hagrees x hx hin k hk,
        hr.byteAt_of_mem hx hk, hb, Option.some_or]
    · rw [hloses, hsame k hlow hhigh, byteAt_of_le hlow, storedByte_eq_none_iff.mpr hcov,
        Option.none_or]

/-- What a push admits is what it brings to the window. -/
theorem admittedByte_eq (hwindow : r.windowEnd = r.firstUnacceptable)
    (hlow : r.firstUnassembled ≤ k) (hhigh : k < r.windowEnd) :
    r.admittedByte data index k = r.arrivedByte data index k := by
  rw [arrivedByte, if_pos ⟨hlow, hwindow ▸ hhigh⟩, admittedByte]
  split
  · rfl
  · rename_i hout
    refine (byteOf_of_not_covers fun hk => hout ?_).symm
    simp only [Interval.Covers, Segment.length] at hk
    simp only [Admits, admittedEnd]
    omega

theorem windowEnd_eq (hr : Running r) (hwindow : r.firstUnread + r.capacity.toNat < 2 ^ 64) :
    r.windowEnd = r.firstUnacceptable := by
  have hsmall : r.windowEnd < 2 ^ 64 := by
    rw [windowEnd, hr.capacity]
    exact hwindow
  exact (firstUnacceptable_eq hr.capacity hsmall).symm

/-- A push that admits nothing and brings nothing to the window. -/
theorem Decided.byteAt_eq_of_outside (hr : Running r) (h : Decided r data index r')
    (hnone : ∀ k, ¬ r.Admits data index k)
    (houtside : ∀ k, r.firstUnassembled ≤ k → r.arrivedByte data index k = none) (k : ℕ) :
    r'.byteAt k = (r.byteAt k).or (r.arrivedByte data index k) := by
  refine h.byteAt_eq hr (fun x hx hin k hk => absurd (hin.admits hk) (hnone k)) ?_ k
  intro k hlow _
  rw [admittedByte, if_neg (hnone k), houtside k hlow]

/-- **A push that keeps the first bytes** adds what it brings to the window, and changes nothing
    else. -/
theorem KeepsFirst.push (h : r.KeepsFirst data index) (hr : Running r)
    (hdata : data.length < 2 ^ 63) :
    ∃ r', r.pushSubstring data index false = .ok r' ∧ Running r' ∧
      ∀ k, r'.byteAt k = (r.byteAt k).or (r.arrivedByte data index k) := by
  cases h with
  | past hpast =>
    obtain ⟨r', hrun, hdec⟩ := hr.push data index fun hlt => absurd hpast (Nat.not_le.mpr hlt)
    refine ⟨r', hrun, hdec.running, hdec.byteAt_eq_of_outside hr (fun k hk => ?_) fun k _ => ?_⟩
    · exact absurd hk.1 (Nat.not_lt.mpr hpast)
    · rcases Nat.lt_or_ge k index.toNat with hk | hk
      · exact arrivedByte_of_not_covers fun hcovers => absurd hcovers.1 (Nat.not_le.mpr hk)
      · exact arrivedByte_of_le (hpast.trans hk)
  | behind hfits hbehind =>
    obtain ⟨r', hrun, hdec⟩ := hr.push data index fun _ => hfits
    refine ⟨r', hrun, hdec.running, hdec.byteAt_eq_of_outside hr (fun k hk => ?_) fun k hlow => ?_⟩
    · simp only [Admits, admittedEnd] at hk
      omega
    · refine arrivedByte_of_not_covers fun hk => ?_
      simp only [Interval.Covers, Segment.length] at hk
      omega
  | agrees hfits hwindow hagrees =>
    obtain ⟨r', hrun, hdec⟩ := hr.push data index fun _ => hfits
    exact ⟨r', hrun, hdec.running, hdec.byteAt_eq hr hagrees fun k hlow hhigh =>
      admittedByte_eq (windowEnd_eq hr hwindow) hlow hhigh⟩
  | known hover hknown =>
    obtain ⟨r', hrun, hspill⟩ := hr.push_wrapped ⟨hover, index.toNat_lt, hdata⟩
    cases hspill with
    | unchanged =>
      refine ⟨r, hrun, hr, fun k => ?_⟩
      rw [arrivedByte]
      split
      · rename_i hin
        by_cases hk : Covers { idx := index.toNat, data } k
        · -- it brings a byte only where there is one already
          obtain ⟨x, hx, hxk⟩ := hknown k (by have := hk.1; simp only at this; omega) hin.2
          obtain ⟨b, hb⟩ := exists_byteOf hxk
          rw [hr.byteAt_of_mem hx hxk, hb, Option.some_or]
        · rw [byteOf_of_not_covers hk, Option.or_none]
      · rw [Option.or_none]
    | added _ hstart hlow hnew =>
      exact absurd (hknown index.toNat (by simp only at hstart; omega) hlow) hnew

/-- A push whose last index wraps round must bring nothing new: it is lost, or it is stored
    beyond the window. -/
theorem Spills.known (hr : Running r) (h : Spills r { idx := index.toNat, data } r')
    (hover : 2 ^ 64 < index.toNat + data.length)
    (hbytes : ∀ k, r'.byteAt k = (r.byteAt k).or (r.arrivedByte data index k)) (k : ℕ)
    (hlow : max index.toNat r.firstUnassembled ≤ k) (hhigh : k < r.firstUnacceptable) :
    Covered r.buf k := by
  have hsize : r.firstUnacceptable < 2 ^ 64 := Nat.mod_lt _ (by omega)
  have hcovers : ∀ j, index.toNat ≤ j → j < 2 ^ 64 → Covers { idx := index.toNat, data } j := by
    intro j hle hlt
    simp only [Interval.Covers, Segment.length]
    omega
  cases h with
  | unchanged =>
    by_contra hnew
    obtain ⟨b, hb⟩ := exists_byteOf (hcovers k (by omega) (by omega))
    have hk := hbytes k
    rw [byteAt_of_le (by omega), storedByte_eq_none_iff.mpr hnew, arrivedByte,
      if_pos ⟨by omega, hhigh⟩, hb] at hk
    cases hk
  | added _ hstart _ _ hmem hsame =>
    -- the first index past the window has a byte now
    have hfits : r.firstUnread + r.capacity.toNat < 2 ^ 64 := by
      by_contra hwraps
      have := r.firstUnacceptable_lt (by omega)
      omega
    have hwindow := windowEnd_eq hr hfits
    have hk := hbytes r.firstUnacceptable
    rw [hr.byteAt_of_windowEnd_le hwindow.le, arrivedByte_of_le (Nat.le_refl _), Option.or_none,
      byteAt_of_le (by omega), storedByte_eq_none_iff] at hk
    exact absurd ⟨_, hmem, hcovers _ (by omega) hsize⟩ hk

/-- Into a window that wraps, a push writes a byte that does not belong there. -/
theorem Decided.window_fits (hr : Running r) (h : Decided r data index r')
    (hfits : index.toNat + data.length ≤ 2 ^ 64) (hlow : index.toNat < r.firstUnacceptable)
    (hhigh : r.firstUnassembled < index.toNat + data.length)
    (hbytes : ∀ k, r'.byteAt k = (r.byteAt k).or (r.arrivedByte data index k)) :
    r.firstUnread + r.capacity.toNat < 2 ^ 64 := by
  by_contra hwraps
  have hempty := r.firstUnacceptable_lt (by omega)
  have hroom : r.firstUnassembled < r.windowEnd := by
    rw [windowEnd, hr.capacity]
    unfold firstUnread at hwraps
    omega
  have hk := h.loses r.firstUnassembled (Nat.le_refl _) hroom fun x hx _ hxk =>
    absurd hxk.1 (Nat.not_le.mpr (hr.gap x hx))
  have hadmits : r.Admits data index r.firstUnassembled := by
    simp only [Admits, admittedEnd]
    omega
  obtain ⟨b, hb⟩ : ∃ b, byteOf { idx := index.toNat, data } r.firstUnassembled = some b := by
    apply exists_byteOf
    simp only [Interval.Covers, Segment.length]
    omega
  rw [hbytes, hr.byteAt_firstUnassembled, arrivedByte_of_le hempty.le, admittedByte,
    if_pos hadmits, hb] at hk
  cases hk

/-- What lies strictly inside a push is overwritten, so the push must agree with it. -/
theorem Decided.agrees (hr : Running r) (h : Decided r data index r')
    (hbytes : ∀ k, r'.byteAt k = (r.byteAt k).or (r.arrivedByte data index k)) :
    ∀ x ∈ r.buf, r.Encloses data index x → ∀ k, Covers x k →
      byteOf x k = byteOf { idx := index.toNat, data } k := by
  intro x hx hin k hk
  have hlow := hr.gap x hx
  have hhigh := hr.inside x hx
  have hloses := h.loses k (hlow.le.trans hk.1) (hk.2.trans_le hhigh) fun y hy hout hyk => by
    -- `x` is the only one that covers the index
    have hne : y ≠ x := fun heq => hout (heq ▸ hin)
    have := Interval.Separated.before_or_after hr.separated hy hx hne
    simp only [Interval.Covers] at hk hyk
    omega
  obtain ⟨b, hb⟩ := exists_byteOf hk
  rw [hbytes, hr.byteAt_of_mem hx hk, hb, Option.some_or, admittedByte,
    if_pos (hin.admits hk)] at hloses
  rw [hb, hloses]

/-- **The condition is necessary.** -/
theorem keepsFirst_of_byteAt (hr : Running r) (hdata : data.length < 2 ^ 63)
    (hrun : r.pushSubstring data index false = .ok r')
    (hbytes : ∀ k, r'.byteAt k = (r.byteAt k).or (r.arrivedByte data index k)) :
    r.KeepsFirst data index := by
  by_cases hpast : r.firstUnacceptable ≤ index.toNat
  · exact .past hpast
  by_cases hfits : index.toNat + data.length ≤ 2 ^ 64
  · by_cases hbehind : index.toNat + data.length ≤ r.firstUnassembled
    · exact .behind hfits hbehind
    obtain ⟨s, hrun', hdec⟩ := hr.push data index fun _ => hfits
    cases Except.ok.inj (hrun.symm.trans hrun')
    exact .agrees hfits (hdec.window_fits hr hfits (by omega) (by omega) hbytes)
      (hdec.agrees hr hbytes)
  · obtain ⟨s, hrun', hspill⟩ :=
      hr.push_wrapped ⟨Nat.not_le.mp hfits, index.toNat_lt, hdata⟩
    cases Except.ok.inj (hrun.symm.trans hrun')
    exact .known (by omega) (hspill.known hr (by omega) hbytes)

end Runs

/-! ## §4 Whole runs -/

/-- The invariant: the history shows the bytes of the reassembler. -/
structure Upheld (c : Contest) : Prop where
  running : Running c.reassembler
  seen : ∀ k, c.seen k = c.reassembler.byteAt k
  first : ∀ k, c.first k = c.reassembler.byteAt k

theorem Upheld.new (capacity : UInt64) : Upheld (.new capacity) where
  running := ⟨Bounded.new capacity, by simp [Contest.new, StreamReassembler.new], rfl, rfl⟩
  seen _ := rfl
  first _ := rfl

theorem Upheld.firstWins {c : Contest} (h : Upheld c) : FirstWins c where
  kept k _ hb := (h.seen k).symm.trans hb
  first k := (h.first k).symm

section Steps

variable {c d : Contest}

theorem Contest.step_push_iff {data : Bytes} {hdata : data.length < 2 ^ 63} {index : UInt64} :
    Contest.Step c (.push data hdata index) d ↔
      ∃ r', c.reassembler.pushSubstring data index false = .ok r' ∧
        d = ⟨r', fun k => (c.seen k).or (r'.byteAt k),
          fun k => (c.first k).or (c.reassembler.arrivedByte data index k)⟩ := by
  constructor
  · intro hstep
    rw [Contest.Step, Contest.apply] at hstep
    cases hpush : c.reassembler.pushSubstring data index false with
    | error e =>
      rw [hpush] at hstep
      cases hstep
    | ok r' =>
      rw [hpush] at hstep
      exact ⟨r', rfl, (Except.ok.inj hstep).symm⟩
  · rintro ⟨r', hpush, rfl⟩
    rw [Contest.Step, Contest.apply, hpush]
    rfl

theorem Running.read {r : StreamReassembler} (h : Running r) (len : ℕ) :
    Running { r with output := (r.output.read len).2 } :=
  ⟨h.toBounded.read len, h.solid, h.opened, h.unannounced⟩

theorem Upheld.read (h : Upheld c) (len : ℕ) :
    Upheld { c with
      reassembler := { c.reassembler with output := (c.reassembler.output.read len).2 } } :=
  ⟨h.running.read len, h.seen, h.first⟩

/-- Recording a push that keeps the first bytes. -/
theorem Upheld.record (h : Upheld c) {r' : StreamReassembler} {data : Bytes} {index : UInt64}
    (hrunning : Running r')
    (hbytes : ∀ k, r'.byteAt k =
      (c.reassembler.byteAt k).or (c.reassembler.arrivedByte data index k)) :
    Upheld ⟨r', fun k => (c.seen k).or (r'.byteAt k),
      fun k => (c.first k).or (c.reassembler.arrivedByte data index k)⟩ := by
  refine ⟨hrunning, fun k => ?_, fun k => ?_⟩
  · show (c.seen k).or (r'.byteAt k) = r'.byteAt k
    rw [h.seen, hbytes]
    cases c.reassembler.byteAt k <;> rfl
  · show (c.first k).or _ = r'.byteAt k
    rw [h.first, hbytes]

/-- A call that keeps the first bytes returns and keeps the invariant. -/
theorem Upheld.step (h : Upheld c) {a : Arrival} (hkeeps : c.KeepsFirst a) :
    (∃ d, Contest.Step c a d) ∧ ∀ d, Contest.Step c a d → Upheld d := by
  cases a with
  | push data hdata index =>
    obtain ⟨r', hrun, hrunning, hbytes⟩ := StreamReassembler.KeepsFirst.push hkeeps h.running hdata
    refine ⟨⟨_, Contest.step_push_iff.mpr ⟨r', hrun, rfl⟩⟩, fun d hd => ?_⟩
    obtain ⟨s, hrun', rfl⟩ := Contest.step_push_iff.mp hd
    cases Except.ok.inj (hrun.symm.trans hrun')
    exact h.record hrunning hbytes
  | read len =>
    refine ⟨⟨_, rfl⟩, fun d hd => ?_⟩
    cases hd
    exact h.read len

/-- A call after which the first bytes still stand has kept them. -/
theorem Upheld.keepsFirst (h : Upheld c) {a : Arrival} (hstep : Contest.Step c a d)
    (hwins : FirstWins d) : c.KeepsFirst a := by
  cases a with
  | push data hdata index =>
    obtain ⟨r', hrun, rfl⟩ := Contest.step_push_iff.mp hstep
    refine keepsFirst_of_byteAt h.running hdata hrun fun k => ?_
    rw [← h.first k]
    exact hwins.first k
  | read len => trivial

end Steps

/-- **Conflicts are resolved in favour of the first byte** throughout exactly those runs in which
    every push keeps the first bytes. -/
theorem first_wins_iff (capacity : UInt64) (arrivals : List Arrival) :
    Always Contest.Step FirstWins (.new capacity) arrivals ↔
      Along Contest.Step Contest.KeepsFirst (.new capacity) arrivals := by
  refine Execution.always_iff_along (fun _ => Upheld.firstWins) ?_ ?_ arrivals _ (.new capacity)
  · exact fun c a h hkeeps => h.step hkeeps
  · rintro c a h ⟨d, hstep⟩ hwins
    exact h.keepsFirst hstep (hwins d hstep)

/-- A stored byte that lies strictly inside the next push is replaced. -/
theorem first_wins_fails :
    ∃ c, Trace Contest.Step (.new 8) [.push [2] (by decide) 1, .push [1, 9, 3] (by decide) 0] c ∧
      c.reassembler.output.written = [1, 9, 3] ∧ c.seen 1 = some 2 ∧ c.first 1 = some 2 ∧
      ¬ FirstWins c := by
  obtain ⟨c, htrace, hwritten, hseen, hfirst⟩ :
      ∃ c, Trace Contest.Step (.new 8)
          [.push [2] (by decide) 1, .push [1, 9, 3] (by decide) 0] c ∧
        c.reassembler.output.written = [1, 9, 3] ∧ c.seen 1 = some 2 ∧ c.first 1 = some 2 :=
    ⟨_, .cons rfl (.cons rfl (.nil _)), rfl, rfl, rfl⟩
  refine ⟨c, htrace, hwritten, hseen, hfirst, fun h => ?_⟩
  have hbyte := h.kept 1 2 hseen
  rw [byteAt, hwritten] at hbyte
  exact absurd (Option.some.inj hbyte) (by decide)

end StreamReassembler

end Sponge
