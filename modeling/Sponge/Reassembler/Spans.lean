import Sponge.Lib.Interval
import Sponge.StreamReassembler

/-!
# Storing Substrings

What `_handle_substring` does to the set `_buf`, for any property of substrings that survives
cutting and merging.  Nothing is assumed about the bytes: substrings that overlap may
contradict each other.

- `Reshaping P`: the property `P` survives every reshaping, and holds of non-empty substrings
  whose last index is a `size_t`
- `mergeSeg_spans`, `overlapLoop_spans`, `truncate_spans`: the three ways a substring is reshaped
- `handleSubstring_spans`: storing a substring adds exactly the indices that survive the cuts,
  and does not throw
- `store_frame`: nothing else changes, also where nothing is known about the substrings
-/

namespace Sponge

namespace StreamReassembler

/-! ## §1 Spans -/

abbrev Covers (seg : Segment) (k : ℕ) : Prop :=
  Interval.Covers Segment.idx Segment.length seg k

abbrev Covered (l : List Segment) (k : ℕ) : Prop :=
  Interval.Covered Segment.idx Segment.length l k

abbrev Separated (l : List Segment) : Prop :=
  Interval.Separated Segment.idx Segment.length l

/-- The number of bytes in a list of substrings. -/
def total (l : List Segment) : ℕ :=
  (l.map Segment.length).sum

@[simp] theorem total_nil : total [] = 0 := rfl

@[simp] theorem total_cons (seg : Segment) (l : List Segment) :
    total (seg :: l) = seg.length + total l := by
  simp [total]

@[simp] theorem total_append (l₁ l₂ : List Segment) :
    total (l₁ ++ l₂) = total l₁ + total l₂ := by
  simp [total]

/-- A property of substrings that survives every reshaping of the code. -/
structure Reshaping (P : Segment → Prop) : Prop where
  nonempty : ∀ {seg}, P seg → seg.data ≠ []
  -- the last index is a `size_t`
  fits : ∀ {seg}, P seg → seg.idx + seg.length ≤ 2 ^ 64
  -- two overlapping substrings, the second one preferred
  splice : ∀ {a b}, P a → P b → a.idx ≤ b.idx → b.idx ≤ a.idx + a.length →
    P { idx := a.idx, data := a.data.take (b.idx - a.idx) ++ b.data }
  extend : ∀ {a b}, P a → P b → a.idx ≤ b.idx + b.length →
    P { idx := b.idx, data := b.data ++ a.data.drop (b.idx + b.length - a.idx) }
  -- a part of a substring
  take : ∀ {seg n}, P seg → 0 < n → P { idx := seg.idx, data := seg.data.take n }
  dropTo : ∀ {seg i}, P seg → seg.idx ≤ i → i < seg.idx + seg.length →
    P { idx := i, data := seg.data.drop (i - seg.idx) }

section Reshaping

variable {P : Segment → Prop} {seg a b : Segment}

theorem Reshaping.length_pos (hP : Reshaping P) (h : P seg) : 0 < seg.length :=
  List.length_pos_iff.mpr (hP.nonempty h)

theorem Reshaping.covers_idx (hP : Reshaping P) (h : P seg) : Covers seg seg.idx :=
  ⟨Nat.le_refl _, by have := hP.length_pos h; omega⟩

/-- `tail_idx()` does not wrap. -/
theorem Reshaping.tailIdx_eq (hP : Reshaping P) (h : P seg) :
    seg.tailIdx = seg.idx + seg.length - 1 := by
  have h₁ := hP.fits h
  have h₂ := hP.length_pos h
  unfold Segment.tailIdx sizeTSub sizeT
  omega

/-- `substr` does not throw at a position inside the string. -/
theorem substr_of_le {s : Bytes} {pos n : ℕ} (h : pos ≤ s.length) :
    substr s pos n = .ok ((s.drop pos).take n) := by
  unfold substr
  rw [if_neg (by omega)]

/-- **The four cases of `_merge_seg`**, for two overlapping substrings. -/
theorem mergeSeg_cases (hP : Reshaping P) (ha : P a) (hb : P b)
    (hba : b.idx < a.idx + a.length) (hab : a.idx < b.idx + b.length) :
    -- `b` continues `a`
    (a.idx < b.idx ∧ a.idx + a.length ≤ b.idx + b.length ∧
      mergeSeg a b = .ok { idx := a.idx, data := a.data.take (b.idx - a.idx) ++ b.data }) ∨
    -- `a` continues `b`
    (b.idx ≤ a.idx ∧ b.idx + b.length < a.idx + a.length ∧ mergeSeg a b =
      .ok { idx := b.idx, data := b.data ++ a.data.drop (b.idx + b.length - a.idx) }) ∨
    -- `a` lies inside `b`
    (b.idx ≤ a.idx ∧ a.idx + a.length ≤ b.idx + b.length ∧ mergeSeg a b = .ok b) ∨
    -- `b` lies strictly inside `a`
    (a.idx < b.idx ∧ b.idx + b.length < a.idx + a.length ∧ mergeSeg a b = .ok a) := by
  have hpa := hP.length_pos ha
  have hpb := hP.length_pos hb
  have hsa := hP.fits ha
  have hsb := hP.fits hb
  unfold mergeSeg
  dsimp only
  rw [hP.tailIdx_eq ha, hP.tailIdx_eq hb]
  split
  · rw [substr_of_le (Nat.zero_le _)]
    exact .inl ⟨by omega, by omega, rfl⟩
  split
  · have hpos : sizeTSub (sizeT (b.idx + b.length)) a.idx = b.idx + b.length - a.idx := by
      unfold sizeTSub sizeT
      omega
    have hle : b.idx + b.length - a.idx ≤ a.data.length := by
      have : a.data.length = a.length := rfl
      omega
    rw [hpos, substr_of_le hle, List.take_of_length_le (by simp)]
    exact .inr (.inl ⟨by omega, by omega, rfl⟩)
  split
  · exact .inr (.inr (.inl ⟨by omega, by omega, rfl⟩))
  · exact .inr (.inr (.inr ⟨by omega, by omega, rfl⟩))

/-- **Merging two overlapping substrings** gives one that spans both. -/
theorem mergeSeg_spans (hP : Reshaping P) (ha : P a) (hb : P b)
    (hba : b.idx < a.idx + a.length) (hab : a.idx < b.idx + b.length) :
    ∃ m, mergeSeg a b = .ok m ∧ P m ∧ m.idx = min a.idx b.idx ∧
      m.idx + m.length = max (a.idx + a.length) (b.idx + b.length) := by
  rcases mergeSeg_cases hP ha hb hba hab with
    ⟨hidx, hstop, hrun⟩ | ⟨hidx, hstop, hrun⟩ | ⟨hidx, hstop, hrun⟩ | ⟨hidx, hstop, hrun⟩
  · refine ⟨_, hrun, hP.splice ha hb hidx.le hba.le, by dsimp only; omega, ?_⟩
    simp only [Segment.length, List.length_append, List.length_take] at *
    omega
  · refine ⟨_, hrun, hP.extend ha hb hab.le, by dsimp only; omega, ?_⟩
    simp only [Segment.length, List.length_append, List.length_drop] at *
    omega
  · exact ⟨_, hrun, hb, by omega, by omega⟩
  · exact ⟨_, hrun, ha, by omega, by omega⟩

/-- The overlap test finds the substrings that have an index in common with `[lo, hi]`. -/
theorem overlaps_iff (hP : Reshaping P) (h : P seg) {lo hi : ℕ} (hlohi : lo ≤ hi) :
    overlaps lo hi seg = true ↔ seg.idx ≤ hi ∧ lo < seg.idx + seg.length := by
  have hpos := hP.length_pos h
  unfold overlaps
  rw [hP.tailIdx_eq h]
  simp only [Bool.or_eq_true, Bool.and_eq_true, decide_eq_true_eq]
  omega

end Reshaping

/-! ## §2 The ordered set -/

section SetInsert

variable {P : Segment → Prop} {seg x : Segment} {l : List Segment}

theorem mem_setInsert (hne : ∀ y ∈ l, y.idx ≠ seg.idx) :
    x ∈ setInsert seg l ↔ x = seg ∨ x ∈ l := by
  induction l with
  | nil => simp [setInsert]
  | cons y l ih =>
    have hy := hne y List.mem_cons_self
    have ih := ih fun z hz => hne z (List.mem_cons_of_mem _ hz)
    rw [setInsert]
    split
    · simp
    · rw [if_pos (by omega), List.mem_cons, ih, List.mem_cons]
      exact or_left_comm

theorem total_setInsert (hne : ∀ y ∈ l, y.idx ≠ seg.idx) :
    total (setInsert seg l) = seg.length + total l := by
  induction l with
  | nil => simp [setInsert]
  | cons y l ih =>
    have hy := hne y List.mem_cons_self
    have ih := ih fun z hz => hne z (List.mem_cons_of_mem _ hz)
    rw [setInsert]
    split
    · simp
    · rw [if_pos (by omega), total_cons, ih, total_cons]
      omega

/-- Disjoint substrings lie one after the other. -/
theorem Reshaping.before_or_after (hP : Reshaping P) {y : Segment} (hx : P x) (hy : P y)
    (h : ∀ k, Covers x k → ¬ Covers y k) :
    x.idx + x.length ≤ y.idx ∨ y.idx + y.length ≤ x.idx := by
  have hpx := hP.length_pos hx
  have hpy := hP.length_pos hy
  -- overlapping substrings have the larger of their starts in common
  have hmax := h (max x.idx y.idx)
  simp only [Interval.Covers] at hmax
  omega

theorem separated_setInsert (hP : Reshaping P) (hseg : P seg) (hl : Separated l)
    (hpieces : ∀ y ∈ l, P y) (hdisj : ∀ y ∈ l, ∀ k, Covers y k → ¬ Covers seg k) :
    Separated (setInsert seg l) := by
  have hpos := hP.length_pos hseg
  induction l with
  | nil => simp [setInsert, Interval.Separated]
  | cons y l ih =>
    obtain ⟨hhead, htail⟩ := List.pairwise_cons.mp hl
    have hy := hpieces y List.mem_cons_self
    have hypos := hP.length_pos hy
    have horder := hP.before_or_after hy hseg (hdisj y List.mem_cons_self)
    rw [setInsert]
    split
    · -- before all others
      refine List.pairwise_cons.mpr ⟨?_, hl⟩
      intro z hz
      rcases List.mem_cons.mp hz with rfl | hz
      · omega
      · have := hhead z hz
        omega
    · rw [if_pos (by omega)]
      -- a disjoint substring starts elsewhere, so the insertion does not drop `seg`
      have hne : ∀ z ∈ l, z.idx ≠ seg.idx := by
        intro z hz heq
        have hzp := hpieces z (List.mem_cons_of_mem _ hz)
        exact hdisj z (List.mem_cons_of_mem _ hz) z.idx (hP.covers_idx hzp)
          (heq ▸ hP.covers_idx hseg)
      refine List.pairwise_cons.mpr ⟨?_, ?_⟩
      · intro z hz
        rcases (mem_setInsert hne).mp hz with rfl | hz
        · omega
        · exact hhead z hz
      · exact ih htail (fun z hz => hpieces z (List.mem_cons_of_mem _ hz))
          fun z hz => hdisj z (List.mem_cons_of_mem _ hz)

end SetInsert

/-! ## §3 Absorbing the overlapping substrings -/

/-- `m'` is `m` grown by the substrings that `r'` no longer stores. -/
structure Absorbed (P : Segment → Prop) (r : StreamReassembler) (m : Segment)
    (r' : StreamReassembler) (m' : Segment) : Prop where
  -- only the set and its size have changed
  frame : r' = { r with buf := r'.buf, unassembledBytes := r'.unassembledBytes }
  piece : P m'
  subset : r'.buf ⊆ r.buf
  separated : Separated r'.buf
  count : r'.unassembledBytes + total r.buf = r.unassembledBytes + total r'.buf
  -- the substring has grown at both ends and meets nothing that is left
  start_le : m'.idx ≤ m.idx
  stop_le : m.idx + m.length ≤ m'.idx + m'.length
  disjoint : ∀ x ∈ r'.buf, ∀ k, Covers x k → ¬ Covers m' k
  cover : ∀ k, Covered r'.buf k ∨ Covers m' k ↔ Covered r.buf k ∨ Covers m k

/-- The stored substrings are `l` once `iter` has been taken out. -/
structure Erased (r : StreamReassembler) (iter : Segment) (l : List Segment) : Prop where
  buf : (r.bufErase iter).buf = l
  subset : l ⊆ r.buf
  separated : Separated l
  total : total r.buf = total l + iter.length
  count : (r.bufErase iter).unassembledBytes + iter.length = r.unassembledBytes
  cover : ∀ k, Covered r.buf k ↔ Covered l k ∨ Covers iter k
  disjoint : ∀ x ∈ l, ∀ k, Covers x k → ¬ Covers iter k

theorem bufErase_spec {r : StreamReassembler} {kept rest : List Segment} {iter : Segment}
    (hbuf : r.buf = kept ++ iter :: rest) (hsep : Separated r.buf) (hpos : 0 < iter.length)
    (hcount : total r.buf ≤ r.unassembledBytes) : Erased r iter (kept ++ rest) := by
  rw [hbuf] at hsep hcount
  obtain ⟨-, htail, hcross⟩ := List.pairwise_append.mp hsep
  have hnot : iter ∉ kept := by
    intro hmem
    have := hcross iter hmem iter List.mem_cons_self
    omega
  constructor
  case buf => rw [bufErase, hbuf, List.erase_append_right _ hnot, List.erase_cons_head]
  case subset =>
    rw [hbuf]
    intro x hx
    rcases List.mem_append.mp hx with hx | hx
    · exact List.mem_append_left _ hx
    · exact List.mem_append_right _ (List.mem_cons_of_mem _ hx)
  case separated =>
    exact List.Pairwise.sublist
      ((List.Sublist.refl kept).append (List.sublist_cons_self iter rest)) hsep
  case total =>
    rw [hbuf, total_append, total_append, total_cons]
    omega
  case count =>
    rw [total_append, total_cons] at hcount
    rw [bufErase]
    dsimp only
    omega
  case cover =>
    intro k
    simp only [hbuf, Covered, Interval.covered_append, Interval.covered_cons, or_assoc]
    exact or_congr_right or_comm
  case disjoint =>
    intro x hx k hxk hik
    simp only [Interval.Covers] at hxk hik
    rcases List.mem_append.mp hx with hx | hx
    · have := hcross x hx iter List.mem_cons_self
      omega
    · have := (List.pairwise_cons.mp htail).1 x hx
      omega

/-- **The loop of `_handle_overlap`.**  `kept` are the stored substrings already passed over.
    The grown substring meets the stored ones only inside the bounds `[lo, hi]` it started with,
    because the stored ones are disjoint from each other. -/
theorem overlapLoop_spans {P : Segment → Prop} (hP : Reshaping P) {lo hi : ℕ} (hlohi : lo ≤ hi) :
    ∀ (l kept : List Segment) (r : StreamReassembler) (m : Segment),
      r.buf = kept ++ l → Separated r.buf → (∀ x ∈ r.buf, P x) →
      total r.buf ≤ r.unassembledBytes →
      P m → m.idx ≤ lo → hi < m.idx + m.length →
      (∀ x ∈ r.buf, ∀ k, Covers x k → Covers m k → lo ≤ k ∧ k ≤ hi) →
      (∀ x ∈ kept, ∀ k, Covers x k → ¬ (lo ≤ k ∧ k ≤ hi)) →
      ∃ r' m', overlapLoop lo hi l r m = .ok (r', m') ∧ Absorbed P r m r' m' := by
  intro l
  induction l with
  | nil =>
    intro kept r m hbuf hsep _ _ hm _ _ hmeet hkept
    rw [List.append_nil] at hbuf
    refine ⟨r, m, rfl, rfl, hm, List.Subset.refl _, hsep, rfl, Nat.le_refl _, Nat.le_refl _,
      ?_, fun _ => Iff.rfl⟩
    intro x hx k hxk hmk
    exact hkept x (hbuf ▸ hx) k hxk (hmeet x hx k hxk hmk)
  | cons iter rest ih =>
    intro kept r m hbuf hsep hpieces hcount hm hlo hhi hmeet hkept
    have hiterMem : iter ∈ r.buf := by rw [hbuf]; simp
    have hiter := hpieces iter hiterMem
    have hpos := hP.length_pos hiter
    have hoverlap := overlaps_iff hP hiter hlohi
    rw [overlapLoop]
    by_cases hov : overlaps lo hi iter = true
    · -- the substring is merged and erased
      rw [if_pos hov]
      obtain ⟨hle, hlt⟩ := hoverlap.mp hov
      obtain ⟨m₁, hmerge, hm₁, hidx, hstop⟩ :=
        mergeSeg_spans hP hm hiter (by omega) (by omega)
      -- merging loses no index and adds none
      have hgrown : ∀ k, Covers m₁ k ↔ Covers m k ∨ Covers iter k := by
        intro k
        simp only [Interval.Covers]
        omega
      have herased := bufErase_spec hbuf hsep hpos hcount
      have hbuf₁ := herased.buf
      have hsub : (r.bufErase iter).buf ⊆ r.buf := hbuf₁ ▸ herased.subset
      have htotal : total r.buf = total (r.bufErase iter).buf + iter.length :=
        hbuf₁ ▸ herased.total
      have hcount₁ := herased.count
      -- what has been merged meets no other stored substring
      have hmeet₁ : ∀ x ∈ (r.bufErase iter).buf, ∀ k, Covers x k → Covers m₁ k →
          lo ≤ k ∧ k ≤ hi := by
        intro x hx k hxk hm₁k
        rcases (hgrown k).mp hm₁k with hmk | hik
        · exact hmeet x (hsub hx) k hxk hmk
        · exact absurd hik (herased.disjoint x (hbuf₁ ▸ hx) k hxk)
      obtain ⟨r', m', hrun, habs⟩ := ih kept (r.bufErase iter) m₁ hbuf₁
        (hbuf₁ ▸ herased.separated) (fun x hx => hpieces x (hsub hx)) (by omega) hm₁
        (by omega) (by omega) hmeet₁ hkept
      refine ⟨r', m', ?_, ?_⟩
      · rw [hmerge]
        exact hrun
      · refine ⟨?_, habs.piece, fun _ hx => hsub (habs.subset hx), habs.separated, ?_,
          ?_, ?_, habs.disjoint, ?_⟩
        · exact habs.frame
        · have := habs.count
          omega
        · have := habs.start_le
          omega
        · have := habs.stop_le
          omega
        · intro k
          rw [habs.cover k, herased.cover k, hgrown k, hbuf₁, or_assoc]
          exact or_congr_right or_comm
    · -- the substring is passed over
      rw [if_neg hov]
      refine ih (kept ++ [iter]) r m (by rw [hbuf]; simp) hsep hpieces hcount hm hlo hhi hmeet ?_
      intro x hx k hxk
      rcases List.mem_append.mp hx with hx | hx
      · exact hkept x hx k hxk
      · rw [List.mem_singleton.mp hx] at hxk
        rw [hoverlap] at hov
        simp only [Interval.Covers] at hxk
        omega

/-! ## §4 Storing a substring -/

/-- The set of stored substrings while a push is being handled. -/
structure StoredAs (P : Segment → Prop) (r : StreamReassembler) : Prop where
  separated : Separated r.buf
  pieces : ∀ seg ∈ r.buf, P seg
  above : ∀ seg ∈ r.buf, r.firstUnassembled ≤ seg.idx
  -- `_buf.clear()` does not reset the counter
  count : total r.buf ≤ r.unassembledBytes

/-- `r'` is `r` with the substring `t` stored, grown by those it overlaps. -/
structure InsertedAs (P : Segment → Prop) (r : StreamReassembler) (t : Segment)
    (r' : StreamReassembler) : Prop where
  stored : StoredAs P r'
  frame : r' = { r with buf := r'.buf, unassembledBytes := r'.unassembledBytes }
  count : r'.unassembledBytes + total r.buf = r.unassembledBytes + total r'.buf
  cover : ∀ k, Covered r'.buf k ↔ Covered r.buf k ∨ Covers t k
  grown : ∃ m ∈ r'.buf, m.idx ≤ t.idx ∧ t.idx + t.length ≤ m.idx + m.length ∧
    ∀ x ∈ r'.buf, x = m ∨ x ∈ r.buf

section Storing

variable {P : Segment → Prop} {r : StreamReassembler} {seg : Segment}

/-- The loop started with the new substring absorbs all that it overlaps. -/
theorem StoredAs.absorbed (hP : Reshaping P) (h : StoredAs P r) (hseg : P seg) :
    ∃ r₁ m, overlapLoop seg.idx seg.tailIdx r.buf r seg = .ok (r₁, m) ∧ Absorbed P r seg r₁ m := by
  have hpos := hP.length_pos hseg
  have htail := hP.tailIdx_eq hseg
  have hinit : ∀ x ∈ r.buf, ∀ k, Covers x k → Covers seg k → seg.idx ≤ k ∧ k ≤ seg.tailIdx := by
    intro x _ k _ hk
    simp only [Interval.Covers] at hk
    omega
  exact overlapLoop_spans hP (by omega : seg.idx ≤ seg.tailIdx) r.buf [] r seg rfl h.separated
    h.pieces h.count hseg (Nat.le_refl _) (by omega) hinit (by simp)

/-- What is left is disjoint from the grown substring, so it starts elsewhere. -/
theorem Absorbed.idx_ne (hP : Reshaping P) (h : StoredAs P r) {r₁ : StreamReassembler}
    {m : Segment} (habs : Absorbed P r seg r₁ m) : ∀ x ∈ r₁.buf, x.idx ≠ m.idx := by
  intro x hx heq
  exact habs.disjoint x hx x.idx (hP.covers_idx (h.pieces x (habs.subset hx)))
    (heq ▸ hP.covers_idx habs.piece)

/-- The insertion of the grown substring takes place. -/
theorem Absorbed.mem_bufInsert (hP : Reshaping P) (h : StoredAs P r) {r₁ : StreamReassembler}
    {m : Segment} (habs : Absorbed P r seg r₁ m) (x : Segment) :
    x ∈ (r₁.bufInsert m).buf ↔ x = m ∨ x ∈ r₁.buf :=
  mem_setInsert (habs.idx_ne hP h)

/-- **`_handle_overlap`** stores the new substring. -/
theorem handleOverlap_spans (hP : Reshaping P) (h : StoredAs P r) (hseg : P seg)
    (habove : r.firstUnassembled ≤ seg.idx) :
    ∃ r', r.handleOverlap seg = .ok r' ∧ InsertedAs P r seg r' := by
  obtain ⟨r₁, m, hrun, habs⟩ := h.absorbed hP hseg
  have hpieces₁ : ∀ x ∈ r₁.buf, P x := fun x hx => h.pieces x (habs.subset hx)
  have hne := habs.idx_ne hP h
  have hmem := habs.mem_bufInsert hP h
  have hcover : ∀ k, Covered (r₁.bufInsert m).buf k ↔ Covered r.buf k ∨ Covers seg k := by
    intro k
    rw [← habs.cover k]
    simp only [Interval.Covered, hmem, or_and_right, exists_or, exists_eq_left]
    exact or_comm
  have hpieces : ∀ x ∈ (r₁.bufInsert m).buf, P x := by
    intro x hx
    rcases (hmem x).mp hx with rfl | hx
    · exact habs.piece
    · exact hpieces₁ x hx
  have hcount : (r₁.bufInsert m).unassembledBytes + total r.buf =
      r.unassembledBytes + total (r₁.bufInsert m).buf := by
    have hold := habs.count
    rw [bufInsert]
    dsimp only
    rw [total_setInsert hne]
    omega
  have hstored : StoredAs P (r₁.bufInsert m) := by
    refine ⟨?_, hpieces, ?_, ?_⟩
    · exact separated_setInsert hP habs.piece habs.separated hpieces₁ habs.disjoint
    · -- the start of every stored substring was an index of an old one or of the new one
      intro x hx
      have hfu : (r₁.bufInsert m).firstUnassembled = r.firstUnassembled := by
        rw [habs.frame]
        rfl
      rw [hfu]
      rcases (hcover x.idx).mp ⟨x, hx, hP.covers_idx (hpieces x hx)⟩ with ⟨y, hy, hyx⟩ | hnew
      · exact (h.above y hy).trans hyx.1
      · exact habove.trans hnew.1
    · have := h.count
      omega
  refine ⟨r₁.bufInsert m, ?_, hstored, ?_, hcount, hcover, m, (hmem m).mpr (.inl rfl),
    habs.start_le, habs.stop_le, ?_⟩
  · rw [handleOverlap, hrun]
    rfl
  · rw [habs.frame]
    rfl
  · intro x hx
    exact ((hmem x).mp hx).imp_right fun hx => habs.subset hx

theorem cutLeft_spans (hP : Reshaping P) (hseg : P seg)
    (hhigh : r.firstUnassembled < seg.idx + seg.length) :
    ∃ t, r.cutLeft seg = .ok t ∧ P t ∧ t.idx = max seg.idx r.firstUnassembled ∧
      t.idx + t.length = seg.idx + seg.length := by
  have htail := hP.tailIdx_eq hseg
  unfold cutLeft
  split
  · rename_i hcut
    have hle : r.firstUnassembled - seg.idx ≤ seg.data.length := by
      have : seg.data.length = seg.length := rfl
      omega
    have hpiece := hP.dropTo hseg hcut.1.le hhigh
    rw [substr_of_le hle, List.take_of_length_le (by simp)]
    refine ⟨_, rfl, hpiece, ?_, ?_⟩
    · show r.firstUnassembled = _
      omega
    · simp only [Segment.length, List.length_drop] at *
      omega
  · exact ⟨seg, rfl, hseg, by omega, rfl⟩

theorem cutRight_spans (hP : Reshaping P) {index : ℕ} (hseg : P seg)
    (hlow : index < r.firstUnacceptable) (hindex : index ≤ seg.idx) :
    ∃ t, r.cutRight index seg = .ok t ∧ P t ∧ t.idx = seg.idx ∧
      t.idx + t.length = min (seg.idx + seg.length) (t.idx + (r.firstUnacceptable - index)) := by
  have htail := hP.tailIdx_eq hseg
  have hpos := hP.length_pos hseg
  unfold cutRight
  split
  · rw [substr_of_le (Nat.zero_le _)]
    refine ⟨_, rfl, hP.take hseg (by omega), rfl, ?_⟩
    simp only [Segment.length, List.drop_zero, List.length_take] at *
    omega
  · exact ⟨seg, rfl, hseg, rfl, by omega⟩

/-- **The cuts of `_handle_substring`.**  The first one moves the start to
    `first_unassembled()`.  The second one measures from the old start, so a substring that
    sticks out of the window at both ends is left too long. -/
theorem truncate_spans (hP : Reshaping P) (hseg : P seg) (hlow : seg.idx < r.firstUnacceptable)
    (hhigh : r.firstUnassembled < seg.idx + seg.length) :
    ∃ t, r.truncate seg = .ok t ∧ P t ∧ t.idx = max seg.idx r.firstUnassembled ∧
      t.idx + t.length =
        min (seg.idx + seg.length) (t.idx + (r.firstUnacceptable - seg.idx)) := by
  obtain ⟨cut, hleft, hcut, hidx, hstop⟩ := cutLeft_spans hP hseg hhigh
  obtain ⟨t, hright, ht, hidx', hstop'⟩ := cutRight_spans hP hcut hlow (by omega)
  refine ⟨t, ?_, ht, by omega, by omega⟩
  rw [truncate, hleft]
  exact hright

/-- With nothing stored, inserting is what `_handle_overlap` does. -/
theorem handleSubstring_eq
    (h : ¬ (r.firstUnacceptable ≤ seg.idx ∨ seg.tailIdx < r.firstUnassembled)) :
    r.handleSubstring seg = (r.truncate seg).bind r.handleOverlap := by
  unfold handleSubstring
  rw [if_neg h]
  cases r.truncate seg with
  | error e => rfl
  | ok t =>
    by_cases hnil : r.buf = []
    · simp [bind, Except.bind, hnil, handleOverlap, overlapLoop]
    · simp [bind, Except.bind, hnil]

/-- The part of a pushed substring that `_handle_substring` stores. -/
structure KeptAs (P : Segment → Prop) (r : StreamReassembler) (seg t : Segment) : Prop where
  piece : P t
  -- it has an index in the window
  low : seg.idx < r.firstUnacceptable
  high : r.firstUnassembled < seg.idx + seg.length
  -- the start is right, the end is measured from the old start
  idx : t.idx = max seg.idx r.firstUnassembled
  stop : t.idx + t.length =
    min (seg.idx + seg.length) (t.idx + (r.firstUnacceptable - seg.idx))

/-- **`_handle_substring`** either ignores the substring, which then lies outside the window,
    or stores what the cuts leave of it. -/
theorem handleSubstring_spans (hP : Reshaping P) (h : StoredAs P r) (hseg : P seg) :
    ((r.firstUnacceptable ≤ seg.idx ∨ seg.idx + seg.length ≤ r.firstUnassembled) ∧
      r.handleSubstring seg = .ok r) ∨
    ∃ t r', r.truncate seg = .ok t ∧ KeptAs P r seg t ∧ r.handleOverlap t = .ok r' ∧
      r.handleSubstring seg = .ok r' ∧ InsertedAs P r t r' := by
  have htail := hP.tailIdx_eq hseg
  have hpos := hP.length_pos hseg
  by_cases hdrop : r.firstUnacceptable ≤ seg.idx ∨ seg.tailIdx < r.firstUnassembled
  · left
    refine ⟨by omega, ?_⟩
    unfold handleSubstring
    rw [if_pos hdrop]
  · right
    obtain ⟨t, htrunc, ht, hidx, hstop⟩ := truncate_spans (r := r) hP hseg (by omega) (by omega)
    obtain ⟨r', hrun, hinserted⟩ := handleOverlap_spans hP h ht (by omega)
    refine ⟨t, r', htrunc, ⟨ht, by omega, by omega, hidx, hstop⟩, hrun, ?_, hinserted⟩
    rw [handleSubstring_eq hdrop, htrunc]
    exact hrun

end Storing

/-! ## §5 Frames -/

section Frames

variable {r r' : StreamReassembler}

/-- Only the set and its size change in the loop of `_handle_overlap`. -/
theorem overlapLoop_frame {lo hi : ℕ} : ∀ (l : List Segment) (r : StreamReassembler)
    (m : Segment) {r' : StreamReassembler} {m' : Segment},
    overlapLoop lo hi l r m = .ok (r', m') →
      r' = { r with buf := r'.buf, unassembledBytes := r'.unassembledBytes } := by
  intro l
  induction l with
  | nil =>
    intro r m r' m' hrun
    cases hrun
    rfl
  | cons iter rest ih =>
    intro r m r' m' hrun
    rw [overlapLoop] at hrun
    split at hrun
    · cases hmerge : mergeSeg m iter with
      | error e =>
        rw [hmerge] at hrun
        cases hrun
      | ok merged =>
        rw [hmerge] at hrun
        exact ih (r.bufErase iter) merged hrun
    · exact ih r m hrun

theorem handleOverlap_frame {seg : Segment} (hrun : r.handleOverlap seg = .ok r') :
    r' = { r with buf := r'.buf, unassembledBytes := r'.unassembledBytes } := by
  rw [handleOverlap] at hrun
  cases hloop : overlapLoop seg.idx seg.tailIdx r.buf r seg with
  | error e =>
    rw [hloop] at hrun
    cases hrun
  | ok p =>
    obtain ⟨r₁, m⟩ := p
    rw [hloop] at hrun
    cases hrun
    rw [overlapLoop_frame _ _ _ hloop]
    rfl

theorem handleSubstring_frame {seg : Segment} (hrun : r.handleSubstring seg = .ok r') :
    r' = { r with buf := r'.buf, unassembledBytes := r'.unassembledBytes } := by
  by_cases hdrop : r.firstUnacceptable ≤ seg.idx ∨ seg.tailIdx < r.firstUnassembled
  · rw [handleSubstring, if_pos hdrop] at hrun
    cases hrun
    rfl
  · rw [handleSubstring_eq hdrop] at hrun
    cases htrunc : r.truncate seg with
    | error e =>
      rw [htrunc] at hrun
      cases hrun
    | ok t =>
      rw [htrunc] at hrun
      exact handleOverlap_frame hrun

theorem store_frame {data : Bytes} {index : UInt64} (hrun : r.store data index = .ok r') :
    r' = { r with buf := r'.buf, unassembledBytes := r'.unassembledBytes } := by
  rw [store] at hrun
  split at hrun
  · cases hrun
    rfl
  · exact handleSubstring_frame hrun

end Frames

end StreamReassembler

end Sponge
