import Sponge.Reassembler.Capacity

/-!
# The Stored Bytes

Substrings that overlap may disagree about the bytes they have in common.  `_merge_seg` lets the
stored bytes win in three of its four cases.  In the fourth one, where the stored substring lies
strictly inside the new one, it keeps the new substring as it is.

- `byteOf seg k`, `byteAt r k`: the byte that a substring or a reassembler has at an index
- `mergeSeg_byteOf`, `overlapLoop_byteOf`: the rule, for one merge and for all merges of a push
- `Running.push`: what a push does to the bytes, as `Decided`
-/

namespace Sponge

namespace StreamReassembler

/-! ## §1 Bytes -/

/-- The byte of a substring at the stream index `k`. -/
def byteOf (seg : Segment) (k : ℕ) : Option Byte :=
  if seg.idx ≤ k then seg.data[k - seg.idx]? else none

/-- The byte that a list of substrings has at `k`. -/
abbrev storedByte (l : List Segment) (k : ℕ) : Option Byte :=
  Interval.lookup byteOf l k

/-- The byte written or stored at `k`. -/
def byteAt (r : StreamReassembler) (k : ℕ) : Option Byte :=
  (r.output.written[k]?).or (storedByte r.buf k)

section Bytes

variable {r : StreamReassembler} {seg x a b : Segment} {l : List Segment} {k : ℕ}

theorem byteOf_eq_none_iff (seg : Segment) (k : ℕ) : byteOf seg k = none ↔ ¬ Covers seg k := by
  unfold byteOf
  split
  · rw [List.getElem?_eq_none_iff]
    simp only [Interval.Covers, Segment.length]
    omega
  · rename_i hlow
    exact iff_of_true rfl fun hk => hlow hk.1

theorem byteOf_of_not_covers (h : ¬ Covers seg k) : byteOf seg k = none :=
  (byteOf_eq_none_iff seg k).mpr h

theorem exists_byteOf (h : Covers seg k) : ∃ b, byteOf seg k = some b := by
  rw [← Option.ne_none_iff_exists']
  exact fun hnone => (byteOf_eq_none_iff seg k).mp hnone h

theorem storedByte_eq_none_iff : storedByte l k = none ↔ ¬ Covered l k :=
  Interval.lookup_eq_none_iff byteOf_eq_none_iff

theorem storedByte_of_mem (hl : Separated l) (hx : x ∈ l) (hk : Covers x k) :
    storedByte l k = byteOf x k :=
  hl.lookup_eq byteOf_eq_none_iff hx hk

theorem byteAt_of_lt (h : k < r.firstUnassembled) : r.byteAt k = r.output.written[k]? := by
  rw [firstUnassembled_eq] at h
  rw [byteAt, List.getElem?_eq_getElem h, Option.some_or]

theorem byteAt_of_le (h : r.firstUnassembled ≤ k) : r.byteAt k = storedByte r.buf k := by
  rw [firstUnassembled_eq] at h
  rw [byteAt, List.getElem?_eq_none h, Option.none_or]

/-- A slice of `S` has the bytes of `S`. -/
theorem byteOf_of_slice {S : Bytes} (h : Slice.At S seg.idx seg.data) (hk : Covers seg k) :
    byteOf seg k = S[k]? := by
  obtain ⟨hle, hlt⟩ := hk
  have hlt : k - seg.idx < seg.data.length := by
    simp only [Segment.length] at hlt
    omega
  rw [byteOf, if_pos hle, List.getElem?_eq_getElem hlt, h.getElem hlt, List.getElem_drop,
    ← List.getElem?_eq_getElem]
  congr 1
  omega

end Bytes

/-! ## §2 Merging -/

section Merge

variable {a b : Segment}

/-- The stored substring `b` preferred, at the end of the new one. -/
theorem byteOf_splice (hle : a.idx ≤ b.idx) (hmeet : b.idx ≤ a.idx + a.length)
    (hpast : a.idx + a.length ≤ b.idx + b.length) (k : ℕ) :
    byteOf { idx := a.idx, data := a.data.take (b.idx - a.idx) ++ b.data } k =
      (byteOf b k).or (byteOf a k) := by
  simp only [Segment.length] at hmeet hpast
  simp only [byteOf]
  rcases Nat.lt_or_ge k a.idx with hlow | hlow
  · rw [if_neg (by omega), if_neg (by omega), if_neg (by omega)]
    rfl
  rw [if_pos hlow, if_pos hlow, List.getElem?_append, List.length_take]
  rcases Nat.lt_or_ge k b.idx with hk | hk
  · rw [if_pos (by omega), if_neg (by omega), List.getElem?_take_of_lt (by omega), Option.none_or]
  · rw [if_neg (by omega), if_pos hk]
    have hpos : k - a.idx - min (b.idx - a.idx) a.data.length = k - b.idx := by omega
    rw [hpos]
    -- where `b` ends, `a` has ended
    rcases Nat.lt_or_ge (k - b.idx) b.data.length with hin | hout
    · rw [List.getElem?_eq_getElem hin, Option.some_or]
    · rw [List.getElem?_eq_none hout, List.getElem?_eq_none (by omega), Option.none_or]

/-- The stored substring `b` preferred, at the start of the new one. -/
theorem byteOf_extend (hle : b.idx ≤ a.idx) (hmeet : a.idx ≤ b.idx + b.length) (k : ℕ) :
    byteOf { idx := b.idx, data := b.data ++ a.data.drop (b.idx + b.length - a.idx) } k =
      (byteOf b k).or (byteOf a k) := by
  simp only [Segment.length] at hmeet ⊢
  simp only [byteOf]
  rcases Nat.lt_or_ge k b.idx with hlow | hlow
  · rw [if_neg (by omega), if_neg (by omega), if_neg (by omega)]
    rfl
  rw [if_pos hlow, if_pos hlow, List.getElem?_append]
  rcases Nat.lt_or_ge (k - b.idx) b.data.length with hin | hout
  · rw [if_pos hin, List.getElem?_eq_getElem hin, Option.some_or]
  · rw [if_neg (by omega), List.getElem?_eq_none hout, Option.none_or, if_pos (by omega),
      List.getElem?_drop]
    congr 1
    omega

/-- The stored substring `x` lies strictly inside `[lo, stop)`. -/
def Inside (lo stop : ℕ) (x : Segment) : Prop :=
  lo < x.idx ∧ x.idx + x.length < stop

instance (lo stop : ℕ) (x : Segment) : Decidable (Inside lo stop x) :=
  inferInstanceAs (Decidable (_ ∧ _))

/-- **The rule of `_merge_seg`.**  The stored bytes win, unless the stored substring lies strictly
    inside the new one. -/
theorem mergeSeg_byteOf {m : Segment} (ha : Solid a) (hb : Solid b)
    (hba : b.idx < a.idx + a.length) (hab : a.idx < b.idx + b.length)
    (hrun : mergeSeg a b = .ok m) (k : ℕ) :
    byteOf m k = if Inside a.idx (a.idx + a.length) b then byteOf a k
      else (byteOf b k).or (byteOf a k) := by
  rcases mergeSeg_cases reshaping_solid ha hb hba hab with
    ⟨hidx, hstop, hmerge⟩ | ⟨hidx, hstop, hmerge⟩ | ⟨hidx, hstop, hmerge⟩ | ⟨hidx, hstop, hmerge⟩
  · rw [Except.ok.inj (hrun.symm.trans hmerge), if_neg (by simp only [Inside]; omega)]
    exact byteOf_splice hidx.le hba.le hstop k
  · rw [Except.ok.inj (hrun.symm.trans hmerge), if_neg (by simp only [Inside]; omega)]
    exact byteOf_extend hidx hab.le k
  · rw [Except.ok.inj (hrun.symm.trans hmerge), if_neg (by simp only [Inside]; omega)]
    by_cases hk : Covers b k
    · obtain ⟨y, hy⟩ := exists_byteOf hk
      rw [hy, Option.some_or]
    · have hak : ¬ Covers a k := by
        simp only [Interval.Covers] at hk ⊢
        omega
      rw [byteOf_of_not_covers hk, byteOf_of_not_covers hak, Option.or_none]
  · rw [Except.ok.inj (hrun.symm.trans hmerge), if_pos (by simp only [Inside]; omega)]

/-- `m'` is `m` with the bytes of the stored substrings of `l` that meet `[lo, hi]`, except those
    that lie strictly inside. -/
structure Overwritten (lo hi : ℕ) (l : List Segment) (m m' : Segment) : Prop where
  wins : ∀ x ∈ l, overlaps lo hi x = true → ¬ Inside lo (hi + 1) x → ∀ k, Covers x k →
    byteOf m' k = byteOf x k
  loses : ∀ k, (∀ x ∈ l, overlaps lo hi x = true → ¬ Inside lo (hi + 1) x → ¬ Covers x k) →
    byteOf m' k = byteOf m k

/-- While `m` grows, a stored substring lies strictly inside it exactly if it lay strictly inside
    the substring that was pushed. -/
theorem inside_grown_iff {lo hi : ℕ} {m x : Segment} (hx : Solid x) (hlohi : lo ≤ hi)
    (hov : overlaps lo hi x = true) (hlow : m.idx ≤ lo) (hhigh : hi < m.idx + m.length)
    (hleft : Covers x lo → m.idx = lo) (hright : Covers x hi → m.idx + m.length = hi + 1) :
    Inside m.idx (m.idx + m.length) x ↔ Inside lo (hi + 1) x := by
  obtain ⟨hle, hlt⟩ := (overlaps_iff reshaping_solid hx hlohi).mp hov
  have hpos := reshaping_solid.length_pos hx
  simp only [Interval.Covers] at hleft hright
  simp only [Inside]
  omega

/-- **The loop of `_handle_overlap`, byte by byte.**  The stored substrings are disjoint, so at
    most one of them has a say about an index. -/
theorem overlapLoop_byteOf {lo hi : ℕ} (hlohi : lo ≤ hi) :
    ∀ (l : List Segment) (r : StreamReassembler) (m : Segment) {r' : StreamReassembler}
      {m' : Segment}, overlapLoop lo hi l r m = .ok (r', m') → Separated l →
      (∀ x ∈ l, Solid x) → Solid m → m.idx ≤ lo → hi < m.idx + m.length →
      (∀ x ∈ l, Covers x lo → m.idx = lo) →
      (∀ x ∈ l, Covers x hi → m.idx + m.length = hi + 1) →
      Overwritten lo hi l m m' := by
  intro l
  induction l with
  | nil =>
    intro r m r' m' hrun _ _ _ _ _ _ _
    cases hrun
    exact ⟨by simp, fun _ _ => rfl⟩
  | cons iter rest ih =>
    intro r m r' m' hrun hsep hsolid hm hlow hhigh hleft hright
    have hiter := hsolid iter List.mem_cons_self
    have hpos := reshaping_solid.length_pos hiter
    obtain ⟨hhead, htail⟩ := List.pairwise_cons.mp hsep
    have hrest : ∀ x ∈ rest, Solid x := fun x hx => hsolid x (List.mem_cons_of_mem _ hx)
    have hiff := overlaps_iff reshaping_solid hiter hlohi
    rw [overlapLoop] at hrun
    by_cases hov : overlaps lo hi iter = true
    · -- the substring is merged
      rw [if_pos hov] at hrun
      obtain ⟨hle, hlt⟩ := hiff.mp hov
      obtain ⟨m₁, hmerge, hm₁, hidx, hstop⟩ :=
        mergeSeg_spans reshaping_solid hm hiter (by omega) (by omega)
      rw [hmerge] at hrun
      have hbytes := mergeSeg_byteOf hm hiter (by omega) (by omega) hmerge
      simp only [inside_grown_iff hiter hlohi hov hlow hhigh (hleft iter List.mem_cons_self)
        (hright iter List.mem_cons_self)] at hbytes
      have hleft₁ : ∀ x ∈ rest, Covers x lo → m₁.idx = lo := by
        intro x hx hxlo
        have h₁ := hleft x (List.mem_cons_of_mem _ hx) hxlo
        have h₂ := hhead x hx
        simp only [Interval.Covers] at hxlo
        omega
      have hright₁ : ∀ x ∈ rest, Covers x hi → m₁.idx + m₁.length = hi + 1 := by
        intro x hx hxhi
        have h₁ := hright x (List.mem_cons_of_mem _ hx) hxhi
        have h₂ := hhead x hx
        simp only [Interval.Covers] at hxhi
        omega
      have hafter := ih (r.bufErase iter) m₁ hrun htail hrest hm₁ (by omega) (by omega) hleft₁
        hright₁
      constructor
      · intro x hx hxov hxin k hk
        rcases List.mem_cons.mp hx with rfl | hx
        · rw [hafter.loses k fun y hy _ _ hyk => hsep.not_covered_tail hk ⟨y, hy, hyk⟩,
            hbytes k, if_neg hxin]
          obtain ⟨y, hy⟩ := exists_byteOf hk
          rw [hy, Option.some_or]
        · exact hafter.wins x hx hxov hxin k hk
      · intro k hnone
        rw [hafter.loses k fun y hy => hnone y (List.mem_cons_of_mem _ hy), hbytes k]
        split
        · rfl
        · rename_i hin
          rw [byteOf_of_not_covers (hnone iter List.mem_cons_self hov hin), Option.none_or]
    · -- the substring is passed over
      rw [if_neg hov] at hrun
      have hafter := ih r m hrun htail hrest hm hlow hhigh
        (fun x hx => hleft x (List.mem_cons_of_mem _ hx))
        (fun x hx => hright x (List.mem_cons_of_mem _ hx))
      constructor
      · intro x hx hxov hxin k hk
        rcases List.mem_cons.mp hx with rfl | hx
        · exact absurd hxov hov
        · exact hafter.wins x hx hxov hxin k hk
      · exact fun k hnone => hafter.loses k fun y hy => hnone y (List.mem_cons_of_mem _ hy)

end Merge

/-! ## §3 What a push stores -/

section Storing

variable {r r₁ : StreamReassembler} {seg t : Segment} {data : Bytes} {index : UInt64} {k : ℕ}

/-- The loop erases only what meets the new substring. -/
theorem mem_overlapLoop {lo hi : ℕ} {x : Segment} (hx : overlaps lo hi x = false) :
    ∀ (l : List Segment) (r : StreamReassembler) (m : Segment) {r' : StreamReassembler}
      {m' : Segment}, overlapLoop lo hi l r m = .ok (r', m') → x ∈ r.buf → x ∈ r'.buf := by
  intro l
  induction l with
  | nil =>
    intro r m r' m' hrun hmem
    cases hrun
    exact hmem
  | cons iter rest ih =>
    intro r m r' m' hrun hmem
    rw [overlapLoop] at hrun
    split at hrun
    · rename_i hov
      have hne : x ≠ iter := by
        rintro rfl
        rw [hx] at hov
        cases hov
      cases hmerge : mergeSeg m iter with
      | error e =>
        rw [hmerge] at hrun
        cases hrun
      | ok m₁ =>
        rw [hmerge] at hrun
        exact ih (r.bufErase iter) m₁ hrun ((List.mem_erase_of_ne hne).mpr hmem)
    · exact ih r m hrun hmem

/-- The bytes stored in `r₁` are those of `r`, except where a stored substring lies strictly inside
    `[lo, stop)`, and otherwise the bytes `f`. -/
structure StoredOver (r : StreamReassembler) (lo stop : ℕ) (f : ℕ → Option Byte)
    (r₁ : StreamReassembler) : Prop where
  wins : ∀ x ∈ r.buf, ¬ Inside lo stop x → ∀ k, Covers x k → storedByte r₁.buf k = byteOf x k
  loses : ∀ k, (∀ x ∈ r.buf, ¬ Inside lo stop x → ¬ Covers x k) → storedByte r₁.buf k = f k

/-- **`_handle_overlap`, byte by byte.** -/
theorem handleOverlap_byteOf (h : StoredAs Solid r) (ht : Solid t)
    (habove : r.firstUnassembled ≤ t.idx) (hrun : r.handleOverlap t = .ok r₁) :
    StoredOver r t.idx (t.idx + t.length) (byteOf t) r₁ := by
  have hpos := reshaping_solid.length_pos ht
  have htail := reshaping_solid.tailIdx_eq ht
  have hstop : t.tailIdx + 1 = t.idx + t.length := by omega
  obtain ⟨r₂, hrun₂, hins⟩ := handleOverlap_spans reshaping_solid h ht habove
  cases Except.ok.inj (hrun.symm.trans hrun₂)
  obtain ⟨r', m, hloop, habs⟩ := h.absorbed reshaping_solid ht
  rw [handleOverlap, hloop] at hrun
  obtain rfl : r'.bufInsert m = r₁ := Except.ok.inj hrun
  have hmem := habs.mem_bufInsert reshaping_solid h
  have hbytes := overlapLoop_byteOf (by omega) r.buf r t hloop h.separated h.pieces ht
    (Nat.le_refl _) (by omega) (fun _ _ _ => rfl) (fun _ _ _ => hstop.symm)
  have hwins := hbytes.wins
  have hloses := hbytes.loses
  rw [hstop] at hwins hloses
  -- the grown substring speaks for all the indices where it has a byte
  have hgrown : ∀ k b, byteOf m k = some b → storedByte (r'.bufInsert m).buf k = some b := by
    intro k b hb
    have hk : Covers m k := by
      by_contra hk
      rw [byteOf_of_not_covers hk] at hb
      cases hb
    rw [storedByte_of_mem hins.stored.separated ((hmem m).mpr (.inl rfl)) hk, hb]
  constructor
  · intro x hx hout k hk
    cases hov : overlaps t.idx t.tailIdx x with
    | true =>
      obtain ⟨b, hb⟩ := exists_byteOf hk
      rw [hb]
      exact hgrown k b ((hwins x hx hov hout k hk).trans hb)
    | false =>
      have hleft := mem_overlapLoop hov r.buf r t hloop hx
      exact storedByte_of_mem hins.stored.separated ((hmem x).mpr (.inr hleft)) hk
  · intro k hnone
    have hm := hloses k fun x hx _ hout => hnone x hx hout
    by_cases hk : Covers t k
    · obtain ⟨b, hb⟩ := exists_byteOf hk
      rw [hb]
      exact hgrown k b (hm.trans hb)
    · rw [byteOf_of_not_covers hk, storedByte_eq_none_iff, hins.cover]
      rintro (⟨x, hx, hxk⟩ | htk)
      · -- a stored substring that lies inside `t` covers no index outside
        refine hnone x hx (fun hin => hk ?_) hxk
        simp only [Inside] at hin
        simp only [Interval.Covers] at hxk ⊢
        omega
      · exact hk htk

/-- **The cuts of `_handle_substring`** do not change the bytes. -/
theorem KeptAs.byteOf_eq (h : KeptAs Solid r seg t) (hseg : Solid seg)
    (hrun : r.truncate seg = .ok t) (hk : Covers t k) : byteOf t k = byteOf seg k := by
  -- both are slices of the stream that has the substring in its place
  have hslice : Slice.At (List.replicate seg.idx 0 ++ seg.data) seg.idx seg.data := by
    rw [Slice.At, List.drop_left' (List.length_replicate)]
  have hlen : (List.replicate seg.idx (0 : Byte) ++ seg.data).length ≤ 2 ^ 64 := by
    rw [List.length_append, List.length_replicate]
    exact hseg.2
  obtain ⟨t', hrun', ht, -, -⟩ :=
    truncate_spans (reshaping_piece hlen) ⟨hseg.1, hslice⟩ h.low h.high
  cases Except.ok.inj (hrun.symm.trans hrun')
  have hidx := h.idx
  have hstop := h.stop
  have hk' : Covers seg k := by
    simp only [Interval.Covers] at hk ⊢
    omega
  rw [byteOf_of_slice ht.slice hk, byteOf_of_slice hslice hk']

instance : Decidable (r.Admits data index k) :=
  inferInstanceAs (Decidable (_ ∧ _ ∧ _))

/-- The byte that a push stores at `k` if nothing is stored there. -/
def admittedByte (r : StreamReassembler) (data : Bytes) (index : UInt64) (k : ℕ) : Option Byte :=
  if r.Admits data index k then byteOf { idx := index.toNat, data } k else none

/-- The stored substring `x` lies strictly inside what the push admits. -/
abbrev Encloses (r : StreamReassembler) (data : Bytes) (index : UInt64) (x : Segment) : Prop :=
  Inside (max index.toNat r.firstUnassembled) (r.admittedEnd data index) x

theorem Encloses.admits {x : Segment} (h : r.Encloses data index x) (hk : Covers x k) :
    r.Admits data index k := by
  simp only [Encloses, Inside] at h
  simp only [Interval.Covers] at hk
  simp only [Admits]
  unfold admittedEnd at *
  omega

/-- A push that admits nothing. -/
theorem storedOver_nothing (hsep : Separated r.buf) (hnone : ∀ k, ¬ r.Admits data index k) :
    StoredOver r (max index.toNat r.firstUnassembled) (r.admittedEnd data index)
      (r.admittedByte data index) r where
  wins _ hx _ _ hk := storedByte_of_mem hsep hx hk
  loses k hout := by
    rw [admittedByte, if_neg (hnone k), storedByte_eq_none_iff]
    rintro ⟨x, hx, hk⟩
    exact hout x hx (fun hin => hnone k (Encloses.admits hin hk)) hk

/-- **Storing a substring, byte by byte.** -/
theorem Bounded.store_byteOf (h : Bounded r) (hsolid : ∀ seg ∈ r.buf, Solid seg)
    (hfits : index.toNat < r.firstUnacceptable → index.toNat + data.length ≤ 2 ^ 64)
    (hrun : r.store data index = .ok r₁) :
    StoredOver r (max index.toNat r.firstUnassembled) (r.admittedEnd data index)
      (r.admittedByte data index) r₁ := by
  have hstored := (h.crowded hsolid).stored
  rcases hstored.store_cases data index hfits with
    ⟨hrun', hnone⟩ | ⟨t, r₂, htrunc, hkept, hover, hrun', -⟩
  · cases Except.ok.inj (hrun.symm.trans hrun')
    exact storedOver_nothing h.separated hnone
  · cases Except.ok.inj (hrun.symm.trans hrun')
    have hidx : t.idx = max index.toNat r.firstUnassembled := hkept.idx
    have hend : t.idx + t.length = r.admittedEnd data index := by
      rw [hkept.stop, admittedEnd, hidx]
      rfl
    have hbytes := handleOverlap_byteOf hstored hkept.piece (by omega) hover
    rw [hend, hidx] at hbytes
    refine ⟨hbytes.wins, fun k hout => (hbytes.loses k hout).trans ?_⟩
    -- the bytes of `t` are those of the substring, and it has no others
    rw [admittedByte]
    split
    · rename_i hk
      have hseg : Solid { idx := index.toNat, data } := by
        refine ⟨?_, hfits hkept.low⟩
        rintro rfl
        simp only [Admits, admittedEnd, List.length_nil] at hk
        omega
      exact hkept.byteOf_eq hseg htrunc ((hkept.covers_iff k).mpr hk)
    · rename_i hk
      exact byteOf_of_not_covers fun htk => hk ((hkept.covers_iff k).mp htk)

end Storing

/-! ## §4 Flushing -/

section Flush

variable {r : StreamReassembler} {seg : Segment} {rest : List Segment} {k : ℕ}

theorem byteAt_flushed (hopen : r.output.inputEnded = false) (hidx : seg.idx = r.firstUnassembled)
    (hk : k < r.windowEnd) :
    byteAt { r.flushed seg with buf := rest } k = byteAt { r with buf := seg :: rest } k := by
  have hfu := r.firstUnassembled_eq
  simp only [byteAt, flushed, ByteStream.write_written, storedByte, Interval.lookup_cons]
  rw [List.getElem?_append]
  split
  · rename_i hlt
    rw [List.getElem?_eq_getElem hlt, Option.some_or, Option.some_or]
  · rename_i hge
    have hnone : r.output.written[k]? = none := List.getElem?_eq_none (by omega)
    rw [hnone, Option.none_or, accepted_eq_take hopen, List.getElem?_take_of_lt (by omega), byteOf,
      if_pos (by omega), hidx, hfu]

/-- **The flush does not change a byte** inside the window. -/
theorem flushLoop_byteAt : ∀ (l : List Segment) (r : StreamReassembler),
    r.output.inputEnded = false → ∀ k, k < r.windowEnd →
      (flushLoop l r).byteAt k = byteAt { r with buf := l } k := by
  intro l
  induction l with
  | nil => exact fun r _ k _ => rfl
  | cons seg rest ih =>
    intro r hopen k hk
    rw [flushLoop]
    split
    · rename_i hidx
      have hend : (r.flushed seg).windowEnd = r.windowEnd := by simp [windowEnd, flushed]
      rw [← byteAt_flushed hopen hidx hk]
      exact ih (r.flushed seg) (by simpa [flushed] using hopen) k (hend ▸ hk)
    · rfl

/-- Nothing is flushed while nothing continues the output. -/
theorem flush_of_gap (hgap : ∀ seg ∈ r.buf, r.firstUnassembled < seg.idx) : r.flush = r := by
  obtain ⟨output, capacity, eofIndex, unassembledBytes, eof, buf⟩ := r
  cases buf with
  | nil => rfl
  | cons seg rest =>
    have := hgap seg List.mem_cons_self
    rw [flush, flushLoop, if_neg (by omega)]

theorem Bounded.byteAt_of_windowEnd_le (h : Bounded r) (hk : r.windowEnd ≤ k) :
    r.byteAt k = none := by
  have hend := r.firstUnassembled_le_windowEnd
  rw [byteAt_of_le (by omega), storedByte_eq_none_iff]
  rintro ⟨x, hx, hxk⟩
  have := h.inside x hx
  simp only [Interval.Covers] at hxk
  omega

end Flush

/-! ## §5 A push -/

/-- A reassembler whose end has not been announced, between two calls. -/
structure Running (r : StreamReassembler) : Prop extends Bounded r where
  solid : ∀ seg ∈ r.buf, Solid seg
  opened : r.output.inputEnded = false
  unannounced : r.eof = false

/-- What a push does to the bytes.  `wins` and `loses` are the rule of `_merge_seg`. -/
structure Decided (r : StreamReassembler) (data : Bytes) (index : UInt64)
    (r' : StreamReassembler) : Prop where
  running : Running r'
  before : ∀ k, k < r.firstUnassembled → r'.byteAt k = r.byteAt k
  wins : ∀ x ∈ r.buf, ¬ r.Encloses data index x → ∀ k, Covers x k → r'.byteAt k = byteOf x k
  loses : ∀ k, r.firstUnassembled ≤ k → k < r.windowEnd →
    (∀ x ∈ r.buf, ¬ r.Encloses data index x → ¬ Covers x k) →
    r'.byteAt k = r.admittedByte data index k
  beyond : ∀ k, r.windowEnd ≤ k → r'.byteAt k = none

section Push

variable {r r' : StreamReassembler} {data : Bytes} {index : UInt64} {k : ℕ}

theorem finish_of_unannounced (h : r.eof = false) : r.finish = r := by
  simp [finish, h]

theorem Running.byteAt_of_mem (h : Running r) {x : Segment} (hx : x ∈ r.buf) (hk : Covers x k) :
    r.byteAt k = byteOf x k := by
  rw [byteAt_of_le ((h.gap x hx).le.trans hk.1), storedByte_of_mem h.separated hx hk]

/-- The byte that the output waits for is not known. -/
theorem Running.byteAt_firstUnassembled (h : Running r) : r.byteAt r.firstUnassembled = none := by
  rw [byteAt_of_le (Nat.le_refl _), storedByte_eq_none_iff]
  rintro ⟨x, hx, hk⟩
  exact absurd hk.1 (Nat.not_le.mpr (h.gap x hx))

/-- **A push whose last index is a `size_t`, byte by byte.** -/
theorem Running.push (h : Running r) (data : Bytes) (index : UInt64)
    (hfits : index.toNat < r.firstUnacceptable → index.toNat + data.length ≤ 2 ^ 64) :
    ∃ r', r.pushSubstring data index false = .ok r' ∧ Decided r data index r' := by
  obtain ⟨r₁, hstore, hadmitted, hann, hrun⟩ :=
    h.toBounded.admitted h.solid data index false hfits
  have hover := h.toBounded.store_byteOf h.solid hfits hstore
  have hopen : r₁.output.inputEnded = false := hann.output ▸ h.opened
  have heof : r₁.flush.eof = false := by
    rw [r₁.flushes_flush.eof, hann.eof, h.unannounced]
    rfl
  obtain ⟨hbounded, hend⟩ := hadmitted.crowded.flush
  rw [hann.windowEnd_eq] at hend
  -- inside the window the flush leaves every byte where it was
  have hflush : ∀ k, k < r.windowEnd → r₁.flush.byteAt k = r₁.byteAt k := by
    intro k hk
    exact flushLoop_byteAt r₁.buf r₁ hopen k (hann.windowEnd_eq.symm ▸ hk)
  have hwindow := r.firstUnassembled_le_windowEnd
  have hstored : ∀ k, r.firstUnassembled ≤ k → k < r.windowEnd →
      r₁.flush.byteAt k = storedByte r₁.buf k := by
    intro k hlow hk
    rw [hflush k hk, byteAt_of_le (hann.firstUnassembled_eq.symm ▸ hlow)]
  rw [finish_of_unannounced heof] at hrun
  refine ⟨r₁.flush, hrun, ⟨hbounded, ?_, ?_, heof⟩, ?_, ?_, ?_, ?_⟩
  · exact (flushLoop_spans r₁.buf r₁ hadmitted.crowded.stored).stored.pieces
  · rw [r₁.flushes_flush.inputEnded, hopen]
  · intro k hk
    rw [hflush k (by omega), byteAt_of_lt hk,
      byteAt_of_lt (hann.firstUnassembled_eq.symm ▸ hk), hann.output]
  · intro x hx hout k hk
    have hlow := h.gap x hx
    have hhigh := h.inside x hx
    rw [hstored k (hlow.le.trans hk.1) (hk.2.trans_le hhigh), hover.wins x hx hout k hk]
  · intro k hlow hk hout
    rw [hstored k hlow hk, hover.loses k hout]
  · intro k hk
    exact hbounded.byteAt_of_windowEnd_le (hend.symm ▸ hk)

end Push

end StreamReassembler

end Sponge
