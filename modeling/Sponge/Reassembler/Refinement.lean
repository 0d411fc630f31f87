import Sponge.Lib.Execution
import Sponge.Reassembler.Assembly

/-!
# The Reassembler as an Index Map

What the reassembler is for, stated without its data structures: it knows the bytes at a set
of indices, a push adds the indices it carries that lie in the window, and the output is what
is known without a gap from the start.

- `IndexMap`: the set of known indices and whether the end has been announced
- `Refines S c`: the reassembler shows exactly what its index map says
- `refines_iff`: the refinement holds throughout a run if and only if no push reaches into the
  stream while the sum `first_unread() + capacity` exceeds `size_t`

## Implementation note

A substring that sticks out of the window at both ends is stored too long, see
`truncate_spans`.  It is then the only substring stored and continues the output, so the flush
writes it at once, and the output stream cuts it off exactly at the end of the window.
-/

namespace Sponge

namespace StreamReassembler

/-! ## §1 The abstract model -/

/-- A byte string that fits into memory. -/
structure Source where
  bytes : Bytes
  fits : bytes.length < 2 ^ 64

/-- The indices at which the byte is known, and whether the end has been announced. -/
structure IndexMap where
  known : Finset ℕ
  eofSeen : Bool

/-- Learn the indices of `[i, j)` that lie in the window `[lo, hi)`. -/
def IndexMap.learn (m : IndexMap) (lo hi i j : ℕ) (eof : Bool) : IndexMap where
  known := m.known ∪ (Finset.Ico i j ∩ Finset.Ico lo hi)
  eofSeen := m.eofSeen || eof

/-- The calls on a reassembler whose pushes are taken from `S`. -/
inductive Call (S : Source) where
  | push (i j : ℕ) (eof : Bool) (hij : i ≤ j) (hj : j ≤ S.bytes.length)
      (heof : eof = true → j = S.bytes.length)
  | read (len : ℕ)

/-- A reassembler next to its index map. -/
structure Config where
  reassembler : StreamReassembler
  map : IndexMap

def Config.new (capacity : UInt64) : Config where
  reassembler := .new capacity
  map := { known := ∅, eofSeen := false }

/-- The bytes of `S` at the indices `[i, j)`. -/
def Source.sub (S : Source) (i j : ℕ) : Bytes :=
  (S.bytes.drop i).take (j - i)

/-- One call.  The window is the one the reassembler has at the time of the call. -/
def Config.apply {S : Source} (c : Config) : Call S → Except StdException Config
  | .push i j eof _ _ _ => do
    let reassembler ← c.reassembler.pushSubstring (S.sub i j) (UInt64.ofNat i) eof
    return {
      reassembler
      map := c.map.learn c.reassembler.firstUnassembled c.reassembler.firstUnacceptable i j eof }
  | .read len =>
    return { c with
      reassembler := { c.reassembler with output := (c.reassembler.output.read len).2 } }

def Config.Step {S : Source} (c : Config) (call : Call S) (d : Config) : Prop :=
  c.apply call = .ok d

/-- The reassembler shows exactly what its index map says. -/
structure Refines (S : Source) (c : Config) : Prop where
  -- the output ends where the knowledge ends
  least : IsLeast {k | k ∉ c.map.known} c.reassembler.output.bytesWritten
  written : c.reassembler.output.written = S.bytes.take c.reassembler.output.bytesWritten
  -- the rest of the knowledge is stored
  unassembled : c.reassembler.unassembledBytes =
    (c.map.known.filter fun k => c.reassembler.output.bytesWritten ≤ k).card
  ended : c.reassembler.output.inputEnded = true ↔
    c.map.eofSeen = true ∧ c.reassembler.output.bytesWritten = S.bytes.length

/-- The call does not reach into the stream while the end of the window wraps round. -/
def WindowFits {S : Source} (c : Config) : Call S → Prop
  | .push i j _ _ _ _ =>
    c.reassembler.firstUnread + c.reassembler.capacity.toNat < 2 ^ 64 ∨
      c.reassembler.firstUnacceptable ≤ i ∨ j ≤ c.reassembler.firstUnassembled
  | .read _ => True

/-! ## §2 The coupling invariant -/

/-- The true end of the window. -/
def windowEnd (r : StreamReassembler) : ℕ :=
  r.output.bytesRead + r.output.capacity.toNat

section Announced

variable {r r₁ : StreamReassembler} {data : Bytes} {index : UInt64} {eof : Bool}

theorem Announced.firstUnassembled_eq (h : Announced r data index eof r₁) :
    r₁.firstUnassembled = r.firstUnassembled := by
  rw [firstUnassembled, firstUnassembled, h.output]

theorem Announced.windowEnd_eq (h : Announced r data index eof r₁) :
    r₁.windowEnd = r.windowEnd := by
  rw [windowEnd, windowEnd, h.output]

end Announced

/-- What ties the data structures to the index map. -/
structure Coupled (S : Source) (c : Config) : Prop where
  assembled : Assembled S.bytes c.reassembler
  -- the two capacities are the same number
  capacity : c.reassembler.output.capacity = c.reassembler.capacity
  eofSeen : c.map.eofSeen = c.reassembler.eof
  eofIndex : c.reassembler.eof = true → c.reassembler.eofIndex = S.bytes.length
  -- a complete output is closed at once
  closed : c.reassembler.eof = true → c.reassembler.output.written = S.bytes →
    c.reassembler.output.inputEnded = true
  -- what is stored is what is known beyond the output, inside the window
  inside : ∀ seg ∈ c.reassembler.buf, seg.idx + seg.length ≤ c.reassembler.windowEnd
  known : ∀ k, k ∈ c.map.known ↔
    k < c.reassembler.firstUnassembled ∨ Covered c.reassembler.buf k

theorem Coupled.new (S : Source) (capacity : UInt64) : Coupled S (.new capacity) where
  assembled := Assembled.new S.bytes capacity
  capacity := rfl
  eofSeen := rfl
  eofIndex := by simp [Config.new, StreamReassembler.new]
  closed := by simp [Config.new, StreamReassembler.new]
  inside := by simp [Config.new, StreamReassembler.new]
  known := by simp [Config.new, StreamReassembler.new, firstUnassembled, Interval.Covered]

/-- **The coupling invariant implies the refinement.** -/
theorem Coupled.refines {S : Source} {c : Config} (h : Coupled S c) : Refines S c := by
  have hfu : c.reassembler.output.bytesWritten = c.reassembler.firstUnassembled := rfl
  have hlen := c.reassembler.firstUnassembled_eq
  -- no stored piece contains an index at or below the output's end
  have habove : ∀ k, Covered c.reassembler.buf k → c.reassembler.firstUnassembled < k := by
    rintro k ⟨seg, hmem, hk⟩
    exact (h.assembled.gap seg hmem).trans_le hk.1
  refine ⟨⟨?_, ?_⟩, ?_, ?_, ?_⟩
  · show c.reassembler.output.bytesWritten ∉ c.map.known
    rw [hfu, h.known]
    rintro (hlt | hcov)
    · exact Nat.lt_irrefl _ hlt
    · exact Nat.lt_irrefl _ (habove _ hcov)
  · intro k hk
    have hk : k ∉ c.map.known := hk
    rw [h.known, not_or] at hk
    exact Nat.not_lt.mp hk.1
  · rw [hfu, hlen]
    exact List.prefix_iff_eq_take.mp h.assembled.written
  · have hset : c.map.known.filter (fun k => c.reassembler.output.bytesWritten ≤ k) =
        Interval.cover Segment.idx Segment.length c.reassembler.buf := by
      ext k
      rw [Finset.mem_filter, h.known, Interval.mem_cover, hfu]
      constructor
      · rintro ⟨hlt | hcov, hle⟩
        · omega
        · exact hcov
      · exact fun hcov => ⟨.inr hcov, (habove k hcov).le⟩
    rw [hset, Interval.card_cover h.assembled.stored.separated]
    exact h.assembled.stored.count
  · rw [h.eofSeen, hfu, hlen]
    constructor
    · intro hended
      obtain ⟨he, hw⟩ := h.assembled.ended hended
      exact ⟨he, by rw [hw]⟩
    · rintro ⟨he, hfull⟩
      exact h.closed he (h.assembled.written.eq_of_length hfull)

/-- What is stored lies inside the window. -/
theorem Coupled.covered_lt {S : Source} {c : Config} (h : Coupled S c) {k : ℕ}
    (hk : Covered c.reassembler.buf k) : k < c.reassembler.windowEnd := by
  obtain ⟨x, hx, hkx⟩ := hk
  exact hkx.2.trans_le (h.inside x hx)

/-! ## §3 The flush against the window -/

/-- What the output accepts of a substring while it is open. -/
theorem accepted_eq_take {r : StreamReassembler} (hopen : r.output.inputEnded = false)
    (data : Bytes) : r.output.accepted data = data.take (r.windowEnd - r.firstUnassembled) := by
  have hbw := r.output.bytesWritten_eq_add
  unfold ByteStream.accepted ByteStream.remainingCapacity windowEnd firstUnassembled
  simp only [hopen, Bool.false_eq_true, if_false]
  congr 1
  omega

theorem length_accepted_eq {r : StreamReassembler} (hopen : r.output.inputEnded = false)
    (data : Bytes) : (r.output.accepted data).length =
      min data.length (r.windowEnd - r.firstUnassembled) := by
  rw [accepted_eq_take hopen, List.length_take, Nat.min_comm]

/-- A window whose end wraps is empty. -/
theorem firstUnacceptable_lt (r : StreamReassembler)
    (hwraps : 2 ^ 64 ≤ r.firstUnread + r.capacity.toNat) :
    r.firstUnacceptable < r.firstUnassembled := by
  have h₁ := r.output.bytesWritten_eq_add
  have h₂ := r.capacity.toNat_lt
  unfold firstUnacceptable firstUnread firstUnassembled sizeT at *
  omega

theorem firstUnassembled_le_windowEnd (r : StreamReassembler) :
    r.firstUnassembled ≤ r.windowEnd := by
  have h₁ := r.output.bytesWritten_eq_add
  have h₂ := r.output.buff_length_le
  unfold windowEnd firstUnassembled
  omega

/-- The step of the flush: the indices of a piece that continues the output become part of it,
    as far as the window goes.  A piece that ends past the window must be the last one. -/
theorem flushed_cover {r : StreamReassembler} {seg : Segment} {rest : List Segment}
    (hopen : r.output.inputEnded = false) (hidx : seg.idx = r.firstUnassembled)
    (hwithin : seg.idx + seg.length ≤ r.windowEnd ∨ rest = []) (k : ℕ) :
    (k < (r.flushed seg).firstUnassembled ∨ (Covered rest k ∧ k < r.windowEnd)) ↔
      k < r.firstUnassembled ∨ (Covered (seg :: rest) k ∧ k < r.windowEnd) := by
  have hend := r.firstUnassembled_le_windowEnd
  have hdata : seg.data.length = seg.length := rfl
  have hcons : Covered (seg :: rest) k ↔ Covers seg k ∨ Covered rest k := Interval.covered_cons
  rw [hcons, firstUnassembled_flushed, length_accepted_eq hopen]
  rcases hwithin with hle | rfl
  · -- the piece is accepted as a whole
    by_cases hk : Covered rest k
    · simp only [hk, true_and, or_true, Interval.Covers]
      omega
    · simp only [hk, false_and, or_false, Interval.Covers]
      omega
  · have hnil : ¬ Covered [] k := by simp [Interval.Covered]
    simp only [hnil, false_and, or_false, Interval.Covers]
    omega

/-- **What the flush makes of the stored indices.**  All pieces end inside the window, except
    that a single piece that continues the output may be too long. -/
theorem flushLoop_cover {P : Segment → Prop} (hP : ∀ seg, P seg → 0 < seg.length) :
    ∀ (l : List Segment) (r : StreamReassembler),
    StoredAs P { r with buf := l } → r.output.inputEnded = false →
      (∀ x ∈ l, x.idx + x.length ≤ r.windowEnd ∨
        (x.idx = r.firstUnassembled ∧ ∀ y ∈ l, y = x)) →
      (∀ k, (k < (flushLoop l r).firstUnassembled ∨ Covered (flushLoop l r).buf k) ↔
        k < r.firstUnassembled ∨ (Covered l k ∧ k < r.windowEnd)) ∧
      ∀ x ∈ (flushLoop l r).buf, x.idx + x.length ≤ r.windowEnd := by
  intro l
  induction l with
  | nil =>
    intro r _ _ _
    simp [flushLoop, Interval.Covered, firstUnassembled]
  | cons seg rest ih =>
    intro r h hopen hwithin
    have hpos := hP seg (h.pieces seg List.mem_cons_self)
    have hhead := (List.pairwise_cons.mp h.separated).1
    rw [flushLoop]
    split
    · -- the piece continues the output
      rename_i hidx
      have hw : (r.flushed seg).windowEnd = r.windowEnd := by
        simp [windowEnd, flushed]
      -- the pieces after `seg` end inside the window
      have hrest : ∀ x ∈ rest, x.idx + x.length ≤ r.windowEnd := by
        intro x hx
        rcases hwithin x (List.mem_cons_of_mem _ hx) with hle | ⟨-, hall⟩
        · exact hle
        · have := hhead x hx
          rw [← hall seg List.mem_cons_self] at this
          omega
      have hlast : seg.idx + seg.length ≤ r.windowEnd ∨ rest = [] := by
        rcases hwithin seg List.mem_cons_self with hle | ⟨-, hall⟩
        · exact .inl hle
        · right
          rw [List.eq_nil_iff_forall_not_mem]
          intro x hx
          have := hhead x hx
          rw [hall x (List.mem_cons_of_mem _ hx)] at this
          omega
      obtain ⟨hcov, hins⟩ := ih (r.flushed seg) (h.flushed hidx) (by simpa [flushed] using hopen)
        (fun x hx => .inl (hw ▸ hrest x hx))
      rw [hw] at hcov hins
      exact ⟨fun k => (hcov k).trans (flushed_cover hopen hidx hlast k), hins⟩
    · rename_i hidx
      have hins : ∀ x ∈ seg :: rest, x.idx + x.length ≤ r.windowEnd := by
        intro x hx
        rcases hwithin x hx with hle | ⟨hx', hall⟩
        · exact hle
        · rw [hall seg List.mem_cons_self] at hidx
          exact absurd hx' hidx
      refine ⟨fun k => or_congr Iff.rfl ⟨fun hk => ⟨hk, ?_⟩, And.left⟩, hins⟩
      obtain ⟨x, hx, hk⟩ := hk
      exact hk.2.trans_le (hins x hx)

/-- The same for a whole flush.  Nothing is stored once the output has ended. -/
theorem flush_cover {S : Bytes} {r : StreamReassembler} (h : Stored S r)
    (hended : r.output.inputEnded = true → r.output.written = S)
    (hwithin : ∀ x ∈ r.buf, x.idx + x.length ≤ r.windowEnd ∨
      (x.idx = r.firstUnassembled ∧ ∀ y ∈ r.buf, y = x)) :
    (∀ k, (k < r.flush.firstUnassembled ∨ Covered r.flush.buf k) ↔
      k < r.firstUnassembled ∨ (Covered r.buf k ∧ k < r.windowEnd)) ∧
    ∀ x ∈ r.flush.buf, x.idx + x.length ≤ r.windowEnd := by
  cases hopen : r.output.inputEnded with
  | false => exact flushLoop_cover (fun _ hseg => hseg.length_pos) r.buf r h.storedAs hopen hwithin
  | true =>
    have hnil := h.buf_eq_nil (hended hopen)
    rw [flush, hnil]
    simp [flushLoop, Interval.Covered, firstUnassembled]

/-- Closing the output forgets nothing. -/
theorem finish_buf {S : Bytes} {r : StreamReassembler} (h : Stored S r)
    (hafter : Assembled S r.finish) : r.finish.buf = r.buf := by
  have hended := hafter.ended
  unfold finish at hended ⊢
  split
  · rename_i hcond
    rw [if_pos hcond] at hended
    exact (h.buf_eq_nil (hended rfl).2).symm
  · rfl

/-! ## §4 Pushes -/

section Push

variable {S : Source} {c : Config} {i j : ℕ} {eof : Bool}

theorem Source.length_sub (hj : j ≤ S.bytes.length) : (S.sub i j).length = j - i := by
  simp only [Source.sub, List.length_take, List.length_drop]
  omega

theorem Source.slice_sub (S : Source) (i j : ℕ) : Slice.At S.bytes i (S.sub i j) :=
  List.take_prefix _ _

/-- The index survives the conversion to `size_t`. -/
theorem Source.toNat_index (hij : i ≤ j) (hj : j ≤ S.bytes.length) :
    (UInt64.ofNat i).toNat = i := by
  have := S.fits
  rw [UInt64.toNat_ofNat']
  omega

/-- A non-empty push hands a piece of `S` to `_handle_substring`. -/
theorem Source.store_eq (hlt : i < j) (hj : j ≤ S.bytes.length) :
    ∃ seg, Piece S.bytes seg ∧ seg.idx = i ∧ seg.idx + seg.length = j ∧
      ∀ r : StreamReassembler, r.store (S.sub i j) (UInt64.ofNat i) = r.handleSubstring seg := by
  have hindex := S.toNat_index hlt.le hj
  have hlen := S.length_sub (i := i) hj
  have hne : S.sub i j ≠ [] := by
    intro hnil
    rw [hnil, List.length_nil] at hlen
    omega
  refine ⟨{ idx := (UInt64.ofNat i).toNat, data := S.sub i j }, ⟨hne, ?_⟩, hindex, ?_, ?_⟩
  · show Slice.At S.bytes (UInt64.ofNat i).toNat (S.sub i j)
    rw [hindex]
    exact S.slice_sub i j
  · show (UInt64.ofNat i).toNat + (S.sub i j).length = j
    omega
  · intro r
    simp [StreamReassembler.store, hne]

/-- A window whose end does not wrap. -/
theorem Coupled.firstUnacceptable_eq (h : Coupled S c)
    (hfits : c.reassembler.firstUnread + c.reassembler.capacity.toNat < 2 ^ 64) :
    c.reassembler.firstUnacceptable = c.reassembler.windowEnd := by
  unfold firstUnacceptable windowEnd sizeT
  rw [h.capacity]
  exact Nat.mod_eq_of_lt hfits

/-- The result of the first part of a push: `r₁` has stored what `c` learns from it. -/
structure Learns (S : Source) (c : Config) (i j : ℕ) (eof : Bool) (r₁ : StreamReassembler) :
    Prop where
  run : (c.reassembler.announce (S.sub i j) (UInt64.ofNat i) eof).store (S.sub i j)
    (UInt64.ofNat i) = .ok r₁
  stored : Stored S.bytes r₁
  frame : r₁ = { c.reassembler.announce (S.sub i j) (UInt64.ofNat i) eof with
    buf := r₁.buf, unassembledBytes := r₁.unassembledBytes }
  within : ∀ x ∈ r₁.buf, x.idx + x.length ≤ c.reassembler.windowEnd ∨
    (x.idx = c.reassembler.firstUnassembled ∧ ∀ y ∈ r₁.buf, y = x)
  known : ∀ k, k ∈ (c.map.learn c.reassembler.firstUnassembled c.reassembler.firstUnacceptable
      i j eof).known ↔
    k < c.reassembler.firstUnassembled ∨ (Covered r₁.buf k ∧ k < c.reassembler.windowEnd)

theorem IndexMap.mem_learn {m : IndexMap} {lo hi k : ℕ} :
    k ∈ (m.learn lo hi i j eof).known ↔ k ∈ m.known ∨ ((i ≤ k ∧ k < j) ∧ lo ≤ k ∧ k < hi) := by
  simp [IndexMap.learn]

/-- A push that stores nothing has nothing to teach. -/
theorem Coupled.learns_nothing (h : Coupled S c)
    (hrun : (c.reassembler.announce (S.sub i j) (UInt64.ofNat i) eof).store (S.sub i j)
      (UInt64.ofNat i) = .ok (c.reassembler.announce (S.sub i j) (UInt64.ofNat i) eof))
    (hout : j ≤ i ∨ c.reassembler.firstUnacceptable ≤ i ∨ j ≤ c.reassembler.firstUnassembled) :
    Learns S c i j eof (c.reassembler.announce (S.sub i j) (UInt64.ofNat i) eof) := by
  refine ⟨hrun, announce_stored h.assembled.stored _ _ _, rfl, ?_, ?_⟩
  · rw [announce_buf]
    exact fun x hx => .inl (h.inside x hx)
  · intro k
    rw [announce_buf, IndexMap.mem_learn, h.known]
    constructor
    · rintro ((hk | hk) | hk)
      · exact .inl hk
      · exact .inr ⟨hk, h.covered_lt hk⟩
      · omega
    · rintro (hk | ⟨hk, -⟩)
      · exact .inl (.inl hk)
      · exact .inl (.inr hk)

/-- **Storing into a window that does not wrap.**  The piece `t` that survives the cuts ends
    inside the window, or it starts at the output's end and swallows everything stored. -/
theorem Coupled.within_of_inserted (h : Coupled S c)
    (hfits : c.reassembler.firstUnread + c.reassembler.capacity.toNat < 2 ^ 64)
    {seg t : Segment} {r₁ : StreamReassembler}
    (hkept : KeptAs (Piece S.bytes)
      (c.reassembler.announce (S.sub i j) (UInt64.ofNat i) eof) seg t)
    (hins : InsertedAs (Piece S.bytes)
      (c.reassembler.announce (S.sub i j) (UInt64.ofNat i) eof) t r₁) :
    ∀ x ∈ r₁.buf, x.idx + x.length ≤ c.reassembler.windowEnd ∨
      (x.idx = c.reassembler.firstUnassembled ∧ ∀ y ∈ r₁.buf, y = x) := by
  have hfu₁ : r₁.firstUnassembled = c.reassembler.firstUnassembled := by
    rw [hins.frame]
    exact announce_firstUnassembled _ _ _ _
  have hlow := hkept.low
  have hidx := hkept.idx
  have hstop := hkept.stop
  rw [announce_firstUnassembled] at hidx
  rw [announce_firstUnacceptable, h.firstUnacceptable_eq hfits] at hlow hstop
  have hend := c.reassembler.firstUnassembled_le_windowEnd
  obtain ⟨m, hm, hmlow, hmhigh, hothers⟩ := hins.grown
  intro x hx
  have hxpos := (hins.stored.pieces x hx).length_pos
  by_cases hover : t.idx + t.length ≤ c.reassembler.windowEnd
  · -- every index stored lies inside the window, the last one of `x` too
    left
    have hlast : Covered r₁.buf (x.idx + x.length - 1) :=
      ⟨x, hx, by simp only [Interval.Covers]; omega⟩
    rcases (hins.cover _).mp hlast with hold | hnew
    · rw [announce_buf] at hold
      have := h.covered_lt hold
      omega
    · simp only [Interval.Covers] at hnew
      omega
  · -- the piece is too long, so it starts at the output's end
    have hmfu : m.idx = c.reassembler.firstUnassembled := by
      have := hins.stored.above m hm
      omega
    have hall : ∀ y ∈ r₁.buf, y = m := by
      intro y hy
      rcases hothers y hy with heq | hold
      · exact heq
      · rw [announce_buf] at hold
        have hylow := h.assembled.gap y hold
        have hyhigh := h.inside y hold
        have hypos := (hins.stored.pieces y hy).length_pos
        by_contra hne
        -- a second piece would overlap the long one
        have := Interval.Separated.before_or_after hins.stored.separated hy hm hne
        omega
    right
    rw [hall x hx]
    exact ⟨hmfu, hall⟩

theorem Coupled.learns_kept (h : Coupled S c)
    (hfits : c.reassembler.firstUnread + c.reassembler.capacity.toNat < 2 ^ 64)
    {seg t : Segment} {r₁ : StreamReassembler}
    (hrun : (c.reassembler.announce (S.sub i j) (UInt64.ofNat i) eof).store (S.sub i j)
      (UInt64.ofNat i) = .ok r₁)
    (hseg : seg.idx = i ∧ seg.idx + seg.length = j)
    (hkept : KeptAs (Piece S.bytes)
      (c.reassembler.announce (S.sub i j) (UInt64.ofNat i) eof) seg t)
    (hins : InsertedAs (Piece S.bytes)
      (c.reassembler.announce (S.sub i j) (UInt64.ofNat i) eof) t r₁)
    (hstored : Stored S.bytes r₁) : Learns S c i j eof r₁ := by
  refine ⟨hrun, hstored, hins.frame, h.within_of_inserted hfits hkept hins, ?_⟩
  have hlow := hkept.low
  have hidx := hkept.idx
  have hstop := hkept.stop
  rw [announce_firstUnassembled] at hidx
  rw [announce_firstUnacceptable, h.firstUnacceptable_eq hfits] at hlow hstop
  have hend := c.reassembler.firstUnassembled_le_windowEnd
  intro k
  rw [IndexMap.mem_learn, h.known, h.firstUnacceptable_eq hfits, hins.cover, announce_buf]
  by_cases hcov : Covered c.reassembler.buf k
  · exact iff_of_true (.inl (.inr hcov)) (.inr ⟨.inl hcov, h.covered_lt hcov⟩)
  · simp only [hcov, or_false, false_or, Interval.Covers]
    omega

/-- What storing a piece of a push does to the known indices. -/
theorem Coupled.store (h : Coupled S c) (eof : Bool) (hij : i ≤ j) (hj : j ≤ S.bytes.length)
    (hfits : c.reassembler.firstUnread + c.reassembler.capacity.toNat < 2 ^ 64 ∨
      c.reassembler.firstUnacceptable ≤ i ∨ j ≤ c.reassembler.firstUnassembled) :
    ∃ r₁, Learns S c i j eof r₁ := by
  rcases Nat.eq_or_lt_of_le hij with heq | hlt
  · refine ⟨_, h.learns_nothing ?_ (.inl heq.ge)⟩
    have hnil : S.sub i j = [] := by
      rw [← List.length_eq_zero_iff, S.length_sub hj]
      omega
    simp [StreamReassembler.store, hnil]
  · obtain ⟨seg, hpiece, hidx, hstop, hstore⟩ := S.store_eq hlt hj
    have hann := announce_stored h.assembled.stored (S.sub i j) (UInt64.ofNat i) eof
    rcases handleSubstring_spec S.fits hann hpiece with
      ⟨hdrop, hrun⟩ | ⟨t, r₁, hkept, hrun, hins, hstored⟩
    · refine ⟨_, h.learns_nothing ((hstore _).trans hrun) (.inr ?_)⟩
      rwa [announce_firstUnacceptable, announce_firstUnassembled, hstop, hidx] at hdrop
    · rcases hfits with hfits | hout
      · exact ⟨r₁, h.learns_kept hfits ((hstore _).trans hrun) ⟨hidx, hstop⟩ hkept hins hstored⟩
      · -- a push outside the window is not kept
        have h₁ := hkept.low
        have h₂ := hkept.high
        rw [announce_firstUnacceptable] at h₁
        rw [announce_firstUnassembled] at h₂
        omega

/-- The end announced by a push. -/
theorem Source.announced_end (hij : i ≤ j) (hj : j ≤ S.bytes.length)
    (heof : eof = true → j = S.bytes.length) (he : eof = true) :
    sizeT ((UInt64.ofNat i).toNat + (S.sub i j).length) = S.bytes.length := by
  have h₁ := S.fits
  have h₂ := heof he
  rw [S.toNat_index hij hj, S.length_sub hj, Nat.add_sub_cancel' hij, sizeT,
    Nat.mod_eq_of_lt (by omega), h₂]

/-- Flushing and closing after `c` has learned from a push. -/
theorem Coupled.finish (h : Coupled S c) (hij : i ≤ j) (hj : j ≤ S.bytes.length)
    (heof : eof = true → j = S.bytes.length) {r₁ : StreamReassembler}
    (hlearns : Learns S c i j eof r₁) :
    Coupled S ⟨r₁.flush.finish, c.map.learn c.reassembler.firstUnassembled
      c.reassembler.firstUnacceptable i j eof⟩ := by
  have hann := announced_of_frame hlearns.frame
  have hout := hann.output
  -- flushing and closing, once for the data structures and once for the index map
  have hassembled := finish_flush_assembled h.assembled
    (fun he _ => (S.announced_end hij hj heof he).ge) hlearns.stored hann
  have hpush := finish_flush_pushes hann
  have hw₁ := hann.windowEnd_eq
  have hfu₁ := hann.firstUnassembled_eq
  have hw : r₁.flush.finish.windowEnd = c.reassembler.windowEnd := by
    rw [windowEnd, windowEnd, hpush.bytesRead, hpush.outputCapacity]
  have hwritten : r₁.output.written <+: S.bytes := hout ▸ h.assembled.written
  obtain ⟨hcover, hinside⟩ := flush_cover hlearns.stored
    (fun hended => by
      rw [hout] at hended ⊢
      exact (h.assembled.ended hended).2)
    (by rw [hw₁, hfu₁]; exact hlearns.within)
  have hbuf := finish_buf (flush_spec hlearns.stored hwritten).1 hassembled
  have hindex : r₁.flush.finish.eof = true → r₁.flush.finish.eofIndex = S.bytes.length := by
    rw [hpush.eof, hpush.eofIndex]
    intro he
    cases eof with
    | true => exact S.announced_end hij hj heof rfl
    | false => exact h.eofIndex (by simpa using he)
  refine ⟨hassembled, ?_, ?_, hindex, ?_, ?_, ?_⟩
  · rw [hpush.outputCapacity, hpush.capacity, h.capacity]
  · rw [hpush.eof, IndexMap.learn, h.eofSeen]
  -- the announced end is the end of `S`, so the test for the end succeeds
  · intro he hfull
    refine hpush.closed he ?_
    rw [hindex he, firstUnassembled_eq]
    exact congrArg List.length hfull
  · dsimp only
    rw [hbuf, hw, ← hw₁]
    exact hinside
  · intro k
    dsimp only
    rw [hbuf, firstUnassembled_finish, hcover k, hlearns.known k, hfu₁, hw₁]

theorem step_push_iff {hij : i ≤ j} {hj : j ≤ S.bytes.length}
    {heof : eof = true → j = S.bytes.length} {d : Config} :
    Config.Step c (.push i j eof hij hj heof) d ↔
      c.reassembler.pushSubstring (S.sub i j) (UInt64.ofNat i) eof = .ok d.reassembler ∧
      d.map = c.map.learn c.reassembler.firstUnassembled c.reassembler.firstUnacceptable i j
        eof := by
  simp only [Config.Step, Config.apply]
  cases c.reassembler.pushSubstring (S.sub i j) (UInt64.ofNat i) eof with
  | error e => simp [bind, Except.bind]
  | ok r =>
    simp only [bind, Except.bind, pure, Except.pure, Except.ok.injEq]
    constructor
    · rintro rfl
      exact ⟨rfl, rfl⟩
    · rintro ⟨rfl, hmap⟩
      rw [← hmap]

/-- **A push that fits.** -/
theorem Coupled.push (h : Coupled S c) (hij : i ≤ j) (hj : j ≤ S.bytes.length)
    (heof : eof = true → j = S.bytes.length)
    (hfits : c.reassembler.firstUnread + c.reassembler.capacity.toNat < 2 ^ 64 ∨
      c.reassembler.firstUnacceptable ≤ i ∨ j ≤ c.reassembler.firstUnassembled) :
    ∃ d, Config.Step c (.push i j eof hij hj heof) d ∧ Coupled S d := by
  obtain ⟨r₁, hlearns⟩ := h.store eof hij hj hfits
  refine ⟨_, ?_, h.finish hij hj heof hlearns⟩
  rw [Config.Step, Config.apply, pushSubstring, hlearns.run]
  rfl

/-- A push that reaches into the stream while the window wraps writes something: the piece that
    is kept starts at the output's end. -/
theorem Coupled.push_grows (h : Coupled S c) (hj : j ≤ S.bytes.length)
    (hwraps : 2 ^ 64 ≤ c.reassembler.firstUnread + c.reassembler.capacity.toNat)
    (hlow : i < c.reassembler.firstUnacceptable) (hhigh : c.reassembler.firstUnassembled < j)
    {r : StreamReassembler}
    (hrun : c.reassembler.pushSubstring (S.sub i j) (UInt64.ofNat i) eof = .ok r) :
    c.reassembler.firstUnassembled < r.firstUnassembled := by
  have hempty := c.reassembler.firstUnacceptable_lt hwraps
  have hfits := S.fits
  obtain ⟨seg, hpiece, hidx, hstop, hstore⟩ := S.store_eq (by omega : i < j) hj
  have hann := announce_stored h.assembled.stored (S.sub i j) (UInt64.ofNat i) eof
  rcases handleSubstring_spec S.fits hann hpiece with
    ⟨hdrop, -⟩ | ⟨t, r₁, hkept, hhandle, hins, hstored⟩
  · rw [announce_firstUnacceptable, announce_firstUnassembled, hstop, hidx] at hdrop
    omega
  have hout : r₁.output = c.reassembler.output := by
    rw [hins.frame]
    exact announce_output _ _ _ _
  have hfu₁ : r₁.firstUnassembled = c.reassembler.firstUnassembled := by
    rw [firstUnassembled, firstUnassembled, hout]
  have hw₁ : r₁.windowEnd = c.reassembler.firstUnread + c.reassembler.capacity.toNat := by
    rw [windowEnd, hout, ← h.capacity]
    rfl
  have hcov : Covered r₁.buf r₁.firstUnassembled := by
    rw [hins.cover]
    right
    have hstart := hkept.idx
    have hpos := hkept.piece.length_pos
    rw [announce_firstUnassembled] at hstart
    simp only [Interval.Covers, hfu₁]
    omega
  -- everything stored lies inside the true window, which is larger than the stream
  obtain ⟨hflush, -⟩ := flush_cover hstored
    (fun hended => by
      rw [hout] at hended ⊢
      exact (h.assembled.ended hended).2)
    (fun x hx => .inl (by
      have := (hstored.pieces x hx).stop_le
      omega))
  have hwritten : r₁.output.written <+: S.bytes := hout ▸ h.assembled.written
  obtain ⟨-, hflushes, -, hgap⟩ := flush_spec hstored hwritten
  have hmono := hflushes.written.length_le
  rw [← firstUnassembled_eq, ← firstUnassembled_eq] at hmono
  have hr : r.firstUnassembled = r₁.flush.firstUnassembled := by
    rw [pushSubstring, hstore, hhandle] at hrun
    rw [← Except.ok.inj hrun, firstUnassembled_finish]
  have hlt : r₁.firstUnassembled < r₁.windowEnd := by omega
  rcases (hflush r₁.firstUnassembled).mpr (.inr ⟨hcov, hlt⟩) with hgrown | ⟨x, hx, hk⟩
  · omega
  · have := hgap x hx
    simp only [Interval.Covers] at hk
    omega

/-- **A push into a window that wraps.**  It writes a byte that the index map does not know. -/
theorem Coupled.not_refines (h : Coupled S c) (hij : i ≤ j) (hj : j ≤ S.bytes.length)
    (heof : eof = true → j = S.bytes.length)
    (hwraps : 2 ^ 64 ≤ c.reassembler.firstUnread + c.reassembler.capacity.toNat)
    (hlow : i < c.reassembler.firstUnacceptable) (hhigh : c.reassembler.firstUnassembled < j)
    {d : Config} (hstep : Config.Step c (.push i j eof hij hj heof) d) : ¬ Refines S d := by
  intro hrefines
  obtain ⟨hrun, hmap⟩ := step_push_iff.mp hstep
  have hgrows := h.push_grows hj hwraps hlow hhigh hrun
  have hempty := c.reassembler.firstUnacceptable_lt hwraps
  -- the window is empty and the index map learns nothing, so the output must not grow
  have hknown : ∀ k, k ∉ d.map.known ↔ k ∉ c.map.known := by
    intro k
    rw [hmap, IndexMap.mem_learn]
    refine not_congr ⟨?_, .inl⟩
    rintro (hk | hk)
    · exact hk
    · omega
  have hleast := hrefines.least
  simp only [hknown] at hleast
  have hsame : d.reassembler.firstUnassembled = c.reassembler.firstUnassembled :=
    hleast.unique h.refines.least
  omega

end Push

/-! ## §5 Runs -/

theorem Coupled.read {S : Source} {c : Config} (h : Coupled S c) (len : ℕ) :
    Coupled S { c with
      reassembler := { c.reassembler with output := (c.reassembler.output.read len).2 } } := by
  refine ⟨h.assembled.read len, h.capacity, h.eofSeen, h.eofIndex, h.closed, ?_, h.known⟩
  intro seg hmem
  have := h.inside seg hmem
  simp only [windowEnd, ByteStream.read, ByteStream.popOutput_bytesRead,
    ByteStream.popOutput_capacity] at this ⊢
  omega

/-- **The runs that refine the index map.** -/
theorem refines_iff (S : Source) (capacity : UInt64) (calls : List (Call S)) :
    Execution.Always Config.Step (Refines S) (.new capacity) calls ↔
      Execution.Along Config.Step WindowFits (.new capacity) calls := by
  apply Execution.always_iff_along (I := Coupled S)
  · exact fun c hc => hc.refines
  · intro c call hc hfits
    cases call with
    | push i j eof hij hj heof =>
      obtain ⟨d, hstep, hd⟩ := hc.push hij hj heof hfits
      refine ⟨⟨d, hstep⟩, ?_⟩
      intro e he
      rw [← Except.ok.inj (hstep.symm.trans he)]
      exact hd
    | read len =>
      refine ⟨⟨_, rfl⟩, ?_⟩
      intro e he
      rw [← Except.ok.inj he]
      exact hc.read len
  · intro c call hc hret hafter
    cases call with
    | push i j eof hij hj heof =>
      -- without the condition the push breaks the refinement
      by_contra hfits
      simp only [WindowFits, not_or, not_lt, not_le] at hfits
      obtain ⟨d, hd⟩ := hret
      exact hc.not_refines hij hj heof hfits.1 hfits.2.1 hfits.2.2 hd (hafter d hd)
    | read len => trivial
  · exact Coupled.new S capacity

/-- The string of the following run. -/
def sixBytes : Source where
  bytes := [1, 2, 3, 4, 5, 6]
  fits := by decide

/-- With the largest capacity, the window wraps as soon as bytes have been read.  The third
    call is then dropped although the window should be almost unbounded, and the fourth writes
    the two bytes that the window is said to exclude. -/
theorem refines_fails : ¬ Execution.Always Config.Step (Refines sixBytes)
    (.new 0xffffffffffffffff)
    ([.push 0 4 false (by decide) (by decide) (by decide), .read 3,
      .push 4 6 false (by decide) (by decide) (by decide),
      .push 0 6 false (by decide) (by decide) (by decide)] : List (Call sixBytes)) := by
  intro h
  have hlast := (((h.2.2 _ rfl).2.2 _ rfl).2.2 _ rfl).2.2 _ rfl
  have hle := hlast.least.2 (show 4 ∉ _ by decide)
  revert hle
  decide

end StreamReassembler

end Sponge
