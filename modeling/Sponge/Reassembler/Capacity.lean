import Sponge.Lib.Loop
import Sponge.Reassembler.Refinement

/-!
# The Memory Bound

The substrings come from the network: they may contradict each other, start anywhere, and go on
arriving after the end of the stream.  Whatever is pushed, the reassembler does not throw and
stores no more than its capacity.

- `Bounded r`: the invariant between two calls
- `flush_terminates`: the flush, as the loop that the source writes
- `storage_invariant`: the memory bound, for every sequence of calls

A substring that sticks out of the window at both ends is stored too long (`truncate_spans`).
It then starts at the end of the output and is erased by the flush of the same call, whether the
output takes it, cuts it off or refuses it.
-/

namespace Sponge

namespace StreamReassembler

open Execution (Trace)

/-! ## §1 Calls -/

/-- The calls on a reassembler, with any data. -/
inductive Input where
  | push (data : Bytes) (hdata : data.length < 2 ^ 63) (index : UInt64) (eof : Bool)
  | read (len : ℕ)

def feed (r : StreamReassembler) : Input → Except StdException StreamReassembler
  | .push data _ index eof => r.pushSubstring data index eof
  | .read len => .ok { r with output := (r.output.read len).2 }

def Feeds (r : StreamReassembler) (i : Input) (r' : StreamReassembler) : Prop :=
  r.feed i = .ok r'

/-- What the storage of a reassembler is like between two calls. -/
structure StorageInvariant (r : StreamReassembler) : Prop where
  nonempty : ∀ seg ∈ r.buf, seg.data ≠ []
  ordered : r.buf.Pairwise fun a b => a.idx < b.idx
  disjoint : r.buf.Pairwise fun a b => ∀ k, Covers a k → ¬ Covers b k
  inside : ∀ k, Covered r.buf k → r.firstUnassembled < k ∧ k < r.firstUnacceptable
  fits : total r.buf + r.output.bufferSize ≤ r.capacity.toNat

/-! ## §2 The loop of the flush -/

/-- One round of the `while` loop of `push_substring`. -/
def flushRound (r : StreamReassembler) : Loop.Round StreamReassembler StreamReassembler :=
  match r.buf with
  | [] => .exit r
  | seg :: _ =>
    if seg.idx = r.firstUnassembled then
      .next ({ r with output := (r.output.write seg.data).1 }.bufErase seg)
    else .exit r

/-- A round erases the substring that it has written, the first one of the set. -/
theorem flushRound_cons (r : StreamReassembler) (seg : Segment) (rest : List Segment) :
    flushRound { r with buf := seg :: rest } =
      if seg.idx = r.firstUnassembled then .next { r.flushed seg with buf := rest }
      else .exit { r with buf := seg :: rest } := by
  simp only [flushRound, bufErase, List.erase_cons_head]
  rfl

theorem iterate_flushRound (l : List Segment) (r : StreamReassembler) :
    Loop.iterate flushRound (l.length + 1) { r with buf := l } = some (flushLoop l r) := by
  induction l generalizing r with
  | nil => rfl
  | cons seg rest ih =>
    rw [Loop.iterate, flushRound_cons, flushLoop]
    by_cases hidx : seg.idx = r.firstUnassembled
    · rw [if_pos hidx, if_pos hidx]
      exact ih (r.flushed seg)
    · rw [if_neg hidx, if_neg hidx]

/-- **The flush loop terminates**: every round takes a substring out of the set. -/
theorem flush_terminates (r : StreamReassembler) :
    Loop.iterate flushRound (r.buf.length + 1) r = some r.flush :=
  iterate_flushRound r.buf r

/-! ## §3 The invariant -/

structure Bounded (r : StreamReassembler) : Prop where
  separated : Separated r.buf
  nonempty : ∀ seg ∈ r.buf, seg.data ≠ []
  gap : ∀ seg ∈ r.buf, r.firstUnassembled < seg.idx
  inside : ∀ seg ∈ r.buf, seg.idx + seg.length ≤ r.windowEnd
  count : total r.buf ≤ r.unassembledBytes
  -- the two capacities are the same number
  capacity : r.output.capacity = r.capacity

theorem Bounded.new (capacity : UInt64) : Bounded (.new capacity) := by
  constructor <;> simp [StreamReassembler.new, Interval.Separated]

/-- While the end of the window is a `size_t`. -/
theorem firstUnacceptable_eq {r : StreamReassembler} (hcapacity : r.output.capacity = r.capacity)
    (hsmall : r.windowEnd < 2 ^ 64) : r.firstUnacceptable = r.windowEnd := by
  unfold windowEnd at hsmall ⊢
  unfold firstUnacceptable firstUnread sizeT
  rw [hcapacity] at hsmall ⊢
  exact Nat.mod_eq_of_lt hsmall

/-- The end of the window that the code computes is never too large. -/
theorem firstUnacceptable_le {r : StreamReassembler} (hcapacity : r.output.capacity = r.capacity) :
    r.firstUnacceptable ≤ r.windowEnd := by
  unfold windowEnd firstUnacceptable firstUnread sizeT
  rw [hcapacity]
  exact Nat.mod_le _ _

/-- **The invariant implies the memory bound.**  The stored bytes have different indices, all of
    them between the output and the end of the window. -/
theorem Bounded.storageInvariant {r : StreamReassembler} (h : Bounded r)
    (hsmall : r.windowEnd < 2 ^ 64) : StorageInvariant r := by
  have hinside : ∀ k, Covered r.buf k → r.firstUnassembled < k ∧ k < r.windowEnd := by
    rintro k ⟨seg, hmem, hk⟩
    exact ⟨(h.gap seg hmem).trans_le hk.1, hk.2.trans_le (h.inside seg hmem)⟩
  constructor
  case nonempty => exact h.nonempty
  case ordered =>
    refine h.separated.imp_of_mem fun ha _ hab => ?_
    have := List.length_pos_iff.mpr (h.nonempty _ ha)
    unfold Segment.length at hab
    omega
  case disjoint =>
    refine h.separated.imp fun hab k hk hk' => ?_
    simp only [Interval.Covers] at hk hk'
    omega
  case inside =>
    rw [firstUnacceptable_eq h.capacity hsmall]
    exact hinside
  case fits =>
    have hcard : total r.buf ≤ (Finset.Ioo r.firstUnassembled r.windowEnd).card := by
      rw [total, ← Interval.card_cover h.separated]
      refine Finset.card_le_card fun k hk => ?_
      exact Finset.mem_Ioo.mpr (hinside k (Interval.mem_cover.mp hk))
    have hfull := r.output.buff_length_le
    have hwritten := r.output.bytesWritten_eq_add
    rw [Nat.card_Ioo] at hcard
    unfold windowEnd firstUnassembled at hcard
    rw [← h.capacity, ByteStream.bufferSize]
    omega

/-- Substrings that are not empty and whose last index is a `size_t` survive all reshaping. -/
def Solid (seg : Segment) : Prop :=
  seg.data ≠ [] ∧ seg.idx + seg.length ≤ 2 ^ 64

theorem reshaping_solid : Reshaping Solid where
  nonempty h := h.1
  fits h := h.2
  splice := by
    rintro a b ⟨-, ha⟩ ⟨hb, hb'⟩ hle hmeet
    refine ⟨by simp [hb], ?_⟩
    simp only [Segment.length, List.length_append, List.length_take] at *
    omega
  extend := by
    rintro a b ⟨-, ha⟩ ⟨hb, hb'⟩ hmeet
    refine ⟨by simp [hb], ?_⟩
    simp only [Segment.length, List.length_append, List.length_drop] at *
    omega
  take := by
    rintro seg n ⟨hne, hfits⟩ hn
    refine ⟨?_, ?_⟩
    · rw [ne_eq, List.take_eq_nil_iff, not_or]
      exact ⟨by omega, hne⟩
    · simp only [Segment.length, List.length_take] at *
      omega
  dropTo := by
    rintro seg i ⟨-, hfits⟩ hle hlt
    simp only [Segment.length] at *
    refine ⟨?_, ?_⟩
    · rw [ne_eq, List.drop_eq_nil_iff]
      omega
    · simp only [Segment.length, List.length_drop]
      omega

/-! ## §4 A push -/

section Push

variable {r r₁ : StreamReassembler} {data : Bytes}

/-- The set once a substring is stored.  What reaches past the window continues the output. -/
structure Crowded (r : StreamReassembler) : Prop where
  stored : StoredAs Solid r
  within : ∀ seg ∈ r.buf, seg.idx + seg.length ≤ r.windowEnd ∨ seg.idx = r.firstUnassembled
  capacity : r.output.capacity = r.capacity

/-- Where the part of a pushed substring ends that is stored.  It is measured from the start that
    the substring had before the first cut. -/
def admittedEnd (r : StreamReassembler) (data : Bytes) (index : UInt64) : ℕ :=
  min (index.toNat + data.length)
    (max index.toNat r.firstUnassembled + (r.firstUnacceptable - index.toNat))

/-- A push of `data` at `index` stores its byte at `k`. -/
def Admits (r : StreamReassembler) (data : Bytes) (index : UInt64) (k : ℕ) : Prop :=
  index.toNat < r.firstUnacceptable ∧ max index.toNat r.firstUnassembled ≤ k ∧
    k < r.admittedEnd data index

/-- `r₁` is `r` with the admitted part of a substring stored. -/
structure Admitted (r : StreamReassembler) (data : Bytes) (index : UInt64)
    (r₁ : StreamReassembler) : Prop where
  crowded : Crowded r₁
  count : r₁.unassembledBytes + total r.buf = r.unassembledBytes + total r₁.buf
  cover : ∀ k, Covered r₁.buf k ↔ Covered r.buf k ∨ r.Admits data index k
  -- the only substring that is new has grown from the admitted part
  grown : ∀ x ∈ r₁.buf, x ∈ r.buf ∨ x.idx ≤ max index.toNat r.firstUnassembled

theorem Bounded.crowded (h : Bounded r) (hsolid : ∀ seg ∈ r.buf, Solid seg) : Crowded r where
  stored := ⟨h.separated, hsolid, fun seg hmem => (h.gap seg hmem).le, h.count⟩
  within seg hmem := .inl (h.inside seg hmem)
  capacity := h.capacity

/-- Stored substrings are solid if the window ends at a `size_t`. -/
theorem Bounded.solid (h : Bounded r) (hsmall : r.windowEnd < 2 ^ 64) :
    ∀ seg ∈ r.buf, Solid seg :=
  fun seg hmem => ⟨h.nonempty seg hmem, (h.inside seg hmem).trans hsmall.le⟩

/-- Storing the part of a substring that the cuts leave. -/
theorem Bounded.inserted (h : Bounded r) {seg t : Segment}
    (hkept : KeptAs Solid r seg t) (hins : InsertedAs Solid r t r₁) : Crowded r₁ := by
  have hfu : r₁.firstUnassembled = r.firstUnassembled := by rw [hins.frame]; rfl
  have hend : r₁.windowEnd = r.windowEnd := by rw [hins.frame]; rfl
  have hwindow := firstUnacceptable_le h.capacity
  have hlow := hkept.low
  have hidx := hkept.idx
  have hstop := hkept.stop
  obtain ⟨m, hm, hstart, -, honly⟩ := hins.grown
  refine ⟨hins.stored, ?_, by rw [hins.frame]; exact h.capacity⟩
  intro x hx
  rw [hfu, hend]
  rcases honly x hx with rfl | hold
  · by_cases hcut : seg.idx < r.firstUnassembled
    · -- the substring starts at the output, and so does what it has grown to
      right
      have := hins.stored.above x hx
      omega
    · -- the last index of `x` was stored before or is one of the new ones
      left
      have hpos := reshaping_solid.length_pos (hins.stored.pieces x hx)
      have hlast : Covers x (x.idx + x.length - 1) := by
        simp only [Interval.Covers]
        omega
      rcases (hins.cover _).mp ⟨x, hx, hlast⟩ with ⟨y, hy, hyk⟩ | hnew
      · have := h.inside y hy
        simp only [Interval.Covers] at hyk
        omega
      · simp only [Interval.Covers] at hnew
        omega
  · exact .inl (h.inside x hold)

/-- What the cuts leave of a substring is what the push admits. -/
theorem KeptAs.covers_iff {index : UInt64} {t : Segment}
    (hkept : KeptAs Solid r { idx := index.toNat, data } t) (k : ℕ) :
    Covers t k ↔ r.Admits data index k := by
  have hlow := hkept.low
  have hidx := hkept.idx
  have hstop := hkept.stop
  simp only [Segment.length] at hlow hidx hstop
  simp only [Interval.Covers, Segment.length, Admits, admittedEnd]
  omega

/-- A substring that is ignored leaves everything as it is. -/
theorem Bounded.admitted_nothing (h : Bounded r) (hsolid : ∀ seg ∈ r.buf, Solid seg)
    {index : UInt64} (hnone : ∀ k, ¬ r.Admits data index k) : Admitted r data index r where
  crowded := h.crowded hsolid
  count := rfl
  cover k := by simp [hnone k]
  grown _ hx := .inl hx

/-- **The two ways of storing a substring.**  Either the push admits nothing, or what the cuts
    leave is inserted. -/
theorem StoredAs.store_cases (h : StoredAs Solid r) (data : Bytes) (index : UInt64)
    (hfits : index.toNat < r.firstUnacceptable → index.toNat + data.length ≤ 2 ^ 64) :
    (r.store data index = .ok r ∧ ∀ k, ¬ r.Admits data index k) ∨
    ∃ t r₁, r.truncate { idx := index.toNat, data } = .ok t ∧
      KeptAs Solid r { idx := index.toNat, data } t ∧ r.handleOverlap t = .ok r₁ ∧
      r.store data index = .ok r₁ ∧ InsertedAs Solid r t r₁ := by
  unfold StreamReassembler.store
  by_cases hnil : data = []
  · refine .inl ⟨by simp [hnil], fun k hk => ?_⟩
    simp only [Admits, admittedEnd, hnil, List.length_nil] at hk
    omega
  rw [if_neg (by simpa using hnil)]
  by_cases hpast : r.firstUnacceptable ≤ index.toNat
  · -- an index past the window is discarded before anything is computed from it
    refine .inl ⟨by simp [handleSubstring, hpast], fun k hk => ?_⟩
    exact absurd hk.1 (Nat.not_lt.mpr hpast)
  · have hpiece : Solid { idx := index.toNat, data } := ⟨hnil, hfits (by omega)⟩
    rcases handleSubstring_spans reshaping_solid h hpiece with ⟨hout, hrun⟩ | hstored
    · refine .inl ⟨hrun, fun k hk => ?_⟩
      simp only [Admits, admittedEnd] at hk
      simp only [Segment.length] at hout
      omega
    · exact .inr hstored

/-- **Storing a substring does not throw**, whatever it is, and adds what the push admits. -/
theorem Bounded.store (h : Bounded r) (hsolid : ∀ seg ∈ r.buf, Solid seg) (data : Bytes)
    (index : UInt64)
    (hfits : index.toNat < r.firstUnacceptable → index.toNat + data.length ≤ 2 ^ 64) :
    ∃ r₁, r.store data index = .ok r₁ ∧ Admitted r data index r₁ := by
  rcases (h.crowded hsolid).stored.store_cases data index hfits with
    ⟨hrun, hnone⟩ | ⟨t, r₁, -, hkept, -, hrun, hins⟩
  · exact ⟨r, hrun, h.admitted_nothing hsolid hnone⟩
  · refine ⟨r₁, hrun, h.inserted hkept hins, hins.count, ?_, ?_⟩
    · exact fun k => (hins.cover k).trans (or_congr_right (hkept.covers_iff k))
    · obtain ⟨m, -, hstart, -, honly⟩ := hins.grown
      intro x hx
      rcases honly x hx with rfl | hold
      · exact .inr (hstart.trans hkept.idx.le)
      · exact .inl hold

/-- What the flush leaves lies inside the window. -/
theorem Crowded.flush (h : Crowded r) : Bounded r.flush ∧ r.flush.windowEnd = r.windowEnd := by
  have hflush : FlushedAs Solid r.buf r r.flush := flushLoop_spans r.buf r h.stored
  have hend : r.flush.windowEnd = r.windowEnd := by
    rw [windowEnd, windowEnd, r.flushes_flush.bytesRead, r.flushes_flush.outputCapacity]
  have hmono : r.firstUnassembled ≤ r.flush.firstUnassembled := by
    rw [firstUnassembled_eq, firstUnassembled_eq]
    exact r.flushes_flush.written.length_le
  refine ⟨⟨hflush.stored.separated, fun seg hmem => (hflush.stored.pieces seg hmem).1,
    hflush.gap, ?_, hflush.stored.count, ?_⟩, hend⟩
  · intro seg hmem
    have hgap := hflush.gap seg hmem
    rw [hend]
    rcases h.within seg (hflush.subset hmem) with hin | hstart
    · exact hin
    · omega
  · rw [r.flushes_flush.outputCapacity, h.capacity, r.flushes_flush.capacity]

theorem Bounded.finish (h : Bounded r) : Bounded r.finish := by
  unfold StreamReassembler.finish
  split
  · exact ⟨by simp [Interval.Separated], by simp, by simp, by simp, Nat.zero_le _, h.capacity⟩
  · exact h

theorem windowEnd_finish (r : StreamReassembler) : r.finish.windowEnd = r.windowEnd := by
  have h := r.finishes_finish
  rw [windowEnd, windowEnd, h.bytesRead, h.outputCapacity]

theorem Bounded.announce (h : Bounded r) (data : Bytes) (index : UInt64) (eof : Bool) :
    Bounded (r.announce data index eof) := by
  unfold StreamReassembler.announce
  split
  · exact ⟨h.separated, h.nonempty, h.gap, h.inside, h.count, h.capacity⟩
  · exact h

/-- The announcement of the end does not matter for what is stored. -/
theorem Admitted.of_announce {index : UInt64} {eof : Bool}
    (h : Admitted (r.announce data index eof) data index r₁) : Admitted r data index r₁ where
  crowded := h.crowded
  count := by simpa using h.count
  cover := by simpa [Admits, admittedEnd] using h.cover
  grown := by simpa using h.grown

/-- **What a push does**: it stores what it admits, flushes and closes. -/
theorem Bounded.admitted (h : Bounded r) (hsolid : ∀ seg ∈ r.buf, Solid seg) (data : Bytes)
    (index : UInt64) (eof : Bool)
    (hfits : index.toNat < r.firstUnacceptable → index.toNat + data.length ≤ 2 ^ 64) :
    ∃ r₁, (r.announce data index eof).store data index = .ok r₁ ∧
      Admitted r data index r₁ ∧ Announced r data index eof r₁ ∧
      r.pushSubstring data index eof = .ok r₁.flush.finish := by
  obtain ⟨r₁, hstore, hadmitted⟩ := (h.announce data index eof).store (by simpa using hsolid) data
    index (by simpa using hfits)
  refine ⟨r₁, hstore, hadmitted.of_announce, announced_of_frame (store_frame hstore), ?_⟩
  simp [pushSubstring, hstore, bind, Except.bind, pure, Except.pure]

/-- **A push returns and keeps the invariant.** -/
theorem Bounded.push (h : Bounded r) (hsmall : r.windowEnd < 2 ^ 63)
    (hdata : data.length < 2 ^ 63) (index : UInt64) (eof : Bool) :
    ∃ r₁ r', (r.announce data index eof).store data index = .ok r₁ ∧
      r.pushSubstring data index eof = .ok r' ∧ Bounded r' ∧ r'.windowEnd = r.windowEnd := by
  have hwindow := firstUnacceptable_le h.capacity
  obtain ⟨r₁, hstore, hadmitted, hann, hrun⟩ :=
    h.admitted (h.solid (by omega)) data index eof (by omega)
  obtain ⟨hflush, hend⟩ := hadmitted.crowded.flush
  refine ⟨r₁, r₁.flush.finish, hstore, hrun, hflush.finish, ?_⟩
  rw [windowEnd_finish, hend, windowEnd, windowEnd, hann.output]

end Push

/-! ## §5 Whole runs -/

theorem windowEnd_read (r : StreamReassembler) (len : ℕ) :
    r.windowEnd ≤ windowEnd { r with output := (r.output.read len).2 } := by
  simp only [windowEnd, ByteStream.read, ByteStream.popOutput_bytesRead,
    ByteStream.popOutput_capacity]
  omega

theorem Bounded.read {r : StreamReassembler} (h : Bounded r) (len : ℕ) :
    Bounded { r with output := (r.output.read len).2 } := by
  refine ⟨h.separated, h.nonempty, h.gap, fun seg hmem => ?_, h.count, h.capacity⟩
  exact (h.inside seg hmem).trans (r.windowEnd_read len)

/-- The capacities stay, and reading only goes forward. -/
theorem Feeds.frame {r r' : StreamReassembler} {i : Input} (h : Feeds r i r') :
    r'.output.capacity = r.output.capacity ∧ r'.capacity = r.capacity ∧
      r.windowEnd ≤ r'.windowEnd := by
  cases i with
  | push data _ index eof =>
    have hpush := pushes_pushSubstring h
    refine ⟨hpush.outputCapacity, hpush.capacity, ?_⟩
    rw [windowEnd, windowEnd, hpush.bytesRead, hpush.outputCapacity]
  | read len =>
    cases h
    exact ⟨rfl, rfl, r.windowEnd_read len⟩

theorem Bounded.feed {r r' : StreamReassembler} {i : Input} (h : Bounded r)
    (hsmall : r.windowEnd < 2 ^ 63) (hstep : Feeds r i r') : Bounded r' := by
  cases i with
  | push data hdata index eof =>
    obtain ⟨-, r₁, -, hrun, hinv, -⟩ := h.push hsmall hdata index eof
    cases hrun.symm.trans hstep
    exact hinv
  | read len =>
    cases hstep
    exact h.read len

/-- **The memory bound.**  In every state that calls with any data lead to, the storage is in
    order and within the capacity, and the next push returns, after a flush that terminates. -/
theorem storage_invariant {capacity : UInt64} {inputs : List Input} {r : StreamReassembler}
    (h : Trace Feeds (.new capacity) inputs r)
    (hsmall : r.firstUnread + r.capacity.toNat < 2 ^ 63) :
    StorageInvariant r ∧ ∀ data index eof, data.length < 2 ^ 63 →
      ∃ stored r', (r.announce data index eof).store data index = .ok stored ∧
        Loop.iterate flushRound (stored.buf.length + 1) stored = some stored.flush ∧
        r.pushSubstring data index eof = .ok r' ∧ StorageInvariant r' := by
  have hcapacity : r.output.capacity = r.capacity := by
    refine h.invariant (I := fun r => r.output.capacity = r.capacity) ?_ rfl
    intro s i t hs hst
    rw [(Feeds.frame hst).1, hs, (Feeds.frame hst).2.1]
  have hend : r.windowEnd < 2 ^ 63 := by
    rw [windowEnd, hcapacity]
    exact hsmall
  -- the window only moves forward, so its end was small in every earlier state
  have hinv : Bounded r := by
    refine h.invariant_of_bound (J := fun _ => True) (B := fun r => r.windowEnd < 2 ^ 63)
      (fun _ _ _ _ _ => trivial) ?_ ?_ trivial (Bounded.new capacity) hend
    · exact fun s i t _ hst ht => (Feeds.frame hst).2.2.trans_lt ht
    · exact fun s i t _ hs ht hst => hs.feed ((Feeds.frame hst).2.2.trans_lt ht) hst
  refine ⟨hinv.storageInvariant (by omega), fun data index eof hdata => ?_⟩
  obtain ⟨r₁, r', hstore, hpush, hinv', hend'⟩ := hinv.push hend hdata index eof
  exact ⟨r₁, r', hstore, r₁.flush_terminates, hpush, hinv'.storageInvariant (by omega)⟩

/-- Substrings that contradict each other, and one whose end wraps round. -/
theorem storage_invariant_conflict :
    ∃ r, Trace Feeds (.new 8) [.push [2, 3] (by decide) 1 false,
        .push [7, 8, 9] (by decide) 2 false,
        .push [1, 1] (by decide) (UInt64.ofNat (2 ^ 64 - 1)) true, .read 1] r ∧
      r.buf = [{ idx := 1, data := [2, 3, 8, 9] }] ∧ StorageInvariant r := by
  have h : Trace Feeds (.new 8) [.push [2, 3] (by decide) 1 false,
      .push [7, 8, 9] (by decide) 2 false,
      .push [1, 1] (by decide) (UInt64.ofNat (2 ^ 64 - 1)) true, .read 1] _ :=
    .cons rfl (.cons rfl (.cons rfl (.cons rfl (.nil _))))
  exact ⟨_, h, rfl, (storage_invariant h (by decide)).1⟩

end StreamReassembler

end Sponge
