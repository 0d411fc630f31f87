import Sponge.Sender.Invariant

/-!
# The Retransmission Queue

The queue `_outstanding_seg` should hold exactly the segments that are not yet entirely
acknowledged.  Nothing unacknowledged ever leaves it (`popAcked_split`).  Whether everything
acknowledged leaves it depends on a comparison of raw 32-bit numbers: when the sequence
numbers wrap between the front of the queue and the acknowledgement, the front is kept.

- `Exact s`: the queue of `s` is what it should be
- `NoCross s op`: an acknowledgement in `op` that covers the front of the queue does not lie on
  the other side of the wrap-around
- `exact_queue_iff`: the queue is exact throughout a run if and only if no acknowledgement of
  the run crosses
-/

namespace Sponge

namespace TCPSender

open TCPSegment (seqLength seqLength_nil seqLength_cons seqLength_append)

/-! ## §1 The segments in flight -/

/-- The segments whose end lies past `a`, where the first one starts at `b`. -/
def unacked (a : ℕ) : ℕ → List TCPSegment → List TCPSegment
  | _, [] => []
  | b, seg :: rest =>
    if a < b + seg.lengthInSequenceSpace then
      seg :: unacked a (b + seg.lengthInSequenceSpace) rest
    else
      unacked a (b + seg.lengthInSequenceSpace) rest

/-- The queue holds, in order of first transmission, the segments that end past `_last_ackno`.
    The front of the queue is then the segment that contains the number `_last_ackno`. -/
structure Exact (s : TCPSender) : Prop where
  queue : s.outstandingSeg = unacked s.lastAckno 0 s.sent
  front : 0 < s.bytesInFlight → ∃ acked front rest,
    s.sent = acked ++ front :: rest ∧ s.outstandingSeg = front :: rest ∧
      seqLength acked ≤ s.lastAckno ∧
      s.lastAckno < seqLength acked + front.lengthInSequenceSpace
  empty : s.bytesInFlight = 0 → s.outstandingSeg = []

section Unacked

variable {a b : ℕ} {l l₁ l₂ : List TCPSegment}

theorem unacked_append : ∀ {b : ℕ},
    unacked a b (l₁ ++ l₂) = unacked a b l₁ ++ unacked a (b + seqLength l₁) l₂ := by
  induction l₁ with
  | nil => simp [unacked]
  | cons seg rest ih =>
    intro b
    simp only [List.cons_append, unacked, ih, seqLength_cons, Nat.add_assoc]
    split <;> rfl

theorem unacked_eq_nil : ∀ {b : ℕ}, b + seqLength l ≤ a → unacked a b l = [] := by
  induction l with
  | nil => exact fun _ => rfl
  | cons seg rest ih =>
    intro b hle
    rw [seqLength_cons] at hle
    rw [unacked, if_neg (by omega)]
    exact ih (by omega)

theorem unacked_eq_self : ∀ {b : ℕ}, a ≤ b → (∀ seg ∈ l, 0 < seg.lengthInSequenceSpace) →
    unacked a b l = l := by
  induction l with
  | nil => exact fun _ _ => rfl
  | cons seg rest ih =>
    intro b hab hpos
    have hseg := hpos seg List.mem_cons_self
    rw [unacked, if_pos (by omega),
      ih (by omega) fun x hx => hpos x (List.mem_cons_of_mem _ hx)]

theorem seqLength_unacked_le : ∀ {b : ℕ}, seqLength (unacked a b l) ≤ seqLength l := by
  induction l with
  | nil => simp [unacked]
  | cons seg rest ih =>
    intro b
    have := ih (b := b + seg.lengthInSequenceSpace)
    rw [unacked]
    split <;> simp only [seqLength_cons] <;> omega

end Unacked

/-- The absolute number at which the queue starts. -/
def queueStart (s : TCPSender) : ℕ :=
  s.nextSeqno - seqLength s.outstandingSeg

/-- The front of the queue reaches past the last acknowledgement. -/
def FrontPending (s : TCPSender) : Prop :=
  ∀ front ∈ s.outstandingSeg.head?, s.lastAckno < s.queueStart + front.lengthInSequenceSpace

section Queue

variable {s : TCPSender}

/-- The part of the history that has left the queue ends where the queue starts. -/
theorem Tracked.queueStart_spec (h : Tracked s) :
    ∃ acked, s.sent = acked ++ s.outstandingSeg ∧ seqLength acked = s.queueStart ∧
      s.queueStart ≤ s.lastAckno := by
  obtain ⟨acked, hsplit, hle⟩ := h.queue
  have hstart : seqLength acked = s.queueStart := by
    rw [queueStart, h.segmented.nextSeqno_eq, hsplit, seqLength_append]
    omega
  exact ⟨acked, hsplit, hstart, hstart ▸ hle⟩

theorem Tracked.queueStart_add (h : Tracked s) :
    s.queueStart + seqLength s.outstandingSeg = s.nextSeqno := by
  obtain ⟨acked, hsplit, hstart, -⟩ := h.queueStart_spec
  rw [← hstart, h.segmented.nextSeqno_eq, hsplit, seqLength_append]

theorem Tracked.outstanding_pos (h : Tracked s) :
    ∀ seg ∈ s.outstandingSeg, 0 < seg.lengthInSequenceSpace :=
  fun seg hmem => h.segmented.length_pos seg (h.outstanding_subset hmem)

theorem Tracked.outstanding_numbered (h : Tracked s) :
    Numbered s.isn s.queueStart s.outstandingSeg := by
  obtain ⟨acked, hsplit, hstart, -⟩ := h.queueStart_spec
  have hnum := h.segmented.numbered
  rw [hsplit, numbered_append, Nat.zero_add, hstart] at hnum
  exact hnum.2

/-- The part of the history that has left the queue contributes nothing. -/
theorem Tracked.unacked_sent (h : Tracked s) :
    unacked s.lastAckno 0 s.sent = unacked s.lastAckno s.queueStart s.outstandingSeg := by
  obtain ⟨acked, hsplit, hstart, hle⟩ := h.queueStart_spec
  rw [hsplit, unacked_append, unacked_eq_nil (by omega), List.nil_append, Nat.zero_add, hstart]

theorem frontPending_of_exact (h : Tracked s) (hexact : Exact s) : FrontPending s := by
  intro front hfront
  obtain ⟨rest, hcons⟩ := List.head?_eq_some_iff.mp hfront
  by_contra hge
  -- an acknowledged front would not be among the unacknowledged segments
  have hqueue := hexact.queue
  rw [h.unacked_sent, hcons, unacked, if_neg hge] at hqueue
  have hlen := congrArg seqLength hqueue
  have hpos := h.outstanding_pos front (by rw [hcons]; exact List.mem_cons_self)
  have hle := seqLength_unacked_le (a := s.lastAckno) (l := rest)
    (b := s.queueStart + front.lengthInSequenceSpace)
  rw [seqLength_cons] at hlen
  omega

theorem exact_of_frontPending (h : Tracked s) (hfront : FrontPending s) : Exact s := by
  obtain ⟨acked, hsplit, hstart, hle⟩ := h.queueStart_spec
  have hnext := h.queueStart_add
  cases hout : s.outstandingSeg with
  | nil =>
    -- everything that was sent is acknowledged
    rw [hout, seqLength_nil] at hnext
    refine ⟨?_, ?_, fun _ => hout⟩
    · rw [h.unacked_sent, hout, unacked]
    · intro hflight
      unfold bytesInFlight at hflight
      omega
  | cons front rest =>
    have hlt := hfront front (by rw [hout]; rfl)
    rw [hout, seqLength_cons] at hnext
    refine ⟨?_, fun _ => ⟨acked, front, rest, ?_, hout, ?_, ?_⟩, ?_⟩
    · -- the front ends past the acknowledgement, and the others start there
      rw [h.unacked_sent, hout, unacked, if_pos hlt, unacked_eq_self (by omega)]
      intro x hx
      exact h.outstanding_pos x (by rw [hout]; exact List.mem_cons_of_mem _ hx)
    · rw [hsplit, hout]
    · omega
    · omega
    · intro hflight
      unfold bytesInFlight at hflight
      omega

/-- **Exactness is a fact about the front.**  As nothing pending leaves the queue, the queue is
    exact if and only if its front is pending. -/
theorem exact_iff_frontPending (h : Tracked s) : Exact s ↔ FrontPending s :=
  ⟨frontPending_of_exact h, exact_of_frontPending h⟩

end Queue

/-! ## §2 The operations that do not acknowledge -/

/-- Filling the window appends to the queue, so it does not change whether the front is
    pending. -/
theorem frontPending_fillWindow {s : TCPSender} (h : Tracked s) :
    FrontPending s.fillWindow ↔ FrontPending s := by
  obtain ⟨new, hsends⟩ := h.fillWindow_sends
  obtain ⟨-, -, -, hle⟩ := h.queueStart_spec
  have hback := h.queueStart_add
  have hstart : s.fillWindow.queueStart = s.queueStart := by
    rw [queueStart, hsends.nextSeqno, hsends.outstandingSeg, seqLength_append]
    omega
  unfold FrontPending
  rw [hstart, hsends.lastAckno, hsends.outstandingSeg]
  cases hout : s.outstandingSeg with
  | cons front rest => simp
  | nil =>
    -- an empty queue starts at or past the acknowledgement
    rw [hout, seqLength_nil] at hback
    have hack := h.ack_le
    constructor
    · simp
    · intro _ front hfront
      have hmem : front ∈ s.fillWindow.outstandingSeg := by
        rw [hsends.outstandingSeg, hout]
        exact List.mem_of_mem_head? hfront
      have := h.fillWindow.outstanding_pos front hmem
      omega

/-! ## §3 Acknowledgements -/

/-- The raw numbers compare like the absolute ones as long as no wrap-around lies between. -/
private theorem raw_eq_add {isn : WrappingInt32} {a b : ℕ} (hba : b ≤ a) (hnear : a < b + 2 ^ 32)
    (hraw : (wrap b isn).rawValue.toNat ≤ (wrap a isn).rawValue.toNat) :
    (wrap a isn).rawValue.toNat = (wrap b isn).rawValue.toNat + (a - b) := by
  rw [wrap_toNat, wrap_toNat] at *
  omega

/-- If the raw number of the front is not above the raw acknowledgement number, everything
    acknowledged is popped. -/
theorem popAcked_complete {isn : WrappingInt32} {a : ℕ} {segs : List TCPSegment} : ∀ {b : ℕ},
    Numbered isn b segs → b ≤ a → a < b + 2 ^ 32 →
      (wrap b isn).rawValue.toNat ≤ (wrap a isn).rawValue.toNat →
      ∃ popped, segs = popped ++ popAcked (wrap a isn) segs ∧
        ∀ front ∈ (popAcked (wrap a isn) segs).head?,
          a < b + seqLength popped + front.lengthInSequenceSpace := by
  induction segs with
  | nil => exact fun _ _ _ _ => ⟨[], rfl, by simp [popAcked]⟩
  | cons seg rest ih =>
    intro b hnum hba hnear hraw
    obtain ⟨hseqno, hrest⟩ := hnum
    have hdist := raw_eq_add hba hnear hraw
    rcases Nat.lt_or_ge (wrap a isn).rawValue.toNat
      (seg.header.seqno.rawValue.toNat + seg.lengthInSequenceSpace) with hkeep | hpop
    · -- the segment reaches past `a`, in raw and so in absolute numbers
      have hkept := popAcked_cons_of_lt rest hkeep
      refine ⟨[], by rw [hkept, List.nil_append], ?_⟩
      rw [hkept]
      intro front hfront
      cases hfront
      rw [hseqno] at hkeep
      rw [seqLength_nil]
      omega
    · have hpopped := popAcked_cons_of_le rest hpop
      -- the next segment has not passed the wrap-around either
      rw [hseqno] at hpop
      have hnext : (wrap (b + seg.lengthInSequenceSpace) isn).rawValue.toNat ≤
          (wrap a isn).rawValue.toNat := by
        rw [wrap_toNat, wrap_toNat] at *
        omega
      obtain ⟨popped, hsplit, hfront⟩ := ih hrest (by omega) (by omega) hnext
      refine ⟨seg :: popped, ?_, ?_⟩
      · rw [hpopped, List.cons_append, ← hsplit]
      · rw [hpopped]
        intro front hmem
        have := hfront front hmem
        rw [seqLength_cons]
        omega

/-- **When the pops are complete.**  The first segment that the pops leave reaches past `a` if
    and only if the front of the queue, in case it is acknowledged, does not lie on the other
    side of the wrap-around. -/
theorem popAcked_front_iff {isn : WrappingInt32} {a b : ℕ} {front : TCPSegment}
    {rest : List TCPSegment} (hnum : Numbered isn b (front :: rest)) (hba : b ≤ a)
    (hnear : a < b + 2 ^ 32) :
    (∀ x ∈ (popAcked (wrap a isn) (front :: rest)).head?,
      a + seqLength (popAcked (wrap a isn) (front :: rest)) <
        b + seqLength (front :: rest) + x.lengthInSequenceSpace) ↔
    (b + front.lengthInSequenceSpace ≤ a →
      front.header.seqno.rawValue.toNat ≤ (wrap a isn).rawValue.toNat) := by
  constructor
  · intro hleft hcov
    by_contra hraw
    -- the front stays although it is acknowledged
    have hkept : popAcked (wrap a isn) (front :: rest) = front :: rest :=
      popAcked_cons_of_lt rest (by omega)
    rw [hkept] at hleft
    have := hleft front rfl
    omega
  · intro hcross x hx
    by_cases hcov : b + front.lengthInSequenceSpace ≤ a
    · have hraw := hcross hcov
      rw [hnum.1] at hraw
      obtain ⟨popped, hpopped, hfront⟩ := popAcked_complete hnum hba hnear hraw
      have hlen := congrArg seqLength hpopped
      have hpast := hfront x hx
      rw [seqLength_append] at hlen
      omega
    · -- an uncovered front is not popped
      obtain ⟨popped, hpopped, hshort⟩ := popAcked_split hnum hba
      cases popped with
      | nil =>
        rw [List.nil_append] at hpopped
        rw [← hpopped, List.head?_cons, Option.mem_some_iff] at hx
        rw [← hpopped, ← hx]
        omega
      | cons y ys =>
        rw [List.cons_append] at hpopped
        rw [← (List.cons.inj hpopped).1, seqLength_cons] at hshort
        omega

/-- The step from `s` by `op` does not acknowledge the front of the queue across the
    wrap-around of the raw numbers. -/
def NoCross (s : TCPSender) : Op → Prop
  -- the acknowledgement is accepted, it is new, and it covers the front segment
  | .ackReceived ackno _ =>
    s.lastAckno < unwrap ackno s.isn s.lastAckno →
    unwrap ackno s.isn s.lastAckno ≤ s.nextSeqno →
    ∀ front ∈ s.outstandingSeg.head?,
      s.queueStart + front.lengthInSequenceSpace ≤ unwrap ackno s.isn s.lastAckno →
      front.header.seqno.rawValue ≤ ackno.rawValue
  | _ => True

/-- A segment is never longer than a full payload with both flags. -/
private theorem length_le {s : TCPSender} (h : Segmented s) {seg : TCPSegment}
    (hmem : seg ∈ s.sent) : seg.lengthInSequenceSpace ≤ TCPConfig.maxPayloadSize + 2 := by
  have := h.payload_le seg hmem
  unfold TCPSegment.lengthInSequenceSpace
  split <;> split <;> omega

/-- **The pops of one acknowledgement.**  From a state with a pending front, the front is
    pending again after the pops if and only if the acknowledgement does not cross. -/
theorem frontPending_acceptAck_iff {s t : TCPSender} {ackno : WrappingInt32} {win : UInt16}
    (h : Tracked s) (hfront : FrontPending s) (hacc : s.acceptAck ackno win = some t) :
    FrontPending t ↔ NoCross s (.ackReceived ackno win) := by
  rcases acceptAck_cases hacc with ⟨hnew, hle, rfl⟩ | ⟨hold, rfl⟩
  · have hnum := h.outstanding_numbered
    -- everything below is in terms of the absolute number where the queue starts
    obtain ⟨-, -, -, hbelow⟩ := h.queueStart_spec
    have hwrap := wrap_unwrap ackno s.isn s.lastAckno
    have hback := h.queueStart_add
    have hnear := unwrap_le ackno s.isn s.lastAckno
    unfold NoCross FrontPending queueStart
    dsimp only
    generalize hanew : unwrap ackno s.isn s.lastAckno = a at *
    cases hout : s.outstandingSeg with
    | nil => simp [popAcked]
    | cons front rest =>
      rw [hout] at hnum hback
      have hpend := hfront front (by rw [hout]; rfl)
      -- the front is pending and short, so the acknowledgement lies near it
      have hnear32 : a < s.queueStart + 2 ^ 32 := by
        have hmem : front ∈ s.sent := h.outstanding_subset (by rw [hout]; exact List.mem_cons_self)
        have hlen := length_le h.segmented hmem
        have : TCPConfig.maxPayloadSize = 1000 := rfl
        omega
      have hiff := popAcked_front_iff hnum (by omega) hnear32
      have hsplit := popAcked_split hnum (by omega : s.queueStart ≤ a)
      rw [hwrap] at hiff hsplit
      have hq : s.nextSeqno - seqLength (front :: rest) = s.queueStart := by omega
      have hle' : seqLength (popAcked ackno (front :: rest)) ≤ seqLength (front :: rest) := by
        obtain ⟨popped, hpopped, -⟩ := hsplit
        have hlen := congrArg seqLength hpopped
        rw [seqLength_append] at hlen
        omega
      have hmove : ∀ len, a < s.nextSeqno - seqLength (popAcked ackno (front :: rest)) + len ↔
          a + seqLength (popAcked ackno (front :: rest)) <
            s.queueStart + seqLength (front :: rest) + len := by
        intro len
        omega
      simp only [List.head?_cons, Option.mem_some_iff, forall_eq', hq, hmove, hiff,
        UInt32.le_iff_toNat_le]
      exact ⟨fun hcross _ _ => hcross, fun hcross => hcross hnew hle⟩
  · -- an old acknowledgement pops nothing
    constructor
    · intro _ hnew
      omega
    · exact fun _ => hfront

/-! ## §4 Runs -/

/-- One step, from a state with an exact queue. -/
theorem exact_apply_iff {s : TCPSender} (h : Tracked s) (hexact : Exact s) (op : Op) :
    Exact (s.apply op) ↔ NoCross s op := by
  -- both sides are facts about the front of the queue
  have hfront := (exact_iff_frontPending h).mp hexact
  rw [exact_iff_frontPending (h.apply op)]
  -- these operations change neither the queue nor the numbers
  have hsame : ∀ {t : TCPSender}, t.outstandingSeg = s.outstandingSeg →
      t.nextSeqno = s.nextSeqno → t.lastAckno = s.lastAckno → FrontPending t := by
    intro t hout hnext hack
    unfold FrontPending queueStart
    rw [hout, hnext, hack]
    exact hfront
  cases op with
  | ackReceived ackno win =>
    simp only [TCPSender.apply, TCPSender.ackReceived]
    split
    · rename_i hnone
      have := acceptAck_eq_none_iff.mp hnone
      exact ⟨fun _ _ hle => absurd hle (by omega), fun _ => hfront⟩
    · rename_i t hacc
      rw [frontPending_fillWindow (h.acceptAck hacc), frontPending_acceptAck_iff h hfront hacc]
  | fillWindow => simpa [NoCross, TCPSender.apply, frontPending_fillWindow h] using hfront
  | tick ms =>
    obtain ⟨heq, -, -⟩ := s.tick_spec ms
    refine iff_of_true (hsame ?_ ?_ ?_) trivial <;> rw [TCPSender.apply, heq]
  | write data => exact iff_of_true (hsame rfl rfl rfl) trivial
  | endInput => exact iff_of_true (hsame rfl rfl rfl) trivial
  | sendEmptySegment => exact iff_of_true (hsame rfl rfl rfl) trivial
  | dequeue => exact iff_of_true (hsame rfl rfl rfl) trivial
  | setError => exact iff_of_true (hsame rfl rfl rfl) trivial

/-- **The runs with an exact queue.**  Throughout a run of a sender the retransmission queue is
    exact if and only if no acknowledgement of the run crosses the wrap-around. -/
theorem exact_queue_iff (capacity : UInt64) (retxTimeout : UInt16)
    (fixedIsn : Option WrappingInt32) (randomDevice : UInt32) (ops : List Op) :
    Execution.Always Step Exact (.new capacity retxTimeout fixedIsn randomDevice) ops ↔
      Execution.Along Step NoCross (.new capacity retxTimeout fixedIsn randomDevice) ops := by
  have hnew := Tracked.new capacity retxTimeout fixedIsn randomDevice
  apply Execution.always_iff_along (I := fun s => Tracked s ∧ Exact s)
  · exact fun s hs => hs.2
  · rintro s op ⟨hs, hexact⟩ hcross
    refine ⟨⟨_, rfl⟩, ?_⟩
    rintro t rfl
    exact ⟨hs.apply op, (exact_apply_iff hs hexact op).mpr hcross⟩
  · rintro s op ⟨hs, hexact⟩ - hafter
    exact (exact_apply_iff hs hexact op).mp (hafter _ rfl)
  · refine ⟨hnew, (exact_iff_frontPending hnew).mpr ?_⟩
    simp [FrontPending, TCPSender.new]

/-- With the largest initial sequence number, the acknowledged SYN stays in the queue. -/
theorem exact_queue_fails : ¬ Execution.Always Step Exact
    (.new 100 1000 (some ⟨0xffffffff⟩) 0) [.fillWindow, .ackReceived ⟨0⟩ 10] := by
  intro h
  have hlast : Exact
      ((TCPSender.new 100 1000 (some ⟨0xffffffff⟩) 0).run [.fillWindow, .ackReceived ⟨0⟩ 10]) :=
    (h.2.2 _ rfl).2.2 _ rfl
  have hempty := hlast.empty (by decide)
  revert hempty
  decide

end TCPSender

end Sponge
