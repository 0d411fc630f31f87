import Sponge.Receiver.Delivery

/-!
# The Window of the Receiver

What a receiver promises to its peer is the number it acknowledges and the number of bytes it
takes beyond it.  Both are computed from counters that only grow, whatever the segments contain.

- `segmentReceived_cases`: the ways through `segment_received`
- `Forward r r'`: what a receiver never takes back
- `windowSize_eq`: the window is the free part of the output, even where `first_unacceptable()`
  has wrapped round
- `firstUnassembled_le_firstUnacceptable_iff`: when the subtraction of `window_size()` does not
  underflow
- `Forward.rightEdge_le`: the right edge of the window never moves back
-/

namespace Sponge

namespace TCPReceiver

/-! ## §1 Inversion of `segment_received` -/

/-- The ways through `segment_received`. -/
theorem segmentReceived_cases {r r' : TCPReceiver} {seg : TCPSegment}
    (h : r.segmentReceived seg = .ok r') :
    (r.syn = false ∧ seg.header.syn = false ∧ r' = r) ∨
    (r.syn = false ∧ seg.header.syn = true ∧
      ∃ re, r.reassembler.pushSubstring seg.payload 0 seg.header.fin = .ok re ∧
        r' = { r with isn := seg.header.seqno, syn := true, reassembler := re }) ∨
    (r.syn = true ∧ ∃ index re,
      r.reassembler.pushSubstring seg.payload index seg.header.fin = .ok re ∧
        r' = { r with reassembler := re }) := by
  unfold segmentReceived at h
  cases hopen : r.syn with
  | false =>
    cases hsyn : seg.header.syn with
    | false =>
      simp only [hopen, hsyn, Bool.not_false, if_true, Except.ok.injEq] at h
      exact .inl ⟨rfl, rfl, h.symm⟩
    | true =>
      simp only [hopen, hsyn, Bool.not_false, Bool.not_true, Bool.false_eq_true, if_true,
        if_false, bind, Except.bind, pure, Except.pure] at h
      split at h
      · cases h
      · rename_i re hpush
        exact .inr (.inl ⟨rfl, rfl, re, hpush, (Except.ok.inj h).symm⟩)
  | true =>
    simp only [hopen, Bool.not_true, Bool.false_eq_true, if_false, bind, Except.bind, pure,
      Except.pure] at h
    split at h
    · cases h
    · rename_i re hpush
      exact .inr (.inr ⟨rfl, _, re, hpush, (Except.ok.inj h).symm⟩)

/-- Whatever arrives, the inbound stream does not get into the error state. -/
theorem error_segmentReceived {r r' : TCPReceiver} {seg : TCPSegment}
    (h : r.segmentReceived seg = .ok r') : r'.streamOut.error = r.streamOut.error := by
  rcases segmentReceived_cases h with
    ⟨-, -, rfl⟩ | ⟨-, -, re, hpush, rfl⟩ | ⟨-, index, re, hpush, rfl⟩
  · rfl
  · exact StreamReassembler.error_pushSubstring hpush
  · exact StreamReassembler.error_pushSubstring hpush

/-! ## §2 What a receiver never takes back -/

/-- `r'` is a later state of `r`. -/
structure Forward (r r' : TCPReceiver) : Prop extends Advances r r' where
  isn : r.syn = true → r'.isn = r.isn
  bytesRead : r.streamOut.bytesRead ≤ r'.streamOut.bytesRead
  capacity : r'.reassembler.capacity = r.reassembler.capacity
  outputCapacity : r'.streamOut.capacity = r.streamOut.capacity

section Forward

variable {r r' r'' : TCPReceiver}

theorem Forward.refl (r : TCPReceiver) : Forward r r :=
  ⟨Advances.refl r, fun _ => rfl, Nat.le_refl _, rfl, rfl⟩

theorem Forward.trans (h₁ : Forward r r') (h₂ : Forward r' r'') : Forward r r'' where
  syn := h₂.syn ∘ h₁.syn
  written := h₁.written.trans h₂.written
  inputEnded := h₂.inputEnded ∘ h₁.inputEnded
  isn hsyn := (h₂.isn (h₁.syn hsyn)).trans (h₁.isn hsyn)
  bytesRead := h₁.bytesRead.trans h₂.bytesRead
  capacity := h₂.capacity.trans h₁.capacity
  outputCapacity := h₂.outputCapacity.trans h₁.outputCapacity

/-- **Any segment.** -/
theorem Forward.received {seg : TCPSegment} (h : r.segmentReceived seg = .ok r') :
    Forward r r' := by
  rcases segmentReceived_cases h with
    ⟨-, -, rfl⟩ | ⟨hclosed, -, re, hpush, rfl⟩ | ⟨-, index, re, hpush, rfl⟩
  · exact .refl r'
  · have hre := StreamReassembler.pushes_pushSubstring hpush
    exact ⟨⟨fun _ => rfl, hre.written, hre.inputEnded⟩, by simp [hclosed], hre.bytesRead.ge,
      hre.capacity, hre.outputCapacity⟩
  · have hre := StreamReassembler.pushes_pushSubstring hpush
    exact ⟨⟨id, hre.written, hre.inputEnded⟩, fun _ => rfl, hre.bytesRead.ge, hre.capacity,
      hre.outputCapacity⟩

theorem Forward.firstUnassembled_le (h : Forward r r') :
    r.reassembler.firstUnassembled ≤ r'.reassembler.firstUnassembled := by
  rw [StreamReassembler.firstUnassembled_eq, StreamReassembler.firstUnassembled_eq]
  exact h.written.length_le

/-- The number that the FIN takes up, once it has been reached. -/
theorem Forward.fin_le (h : Forward r r') :
    (if r.streamOut.inputEnded then 1 else 0) ≤ (if r'.streamOut.inputEnded then 1 else 0) := by
  cases hended : r.streamOut.inputEnded with
  | false => simp
  | true => simp [h.inputEnded hended]

/-- The acknowledged number never decreases. -/
theorem Forward.absAckno_le (h : Forward r r') : r.absAckno ≤ r'.absAckno := by
  have hbytes := h.firstUnassembled_le
  have hfin := h.fin_le
  unfold absAckno
  omega

end Forward

/-! ## §3 The window -/

section Window

variable {r r' : TCPReceiver}

/-- The bytes that have been assembled and not yet read, and the room that is left. -/
theorem firstUnassembled_eq_add (r : TCPReceiver) :
    r.reassembler.firstUnassembled = r.streamOut.bytesRead + r.streamOut.bufferSize ∧
      r.streamOut.bufferSize ≤ r.streamOut.capacity.toNat :=
  ⟨r.streamOut.bytesWritten_eq_add, r.streamOut.buff_length_le⟩

/-- **The window.**  The difference of the two ends is right modulo `2 ^ 64`, and it is a
    `size_t`, so that it does not matter whether an end has wrapped round. -/
theorem windowSize_eq (h : r.streamOut.capacity = r.reassembler.capacity) :
    r.windowSize = r.streamOut.capacity.toNat - r.streamOut.bufferSize := by
  obtain ⟨hbytes, hroom⟩ := r.firstUnassembled_eq_add
  have hlt := r.streamOut.capacity.toNat_lt
  unfold windowSize StreamReassembler.firstUnacceptable StreamReassembler.firstUnread
  rw [hbytes, ← h]
  change sizeTSub (sizeT (r.streamOut.bytesRead + _)) _ = _
  unfold sizeTSub sizeT
  omega

/-- The subtraction of `window_size()` underflows as soon as the end of the window is no
    `size_t`. -/
theorem firstUnassembled_le_firstUnacceptable_iff
    (h : r.streamOut.capacity = r.reassembler.capacity) :
    r.reassembler.firstUnassembled ≤ r.reassembler.firstUnacceptable ↔
      r.streamOut.bytesRead + r.streamOut.capacity.toNat < 2 ^ 64 := by
  obtain ⟨hbytes, hroom⟩ := r.firstUnassembled_eq_add
  have hlt := r.streamOut.capacity.toNat_lt
  unfold StreamReassembler.firstUnacceptable StreamReassembler.firstUnread
  rw [hbytes, ← h]
  change _ ≤ sizeT (r.streamOut.bytesRead + _) ↔ _
  unfold sizeT
  omega

/-- The number that the acknowledgement and a window of 16 bits reach. -/
def rightEdge (r : TCPReceiver) : ℕ :=
  r.absAckno + min 65535 (r.streamOut.capacity.toNat - r.streamOut.bufferSize)

/-- Assembled bytes move from the window to the acknowledged number; bytes read and the FIN are
    added to the edge. -/
theorem rightEdge_eq (r : TCPReceiver) :
    r.rightEdge = 1 + (if r.streamOut.inputEnded then 1 else 0) +
      min (r.reassembler.firstUnassembled + 65535)
        (r.streamOut.bytesRead + r.streamOut.capacity.toNat) := by
  obtain ⟨hbytes, hroom⟩ := r.firstUnassembled_eq_add
  unfold rightEdge absAckno
  omega

/-- **The right edge never moves back.** -/
theorem Forward.rightEdge_le (h : Forward r r') : r.rightEdge ≤ r'.rightEdge := by
  have hbytes := h.firstUnassembled_le
  have hread := h.bytesRead
  have hfin := h.fin_le
  rw [rightEdge_eq, rightEdge_eq, h.outputCapacity]
  omega

end Window

end TCPReceiver

end Sponge
