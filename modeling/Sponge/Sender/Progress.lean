import Sponge.Sender.Retransmission

/-!
# Progress of the Sender

A sender that has something to send and is not sending it must have something in flight, and
the retransmission timer must be running.  The window is filled after every call of
`fill_window`, and stays filled until the stream or the window changes.  The owner of a sender
therefore has to call `fill_window` after it has touched the stream: it has to be `Settling`.

- `Settled s`: once the SYN is acknowledged, the window is full or nothing is left to send
- `Settled.run`: settling operations keep a sender settled
- `Tracked.outstanding_cover`: the queue covers all numbers in flight
- `Tracked.timer_of_unsent`: what is unsent waits for a running timer
-/

namespace Sponge

namespace TCPSender

open TCPSegment (seqLength seqLength_nil seqLength_cons seqLength_append)

/-! ## §1 Settled senders -/

def Settled (s : TCPSender) : Prop :=
  0 < s.lastAckno → Filled s

/-- Every write and every closing of the stream is followed by a call of `fill_window`. -/
inductive Settling : List Op → Prop where
  | nil : Settling []
  | write {ops : List Op} (data : Bytes) (rest : Settling ops) :
      Settling (.write data :: .fillWindow :: ops)
  | endInput {ops : List Op} (rest : Settling ops) : Settling (.endInput :: .fillWindow :: ops)
  | other {op : Op} {ops : List Op} (hwrite : ∀ data, op ≠ .write data) (hend : op ≠ .endInput)
      (rest : Settling ops) : Settling (op :: ops)

theorem Settling.append {ops ops' : List Op} (h : Settling ops) (h' : Settling ops') :
    Settling (ops ++ ops') := by
  induction h with
  | nil => exact h'
  | write data _ ih => exact .write data ih
  | endInput _ ih => exact .endInput ih
  | other hwrite hend _ ih => exact .other hwrite hend ih

theorem Settled.of_fillWindow {s : TCPSender} (h : Tracked s) : Settled s.fillWindow := by
  obtain ⟨⟨new, hsends⟩, -, hfilled⟩ := fillWindow_spec h.segmented h.ack_le
  intro hack
  rw [hsends.lastAckno] at hack
  exact hfilled hack

/-- Whether a sender is settled depends on the stream, the window and the numbers only. -/
theorem Settled.congr {s t : TCPSender} (h : Settled s) (hstream : t.stream = s.stream)
    (hwin : t.lastWin = s.lastWin) (hnext : t.nextSeqno = s.nextSeqno)
    (hack : t.lastAckno = s.lastAckno) : Settled t := by
  unfold Settled Filled remainingWin curWin bytesInFlight at *
  rw [hstream, hwin, hnext, hack]
  exact h

theorem Settled.apply {s : TCPSender} (ht : Tracked s) (h : Settled s) {op : Op}
    (hwrite : ∀ data, op ≠ .write data) (hend : op ≠ .endInput) : Settled (s.apply op) := by
  cases op with
  | write data => exact absurd rfl (hwrite data)
  | endInput => exact absurd rfl hend
  | fillWindow => exact Settled.of_fillWindow ht
  | ackReceived ackno win =>
    simp only [TCPSender.apply, TCPSender.ackReceived]
    split
    · exact h
    · rename_i t hacc
      exact Settled.of_fillWindow (ht.acceptAck hacc)
  | tick ms =>
    rw [TCPSender.apply, (s.tick_spec ms).1]
    exact h.congr rfl rfl rfl rfl
  | sendEmptySegment => exact h.congr rfl rfl rfl rfl
  | dequeue => exact h.congr rfl rfl rfl rfl
  | setError => exact h

/-- **Settling operations keep a sender settled.** -/
theorem Settled.run {ops : List Op} (hops : Settling ops) : ∀ {s : TCPSender}, Tracked s →
    Settled s → Settled (s.run ops) := by
  induction hops with
  | nil => exact fun _ h => h
  | write data _ ih =>
    intro s ht _
    -- whatever the write did, the call after it fills the window
    have ht' := ht.apply (.write data)
    exact ih (ht'.apply .fillWindow) (Settled.of_fillWindow ht')
  | endInput _ ih =>
    intro s ht _
    have ht' := ht.apply .endInput
    exact ih (ht'.apply .fillWindow) (Settled.of_fillWindow ht')
  | other hwrite hend _ ih =>
    intro s ht h
    exact ih (ht.apply _) (h.apply ht hwrite hend)

/-! ## §2 What is in flight -/

/-- No room in the window means that the window is used up. -/
theorem le_bytesInFlight_of_remainingWin {s : TCPSender} (h : s.remainingWin = 0) :
    max s.lastWin.toNat 1 ≤ s.bytesInFlight := by
  have hmax := s.curWin_eq_max
  have hlt := s.curWin.toNat_lt
  unfold remainingWin sizeTSub sizeT at h
  omega

/-- A position inside a list of segments lies in one of them. -/
theorem exists_segment_at {k : ℕ} {segs : List TCPSegment} (h : k < seqLength segs) :
    ∃ pre seg post, segs = pre ++ seg :: post ∧ seqLength pre ≤ k ∧
      k < seqLength pre + seg.lengthInSequenceSpace := by
  induction segs generalizing k with
  | nil => simp at h
  | cons x xs ih =>
    rw [seqLength_cons] at h
    by_cases hx : k < x.lengthInSequenceSpace
    · exact ⟨[], x, xs, rfl, by simp, by simpa using hx⟩
    · obtain ⟨pre, seg, post, hsplit, hlow, hhigh⟩ :=
        ih (k := k - x.lengthInSequenceSpace) (by omega)
      refine ⟨x :: pre, seg, post, by rw [hsplit]; rfl, ?_, ?_⟩ <;>
        rw [seqLength_cons] <;> omega

/-- **Coverage.**  Every number in flight lies in a segment of the queue, which carries the
    sequence number of its absolute position. -/
theorem Tracked.outstanding_cover {s : TCPSender} (h : Tracked s) {k : ℕ} (hlow : s.lastAckno ≤ k)
    (hhigh : k < s.nextSeqno) : ∃ b, ∃ seg ∈ s.outstandingSeg,
      seg.header.seqno = wrap b s.isn ∧ b ≤ k ∧ k < b + seg.lengthInSequenceSpace := by
  have hadd := h.queueStart_add
  obtain ⟨-, -, -, hstart⟩ := h.queueStart_spec
  -- the queue reaches from `queueStart` up to the next number
  have hinside : k - s.queueStart < seqLength s.outstandingSeg := by omega
  obtain ⟨pre, seg, post, hsplit, h₁, h₂⟩ := exists_segment_at hinside
  have hnum := h.outstanding_numbered
  rw [hsplit] at hnum
  refine ⟨s.queueStart + seqLength pre, seg, by rw [hsplit]; simp, hnum.seqno_eq, ?_, ?_⟩ <;>
    omega

/-- **Nothing is forgotten.**  If data or the FIN is unsent once the SYN is acknowledged, then
    something is in flight and the timer is running. -/
theorem Tracked.timer_of_unsent {s : TCPSender} (h : Tracked s) (hs : Settled s)
    (hack : 0 < s.lastAckno)
    (hunsent : s.stream.buff ≠ [] ∨ (s.stream.inputEnded = true ∧ s.finSent = false)) :
    0 < s.bytesInFlight ∧ s.timer.isStart = true := by
  have hflight : 0 < s.bytesInFlight := by
    rcases hs hack with hfull | ⟨hnil, hfin⟩
    · have := le_bytesInFlight_of_remainingWin hfull
      omega
    · rcases hunsent with hne | ⟨hended, hnofin⟩
      · exact absurd hnil hne
      · rw [h.segmented.finSent_iff.mpr (hfin hended)] at hnofin
        cases hnofin
  refine ⟨hflight, h.timer.mpr ?_⟩
  intro hnil
  unfold bytesInFlight at hflight
  obtain ⟨b, seg, hmem, -⟩ := h.outstanding_cover (Nat.le_refl s.lastAckno) (by omega)
  rw [hnil] at hmem
  cases hmem

end TCPSender

end Sponge
