import Sponge.Connection.Steps

/-!
# The Outbound Direction Never Stalls

Over every run of a connection, whatever segments arrive: the loop of `fill_window` ends, the
window is full or nothing is left to send, and what is in flight stands in the retransmission
queue with the timer running.
-/

namespace Sponge

namespace TCPConnection

open TCPSender (Tracked Settled)

/-- The invariant of the sending half of a connection. -/
structure Driven (c : TCPConnection) : Prop where
  tracked : Tracked c.sender
  settled : Settled c.sender

theorem Driven.new (cfg : TCPConfig) (randomDevice : UInt32) :
    Driven (.new cfg randomDevice) where
  tracked := Tracked.new cfg.sendCapacity cfg.rtTimeout cfg.fixedIsn randomDevice
  settled := fun hack => absurd hack (Nat.lt_irrefl 0)

theorem Driven.step {c d : TCPConnection} {op : Op} (h : Driven c) (hstep : c.Step op d) :
    Driven d :=
  ⟨(hstep.sender_moves.tracked h.tracked).1, hstep.sender_moves.settled h.tracked h.settled⟩

/-- **The outbound direction never stalls.**  In every state of a run in which the SYN has been
    acknowledged. -/
theorem never_stalls {cfg : TCPConfig} {randomDevice : UInt32} {ops : List Op}
    {c : TCPConnection} (h : Execution.Trace Step (.new cfg randomDevice) ops c)
    (hack : 0 < c.sender.lastAckno) :
    -- every `fill_window` has terminated
    c.sender.diverged = false ∧
    -- the window is full, or everything including the FIN has been sent
    (max c.sender.lastWin.toNat 1 ≤ c.sender.bytesInFlight ∨
      (c.sender.stream.buff = [] ∧
        (c.sender.stream.inputEnded = true → c.sender.finSent = true))) ∧
    (c.sender.timer.isStart = true ↔ c.sender.outstandingSeg ≠ []) ∧
    (∀ k, c.sender.lastAckno ≤ k → k < c.sender.nextSeqno →
      ∃ b, ∃ seg ∈ c.sender.outstandingSeg, seg.header.seqno = wrap b c.sender.isn ∧
        b ≤ k ∧ k < b + seg.lengthInSequenceSpace) ∧
    -- hence what is unsent waits for a running timer
    (c.sender.stream.buff ≠ [] ∨
        (c.sender.stream.inputEnded = true ∧ c.sender.finSent = false) →
      0 < c.sender.bytesInFlight ∧ c.sender.timer.isStart = true) := by
  have hdriven : Driven c :=
    h.invariant (fun _ _ _ hs hstep => hs.step hstep) (Driven.new cfg randomDevice)
  have ht := hdriven.tracked
  refine ⟨ht.converged, ?_, ht.timer, fun k => ht.outstanding_cover,
    ht.timer_of_unsent hdriven.settled hack⟩
  -- a filled window is full, or nothing is left to send
  rcases hdriven.settled hack with hfull | ⟨hnil, hfin⟩
  · exact .inl (TCPSender.le_bytesInFlight_of_remainingWin hfull)
  · exact .inr ⟨hnil, fun hended => ht.segmented.finSent_iff.mpr (hfin hended)⟩

/-- The answer of a peer to a SYN with the number 7. -/
def synAck : TCPSegment :=
  { header := { seqno := ⟨100⟩, syn := true, ack := true, ackno := ⟨8⟩, win := 10 } }

/-- The peer has room for ten of the fifteen bytes that are written after the handshake.  The window
    is full, the timer is running, and five bytes wait. -/
theorem never_stalls_full_window : ∃ c : TCPConnection,
    Execution.Trace Step (.new { fixedIsn := some ⟨7⟩ } 0)
        [.connect, .segmentReceived synAck, .write (List.replicate 15 1)] c ∧
      0 < c.sender.lastAckno ∧ c.sender.stream.buff = List.replicate 5 1 ∧
      max c.sender.lastWin.toNat 1 ≤ c.sender.bytesInFlight ∧ c.sender.timer.isStart = true := by
  have htrace : Execution.Trace Step (.new { fixedIsn := some ⟨7⟩ } 0)
    [.connect, .segmentReceived synAck, .write (List.replicate 15 1)] _ :=
    .cons rfl (.cons rfl (.cons rfl (.nil _)))
  obtain ⟨-, hfull, -, -, hunsent⟩ := never_stalls htrace (by decide)
  refine ⟨_, htrace, by decide, by decide, ?_, (hunsent (.inl (by decide))).2⟩
  exact hfull.resolve_right fun hdone => absurd hdone.1 (by decide)

end TCPConnection

end Sponge
