import Sponge.Network.System
import Sponge.Receiver.Progress

/-!
# Nothing Is Received before It Is Sent

The invariant `Link` of a direction compares what has arrived with what has been written.  The
same invariant holds if the sending side is taken as if nothing had been written but what has
been sent, and the stream had ended with the FIN.  An acknowledgement is therefore never ahead of
the sender, which would ignore it.

- `TCPSender.trimmed`: the sender without what it has not sent
- `Supplied x y`: the direction from `x` to `y` in terms of what has been sent
- `Supplied.received_le`: no more has been received than has been sent
-/

namespace Sponge

open TCPReceiver (Tracks)

/-! ## §1 The part of a stream that has been sent -/

/-- The part of a stream that has been read, as a stream of its own. -/
def ByteStream.consumed (s : ByteStream) (ended : Bool) : ByteStream :=
  { s with
    buff := []
    bytesWritten := s.bytesRead
    inputEnded := ended
    written := s.written.take s.bytesRead
    buff_length_le := Nat.zero_le _
    bytesWritten_eq := by rw [List.length_take, Nat.min_eq_left s.bytesRead_le]
    bytesRead_le := by rw [List.length_take, Nat.min_eq_left s.bytesRead_le]
    buff_eq := by rw [List.drop_eq_nil_of_le (List.length_take_le _ _)] }

namespace TCPSender

variable {s t : TCPSender}

/-- The sender as if nothing had been written that has not been sent. -/
def trimmed (s : TCPSender) : TCPSender :=
  { s with stream := s.stream.consumed s.finSent }

theorem Tracked.trimmed (h : Tracked s) : Tracked s.trimmed := by
  have hseg := h.segmented
  refine ⟨⟨hseg.nextSeqno_eq, hseg.numbered, hseg.syn_first, hseg.plain, ?_, hseg.payload_le,
    hseg.length_pos, hseg.fin_last, ?_, hseg.nextSeqno_split⟩, h.queue, h.ack_le, h.timer,
    h.converged, h.emitted⟩
  · rw [show s.trimmed.sent = s.sent from rfl, hseg.payload_eq]
    exact (List.take_of_length_le (List.length_take_le _ _)).symm
  · intro hfin
    exact (ByteStream.eof_iff _).mpr ⟨hfin, rfl⟩

/-- What has been sent is the stream once the FIN is among it. -/
theorem Tracked.trimmed_of_finSent (h : Tracked s) (hfin : s.finSent = true) :
    s.trimmed.stream.written = s.stream.written := by
  have hnil := (s.stream.eof_iff.mp (h.segmented.fin_done hfin)).2
  have hbytes := s.stream.bytesWritten_eq_add
  rw [hnil, List.length_nil, s.stream.bytesWritten_eq] at hbytes
  exact List.take_of_length_le (by omega)

theorem Advances.finSent (h : Advances s t) (hfin : s.finSent = true) : t.finSent = true := by
  obtain ⟨seg, hmem, hseg⟩ := List.any_eq_true.mp hfin
  exact List.any_eq_true.mpr ⟨seg, h.sent.subset hmem, hseg⟩

/-- What has been sent only grows, and not beyond the FIN. -/
theorem Advances.trimmed (h : Advances s t) (hs : Tracked s) (ht : Tracked t) :
    s.trimmed.stream.written <+: t.trimmed.stream.written ∧
      (s.finSent = true → t.trimmed.stream.written = s.trimmed.stream.written) := by
  constructor
  · obtain ⟨more, hmore⟩ := h.sent
    have hafter := ht.segmented.payload_eq
    rw [← hmore, List.flatMap_append, hs.segmented.payload_eq] at hafter
    exact ⟨_, hafter⟩
  · intro hfin
    have hended := (s.stream.eof_iff.mp (hs.segmented.fin_done hfin)).1
    rw [hs.trimmed_of_finSent hfin, ht.trimmed_of_finSent (h.finSent hfin), h.frozen hended]

end TCPSender

/-! ## §2 The direction in terms of what has been sent -/

namespace TCPConnection

open TCPSender (Tracked)

/-- The connection as if nothing had been written that has not been sent. -/
def trimmed (c : TCPConnection) : TCPConnection :=
  { c with sender := c.sender.trimmed }

theorem Sound.trimmed {c : TCPConnection} (h : Sound c) : Sound c.trimmed := by
  refine ⟨h.tracked.trimmed, h.outgoing, fun hinactive => ?_⟩
  rcases h.closed hinactive with herror | herror | hclosed
  · exact .inl herror
  · exact .inr (.inl herror)
  · exact .inr (.inr ⟨hclosed.finSent, hclosed.acked, hclosed.syn, hclosed.ended⟩)

structure Supplied (x y : TCPConnection) : Prop where
  link : Link x.trimmed y
  -- the SYN comes first
  opened : y.receiver.syn = true → 0 < x.sender.nextSeqno

theorem Supplied.new (cfg cfg' : TCPConfig) (rnd rnd' : UInt32) :
    Supplied (.new cfg rnd) (.new cfg' rnd') where
  link := ⟨Tracks.new _ _ _, nofun, nofun, Nat.zero_le _⟩
  opened := nofun

section Supplied

variable {x y : TCPConnection} {op : Op}

/-- **No more has been received than has been sent.** -/
theorem Supplied.received_le (h : Supplied x y) (hx : Tracked x.sender) :
    y.received ≤ x.sender.nextSeqno := by
  have htracks := h.link.tracks
  cases hsyn : y.receiver.syn with
  | false =>
    have hnone : y.received = 0 := htracks.received_of_closed hsyn
    omega
  | true =>
    have hpos := h.opened hsyn
    have hsent : x.sender.sent ≠ [] := by
      intro hnil
      have := hx.segmented.sent_eq_nil_iff.mp hnil
      omega
    have hnext := hx.segmented.nextSeqno_split hsent
    have hle := htracks.assembled.written.length_le
    have hlen : x.trimmed.sender.stream.written.length = x.sender.stream.bytesRead := by
      rw [show x.trimmed.sender.stream.written =
        x.sender.stream.written.take x.sender.stream.bytesRead from rfl, List.length_take,
        Nat.min_eq_left x.sender.stream.bytesRead_le]
    have hcount : y.receiver.streamOut.bytesWritten =
        y.receiver.reassembler.output.written.length := ByteStream.bytesWritten_eq _
    rw [received, hsyn, if_pos rfl, hcount, hnext]
    cases hended : y.receiver.streamOut.inputEnded with
    | false =>
      simp only [Bool.false_eq_true, if_false]
      omega
    | true =>
      -- only the FIN ends the stream
      have hfin : x.sender.finSent = true := h.link.announced (htracks.assembled.ended hended).1
      rw [hfin, if_pos rfl]
      omega

theorem Supplied.sender_step {x' : TCPConnection} (h : Supplied x y) (hx : Sound x)
    (hlink : Link x' y) (hstep : x.Step op x') : Supplied x' y := by
  obtain ⟨ht, hadv⟩ := hstep.sender_moves.tracked hx.tracked
  obtain ⟨hmore, hfrozen⟩ := hadv.trimmed hx.tracked ht
  refine ⟨⟨⟨?_, hlink.tracks.isn, hlink.tracks.closed⟩, ?_, hlink.acks, hlink.acked⟩, ?_⟩
  · exact h.link.tracks.assembled.mono hmore fun heof => hfrozen (h.link.announced heof)
  · exact fun heof => hadv.finSent (h.link.announced heof)
  · exact fun hsyn => (h.opened hsyn).trans_le hadv.nextSeqno

/-- A SYN in the network has been sent. -/
theorem Sound.begun_of_syn (hx : Sound x) {seg : TCPSegment} (hmem : seg ∈ x.segmentsOut)
    (hsyn : seg.header.syn = true) : 0 < x.sender.nextSeqno := by
  obtain ⟨base, hbase, hcontent⟩ := hx.outgoing seg hmem
  rw [hcontent.syn] at hsyn
  rcases hbase with hsent | ⟨v, -, rfl⟩
  · by_contra hzero
    rw [hx.tracked.segmented.sent_eq_nil_iff.mpr (by omega)] at hsent
    cases hsent
  · cases hsyn

theorem Supplied.receiver_step {y' : TCPConnection} (h : Supplied x y) (hx : Sound x)
    (hy : Sound y) (hbound : x.sender.stream.written.length + 2 ≤ 2 ^ 31) (hstep : y.Step op y')
    (hnet : ∀ seg, op = .segmentReceived seg → seg ∈ x.segmentsOut) : Supplied x y' := by
  have hlen : x.trimmed.sender.stream.written.length ≤ x.sender.stream.written.length :=
    List.length_take_le' _ _
  refine ⟨h.link.receiver_step hx.trimmed hy (by omega) hstep hnet, fun hsyn => ?_⟩
  cases hstep.receiver_moves with
  | same heq => exact h.opened (heq ▸ hsyn)
  | failed heq => exact h.opened (by rw [heq] at hsyn; exact hsyn)
  | read len heq => exact h.opened (by rw [heq] at hsyn; exact hsyn)
  | received seg hop _ _ hr =>
    rcases TCPReceiver.segmentReceived_cases hr with ⟨-, -, heq⟩ | ⟨-, hflag, -⟩ | ⟨hopen, -⟩
    · exact h.opened (heq ▸ hsyn)
    · exact hx.begun_of_syn (hnet seg hop) hflag
    · exact h.opened hopen

end Supplied

end TCPConnection

end Sponge
