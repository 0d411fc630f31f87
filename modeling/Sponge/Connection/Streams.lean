import Sponge.Codec.Carriage
import Sponge.Connection.Steps
import Sponge.Receiver.Window

/-!
# The Two Streams of a Connection

What the operations of a connection do to the bytes at its two ends, and to the size of the
segments in between.  The socket that runs a connection relies on these facts.

- `Step.outbound`: only `write` adds to the outbound stream
- `Step.inbound`: only `readInbound` takes from the inbound stream, and its end is final
- `Step.sendable`: the emitted segments are small and carry no options
-/

namespace Sponge

open TCPSender (Tracked Emitted)

/-! ## §1 The outbound stream -/

/-- Only `write` adds to the stream of a sender. -/
theorem TCPSender.Tracked.written_apply {s : TCPSender} (h : Tracked s) {op : TCPSender.Op}
    (hop : ∀ data, op ≠ .write data) : (s.apply op).stream.written = s.stream.written := by
  have hfill : ∀ {s : TCPSender}, Tracked s → s.fillWindow.stream.written = s.stream.written := by
    intro s h
    obtain ⟨new, hsends⟩ := h.fillWindow_sends
    exact hsends.written
  cases op with
  | write data => exact absurd rfl (hop data)
  | endInput => rfl
  | fillWindow => exact hfill h
  | ackReceived ackno win =>
    show (s.ackReceived ackno win).stream.written = _
    unfold TCPSender.ackReceived
    split
    · rfl
    · rename_i t hacc
      rw [hfill (h.acceptAck hacc), (TCPSender.acceptAck_frame hacc).1]
  | tick ms =>
    obtain ⟨heq, -⟩ := s.tick_spec ms
    show (s.tick ms).stream.written = _
    rw [heq]
  | sendEmptySegment => rfl
  | dequeue => rfl
  | setError => rfl

theorem TCPSender.Tracked.written_run {s : TCPSender} (h : Tracked s) {ops : List TCPSender.Op}
    (hops : ∀ op ∈ ops, ∀ data, op ≠ .write data) :
    (s.run ops).stream.written = s.stream.written := by
  induction ops generalizing s with
  | nil => rfl
  | cons op ops ih =>
    obtain ⟨hfirst, hrest⟩ := List.forall_mem_cons.mp hops
    exact (ih (h.apply op) hrest).trans (h.written_apply hfirst)

namespace TCPConnection

section Outbound

variable {c d : TCPConnection} {op : Op}

/-- **Only `write` adds to the outbound stream.** -/
theorem Step.outbound (h : c.Step op d) (ht : Tracked c.sender) (hop : ∀ data, op ≠ .write data) :
    d.sender.stream.written = c.sender.stream.written := by
  obtain ⟨ops, hrun, -, hcauses⟩ := h.sender_moves
  rw [hrun]
  refine ht.written_run fun o ho data hdata => ?_
  have hcause := hcauses o ho
  rw [hdata] at hcause
  exact hop data hcause

/-- A write that is accepted as a whole. -/
theorem write_outbound (ht : Tracked c.sender) {data : Bytes}
    (haccepted : (c.write data).2 = data.length) :
    (c.write data).1.sender.stream.written = c.sender.stream.written ++ data := by
  unfold write at haccepted ⊢
  split at haccepted
  · -- nothing is accepted, so there was nothing to write
    rename_i hskip
    rw [if_pos hskip, List.length_eq_zero_iff.mp haccepted.symm, List.append_nil]
  · rename_i hwrite
    rw [if_neg hwrite]
    dsimp only at haccepted ⊢
    obtain ⟨new, hsends⟩ := (ht.apply (.write data)).fillWindow_sends
    have hwritten : (c.sender.apply (.write data)).fillWindow.stream.written =
        c.sender.stream.written ++ c.sender.stream.accepted data := by
      rw [hsends.written]
      exact c.sender.stream.write_written data
    have hall : c.sender.stream.accepted data = data := by
      unfold ByteStream.write at haccepted
      unfold ByteStream.accepted
      split at haccepted
      · rename_i hended
        rw [if_pos hended]
        exact (List.length_eq_zero_iff.mp haccepted.symm).symm
      · rename_i hopen
        rw [if_neg hopen, List.take_of_length_le]
        unfold ByteStream.writeSize at haccepted
        omega
    rw [hall] at hwritten
    exact hwritten

end Outbound

end TCPConnection

/-! ## §2 The inbound stream -/

namespace StreamReassembler

theorem output_flushLoop_of_ended (l : List Segment) {r : StreamReassembler}
    (h : r.output.inputEnded = true) : (flushLoop l r).output = r.output := by
  induction l generalizing r with
  | nil => rfl
  | cons seg rest ih =>
    rw [flushLoop]
    split
    · have hwrite : (r.output.write seg.data).1 = r.output := by rw [ByteStream.write, if_pos h]
      rw [ih (by rw [hwrite]; exact h), hwrite]
    · rfl

/-- Nothing is added to an output that has ended. -/
theorem output_pushSubstring_of_ended {r r' : StreamReassembler} {data : Bytes} {index : UInt64}
    {eof : Bool} (hrun : r.pushSubstring data index eof = .ok r')
    (h : r.output.inputEnded = true) : r'.output = r.output := by
  obtain ⟨r₁, hann, rfl⟩ := pushSubstring_announced hrun
  have hr₁ : r₁.output.inputEnded = true := by rw [hann.output]; exact h
  have hflush : r₁.flush.output = r₁.output := output_flushLoop_of_ended r₁.buf hr₁
  have hfinish : r₁.flush.finish.output = r₁.flush.output := by
    unfold finish
    split
    · -- the input is ended once more
      have hended : r₁.flush.output.inputEnded = true := by rw [hflush]; exact hr₁
      exact ByteStream.ext_data rfl rfl rfl rfl hended.symm rfl
    · rfl
  rw [hfinish, hflush, hann.output]

end StreamReassembler

namespace TCPReceiver

variable {r r' : TCPReceiver} {seg : TCPSegment}

theorem streamOut_segmentReceived_of_ended (h : r.segmentReceived seg = .ok r')
    (hended : r.streamOut.inputEnded = true) : r'.streamOut = r.streamOut := by
  rcases segmentReceived_cases h with
    ⟨-, -, rfl⟩ | ⟨-, -, re, hpush, rfl⟩ | ⟨-, index, re, hpush, rfl⟩
  · rfl
  · exact StreamReassembler.output_pushSubstring_of_ended hpush hended
  · exact StreamReassembler.output_pushSubstring_of_ended hpush hended

theorem bytesRead_segmentReceived (h : r.segmentReceived seg = .ok r') :
    r'.streamOut.bytesRead = r.streamOut.bytesRead := by
  rcases segmentReceived_cases h with
    ⟨-, -, rfl⟩ | ⟨-, -, re, hpush, rfl⟩ | ⟨-, index, re, hpush, rfl⟩
  · rfl
  · exact (StreamReassembler.pushes_pushSubstring hpush).bytesRead
  · exact (StreamReassembler.pushes_pushSubstring hpush).bytesRead

/-- The bytes that have been read from the stream. -/
def readOut (r : TCPReceiver) : Bytes :=
  r.streamOut.written.take r.streamOut.bytesRead

/-- The stream is over for its reader. -/
def Done (r : TCPReceiver) : Prop :=
  r.streamOut.eof = true ∨ r.streamOut.error = true

/-- A segment adds at the end of the stream only. -/
theorem readOut_segmentReceived (h : r.segmentReceived seg = .ok r') : r'.readOut = r.readOut := by
  obtain ⟨more, hmore⟩ := (Forward.received h).written
  rw [readOut, bytesRead_segmentReceived h, ← hmore,
    List.take_append_of_le_length r.streamOut.bytesRead_le]
  rfl

theorem Done.segmentReceived (hdone : r.Done) (h : r.segmentReceived seg = .ok r') : r'.Done := by
  rcases hdone with heof | herror
  · left
    rw [streamOut_segmentReceived_of_ended h ((ByteStream.eof_iff _).mp heof).1]
    exact heof
  · exact .inr ((error_segmentReceived h).trans herror)

end TCPReceiver

namespace TCPConnection

section Inbound

variable {c d : TCPConnection} {op : Op}

/-- Reading takes bytes in order. -/
theorem readOut_readInbound (c : TCPConnection) (len : ℕ) :
    (c.readInbound len).receiver.readOut = c.receiver.readOut ++ c.inboundStream.peekOutput len :=
  c.inboundStream.take_popOutput_bytesRead len

theorem done_readInbound (hdone : c.receiver.Done) (len : ℕ) :
    (c.readInbound len).receiver.Done := by
  rcases hdone with heof | herror
  · -- nothing is left to read at the end
    left
    have hnil := ((ByteStream.eof_iff _).mp heof).2
    show (c.receiver.streamOut.popOutput len).eof = true
    rw [ByteStream.popOutput_of_buff_nil _ len hnil]
    exact heof
  · exact .inr herror

/-- **Only `readInbound` takes from the inbound stream, and its end is final.** -/
theorem Step.inbound (h : c.Step op d) :
    ((∀ len, op ≠ .readInbound len) → d.receiver.readOut = c.receiver.readOut) ∧
      (c.receiver.Done → d.receiver.Done) := by
  cases h.effect with
  | ignored => exact ⟨fun _ => rfl, id⟩
  | read len => exact ⟨fun hop => absurd rfl (hop len), fun hdone => done_readInbound hdone len⟩
  | filled hb =>
    cases hb with
    | connect => exact ⟨fun _ => rfl, id⟩
    | write => exact ⟨fun _ => rfl, id⟩
    | endInput => exact ⟨fun _ => rfl, id⟩
    | syn seg r _ _ hr =>
      exact ⟨fun _ => TCPReceiver.readOut_segmentReceived hr, fun hdone => hdone.segmentReceived hr⟩
  | reset => exact ⟨fun _ => rfl, fun _ => .inr rfl⟩
  | replied seg r _ _ hr =>
    rw [cleanShutdown_receiver]
    exact ⟨fun _ => TCPReceiver.readOut_segmentReceived hr, fun hdone => hdone.segmentReceived hr⟩
  | aborted =>
    rw [uncleanShutdown_receiver, sendRstSegment_receiver]
    exact ⟨fun _ => rfl, fun _ => .inr rfl⟩
  | ticked =>
    rw [cleanShutdown_receiver]
    exact ⟨fun _ => rfl, id⟩

end Inbound

/-! ## §3 The segments in between -/

section Sendable

variable {c d : TCPConnection} {op : Op} {base : TCPSegment}

open TCPSegment (Sendable)

/-- What a sender emits is small and carries no options. -/
theorem sendable_of_emitted {s : TCPSender} (h : Tracked s) (hbase : Emitted s base) :
    base.Sendable := by
  rcases hbase with hsent | ⟨v, -, rfl⟩
  · refine ⟨?_, h.segmented.payload_le base hsent⟩
    cases hcons : s.sent with
    | nil => simp [hcons] at hsent
    | cons first rest =>
      rw [hcons] at hsent
      rcases List.mem_cons.mp hsent with rfl | hrest
      · rw [h.segmented.syn_first _ _ hcons]
        rfl
      · have hplain : TCPSender.Plain base :=
          h.segmented.plain base (by rw [hcons]; exact hrest)
        rw [hplain]
  · exact ⟨rfl, Nat.zero_le _⟩

theorem sendable_fillHeader (r : TCPReceiver) (h : base.Sendable) :
    (fillHeader r base).Sendable := by
  unfold fillHeader
  split
  · exact h
  · exact ⟨h.doff, h.payload⟩

/-- Everything on the outbound queue can be sent. -/
def AllSendable (c : TCPConnection) : Prop :=
  ∀ seg ∈ c.segmentsOut, seg.Sendable

theorem AllSendable.sendSegment (h : AllSendable c) (ht : Tracked c.sender) :
    AllSendable c.sendSegment := by
  intro seg hmem
  rcases List.mem_append.mp hmem with hold | hnew
  · exact h seg hold
  · obtain ⟨base, hbase, rfl⟩ := List.mem_map.mp hnew
    exact sendable_fillHeader _ (sendable_of_emitted ht (ht.emitted base hbase))

theorem AllSendable.sendRstSegment (h : AllSendable c) (ht : Tracked c.sender) :
    AllSendable c.sendRstSegment := by
  unfold TCPConnection.sendRstSegment
  dsimp only
  split
  · exact h
  · rename_i front rest hcons
    have hfront : front.Sendable := sendable_of_emitted ht.fillWindow
      (ht.fillWindow.emitted front (by rw [hcons]; exact List.mem_cons_self))
    have hfilled := sendable_fillHeader c.receiver hfront
    intro seg hmem
    rcases List.mem_append.mp hmem with hold | hnew
    · exact h seg hold
    · rw [List.mem_singleton.mp hnew]
      exact ⟨hfilled.doff, hfilled.payload⟩

/-- **The emitted segments are small and carry no options.** -/
theorem Step.sendable (hstep : c.Step op d) (ht : Tracked c.sender) (h : AllSendable c) :
    AllSendable d := by
  cases hstep.effect with
  | ignored => exact h
  | read => exact h
  | @filled _ b hb =>
    have hb' : AllSendable { b with sender := b.sender.fillWindow } := by
      intro seg hmem
      rw [show ({ b with sender := b.sender.fillWindow } : TCPConnection).segmentsOut =
        b.segmentsOut from rfl, hb.segmentsOut] at hmem
      exact h seg hmem
    exact hb'.sendSegment (hb.tracked ht).fillWindow
  | reset => exact h
  | replied seg r _ hrst =>
    have hreply := (reply_moves { c with timeSinceLastSegmentReceived := 0, receiver := r }
      rfl hrst).tracked ht
    unfold AllSendable
    rw [cleanShutdown_segmentsOut]
    exact AllSendable.sendSegment (c := c.answered seg r) h hreply.1
  | aborted ms => exact AllSendable.sendRstSegment (c := c.clocked ms) h (ht.tick ms)
  | ticked ms =>
    unfold AllSendable
    rw [cleanShutdown_segmentsOut]
    exact AllSendable.sendSegment (c := c.clocked ms) h (ht.tick ms)

end Sendable

end TCPConnection

end Sponge
