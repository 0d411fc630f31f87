import Sponge.Connection.Advertising
import Sponge.Reassembler.Refinement

/-!
# The Answer to a SYN

A connection in LISTEN should answer a SYN with a SYN of its own.  The code does so when the
receiver, after the segment, has got a SYN and no more.  A segment that carries the SYN, the
whole stream and the FIN takes the receiver further than that, and gets a bare acknowledgement.

- `push_first`: the first push into a reassembler, from its index map
- `listen_fresh`: a connection in LISTEN is a new one, but for the time and what it has emitted
- `syn_answered_iff`: which SYNs are answered with a SYN
-/

namespace Sponge

/-! ## §1 The first push -/

namespace StreamReassembler

/-- **The first push.**  The output takes what fits, and has ended if the end has been announced
    and all has fitted. -/
theorem push_first {data : Bytes} (hdata : data.length < 2 ^ 64) (capacity : UInt64)
    (eof : Bool) : ∃ r, (StreamReassembler.new capacity).pushSubstring data 0 eof = .ok r ∧
      (r.output.inputEnded = true ↔ eof = true ∧ data.length ≤ capacity.toNat) := by
  let S : Source := ⟨data, hdata⟩
  have hlt := capacity.toNat_lt
  have hwindow : (StreamReassembler.new capacity).firstUnacceptable = capacity.toNat := by
    simp only [firstUnacceptable, firstUnread, StreamReassembler.new, ByteStream.new_bytesRead,
      sizeT]
    omega
  have hfits : (Config.new capacity).reassembler.firstUnread +
      (Config.new capacity).reassembler.capacity.toNat < 2 ^ 64 := by
    simp only [Config.new, firstUnread, StreamReassembler.new, ByteStream.new_bytesRead]
    omega
  have hlast : eof = true → data.length = S.bytes.length := fun _ => rfl
  obtain ⟨d, hstep, hd⟩ := (Coupled.new S capacity).push (Nat.zero_le data.length)
    (Nat.le_refl _) hlast (.inl hfits)
  obtain ⟨hrun, hmap⟩ := step_push_iff.mp hstep
  have hsub : S.sub 0 data.length = data := by simp [Source.sub, S]
  rw [hsub] at hrun
  have hrefines := hd.refines
  refine ⟨d.reassembler, hrun, ?_⟩
  -- the map knows the indices of the string that lie in the window
  have hknown : ∀ k, k ∈ d.map.known ↔ k < data.length ∧ k < capacity.toNat := by
    intro k
    rw [hmap, Config.new, hwindow, IndexMap.mem_learn]
    simp [firstUnassembled, StreamReassembler.new]
  have hend : d.map.eofSeen = eof := by
    rw [hmap]
    simp [IndexMap.learn, Config.new]
  rw [hrefines.ended, hend]
  refine and_congr_right fun _ => ?_
  -- the output ends at the first index that is not known
  have hout := hrefines.least.1
  have hmin : ∀ k, ¬ (k < data.length ∧ k < capacity.toNat) →
      d.reassembler.output.bytesWritten ≤ k :=
    fun k hk => hrefines.least.2 (mt (hknown k).mp hk)
  have hfull := hmin (min data.length capacity.toNat) (by omega)
  rw [Set.mem_ofPred_eq, hknown] at hout
  show d.reassembler.output.bytesWritten = data.length ↔ _
  omega

end StreamReassembler

/-! ## §2 Connections in LISTEN -/

namespace TCPSender

variable {s : TCPSender}

theorem nextSeqno_fillWindow_pos (h : s.nextSeqno = 0) : 0 < s.fillWindow.nextSeqno := by
  rw [fillWindow_of_closed h]
  simp [sendSegment, TCPSegment.lengthInSequenceSpace]

/-- An acknowledgement before the SYN is ignored or taken for a reason to send the SYN. -/
theorem ackReceived_of_closed (h : s.nextSeqno = 0) (ackno : WrappingInt32) (win : UInt16) :
    s.ackReceived ackno win = s ∨ 0 < (s.ackReceived ackno win).nextSeqno := by
  unfold ackReceived
  split
  · exact .inl rfl
  · rename_i t hacc
    right
    apply nextSeqno_fillWindow_pos
    rcases acceptAck_cases hacc with ⟨-, -, rfl⟩ | ⟨-, rfl⟩ <;> exact h

theorem stateSummary_ne_closed (h : 0 < s.nextSeqno) : s.stateSummary ≠ .closed := by
  unfold stateSummary
  split_ifs <;> first | omega | simp

end TCPSender

theorem TCPReceiver.stateSummary_ne_listen {r : TCPReceiver} (h : r.syn = true) :
    r.stateSummary ≠ .listen := by
  have hack : r.ackno.isNone = false := by simp [TCPReceiver.ackno, h]
  unfold TCPReceiver.stateSummary
  simp only [hack, Bool.false_eq_true, if_false]
  split_ifs <;> simp

namespace TCPConnection

section Listen

variable {cfg : TCPConfig} {randomDevice : UInt32} {c d : TCPConnection} {op : Op}

/-- A new connection, but for the time and what it has emitted. -/
def Untouched (cfg : TCPConfig) (randomDevice : UInt32) (c : TCPConnection) : Prop :=
  ∃ segs time, c = { fresh cfg randomDevice time with segmentsOut := segs }

theorem Untouched.fields (h : Untouched cfg randomDevice c) :
    c.sender = (TCPConnection.new cfg randomDevice).sender ∧
      c.receiver = .new cfg.recvCapacity ∧ c.isactive = true := by
  obtain ⟨segs, time, rfl⟩ := h
  exact ⟨rfl, rfl, rfl⟩

/-- A SYN has been sent or received, or the connection has failed. -/
def Touched (c : TCPConnection) : Prop :=
  0 < c.sender.nextSeqno ∨ c.sender.stream.error = true ∨ c.receiver.syn = true

theorem Touched.step (hc : Touched c) (ht : TCPSender.Tracked c.sender) (h : c.Step op d) :
    Touched d := by
  have hsender := (h.sender_moves.tracked ht).2
  rcases hc with hsent | herror | hsyn
  · exact .inl (hsent.trans_le hsender.nextSeqno)
  · exact .inr (.inl (hsender.error herror))
  · exact .inr (.inr (h.receiver_forward.syn hsyn))

/-- The reply of a connection that has sent no SYN. -/
theorem reply_of_closed (hzero : c.sender.nextSeqno = 0) (seg : TCPSegment) :
    (∃ out, c.reply seg = { c.sender with segmentsOut := out }) ∨
      0 < (c.reply seg).nextSeqno := by
  have hack : c.acknowledged seg = c.sender ∨ 0 < (c.acknowledged seg).nextSeqno := by
    unfold acknowledged
    split
    · exact TCPSender.ackReceived_of_closed hzero seg.header.ackno seg.header.win
    · exact .inl rfl
  rcases c.reply_cases seg with ⟨heq, -⟩ | ⟨heq, -⟩ <;> rw [heq]
  · rcases hack with hsame | hpos
    · exact .inl ⟨_, hsame⟩
    · exact .inr hpos
  · rcases hack with hsame | hpos
    · exact .inl ⟨_, by rw [hsame]; rfl⟩
    · exact .inr hpos

/-- An operation on an untouched connection. -/
theorem Untouched.step (hc : Untouched cfg randomDevice c) (h : c.Step op d) :
    Untouched cfg randomDevice d ∨ Touched d := by
  obtain ⟨segs, time, rfl⟩ := hc
  have hzero : (fresh cfg randomDevice time).sender.nextSeqno = 0 := rfl
  cases op with
  | connect =>
    cases Except.ok.inj h
    exact .inr (.inl (TCPSender.nextSeqno_fillWindow_pos hzero))
  | write data =>
    cases Except.ok.inj h
    unfold write
    split
    · exact .inl ⟨segs, time, rfl⟩
    · exact .inr (.inl (TCPSender.nextSeqno_fillWindow_pos hzero))
  | endInputStream =>
    cases Except.ok.inj h
    exact .inr (.inl (TCPSender.nextSeqno_fillWindow_pos hzero))
  | segmentReceived seg =>
    rcases segmentReceived_cases h with
      ⟨-, rfl⟩ | ⟨-, -, rfl⟩ | ⟨-, -, r, hr, ⟨-, -, rfl⟩ | ⟨-, rfl⟩⟩
    · exact .inl ⟨segs, time, rfl⟩
    · exact .inr (.inr (.inl rfl))
    · exact .inr (.inl (TCPSender.nextSeqno_fillWindow_pos hzero))
    · rcases TCPReceiver.segmentReceived_cases hr with
        ⟨-, -, rfl⟩ | ⟨-, -, re, -, rfl⟩ | ⟨hopen, -⟩
      · rcases reply_of_closed (c := { fresh cfg randomDevice 0 with segmentsOut := segs }) hzero
          seg with ⟨out, hreply⟩ | hpos
        · -- the empty segments on the queue are all that has changed, and they are sent
          refine .inl ⟨segs ++ out.map (fillHeader (fresh cfg randomDevice 0).receiver), 0, ?_⟩
          exact congrArg (fun s => cleanShutdown (sendSegment
            { fresh cfg randomDevice 0 with segmentsOut := segs, sender := s })) hreply
        · right
          left
          rw [cleanShutdown_sender]
          exact hpos
      · right
        right
        right
        rw [cleanShutdown_receiver]
        rfl
      · cases hopen
  | tick ms =>
    cases Except.ok.inj h
    exact .inl ⟨segs ++ [], time + ms, rfl⟩
  | readInbound len =>
    cases Except.ok.inj h
    refine .inl ⟨segs, time, ?_⟩
    have hempty : (ByteStream.new cfg.recvCapacity).popOutput len = .new cfg.recvCapacity :=
      ByteStream.popOutput_of_buff_nil _ len rfl
    exact congrArg (fun output => { fresh cfg randomDevice time with
      segmentsOut := segs
      receiver := { TCPReceiver.new cfg.recvCapacity with
        reassembler := { StreamReassembler.new cfg.recvCapacity with output } } }) hempty

/-- **Connections in LISTEN.** -/
theorem listen_fresh {ops : List Op} (h : Execution.Trace Step (.new cfg randomDevice) ops c)
    (hstate : c.state = TCPState.ofState .LISTEN) : Untouched cfg randomDevice c := by
  have hinv := h.invariant
    (I := fun c => TCPSender.Tracked c.sender ∧ (Untouched cfg randomDevice c ∨ Touched c)) ?_
    ⟨TCPSender.Tracked.new cfg.sendCapacity cfg.rtTimeout cfg.fixedIsn randomDevice,
      .inl ⟨[], 0, rfl⟩⟩
  · have hsender : c.sender.stateSummary = .closed := congrArg TCPState.sender hstate
    have hreceiver : c.receiver.stateSummary = .listen := congrArg TCPState.receiver hstate
    rcases hinv.2 with huntouched | hsent | herror | hsyn
    · exact huntouched
    · exact absurd hsender (TCPSender.stateSummary_ne_closed hsent)
    · simp [TCPSender.stateSummary, herror] at hsender
    · exact absurd hreceiver (TCPReceiver.stateSummary_ne_listen hsyn)
  · rintro c op d ⟨ht, hc⟩ hstep
    refine ⟨(hstep.sender_moves.tracked ht).1, ?_⟩
    rcases hc with huntouched | htouched
    · exact huntouched.step hstep
    · exact .inr (htouched.step ht hstep)

end Listen

/-! ## §3 The answer -/

/-- From `c` to `d` the connection has sent its SYN, with the acknowledgement of the receiver. -/
def Answered (c d : TCPConnection) : Prop :=
  (∃ seg ∈ appended c d, seg.header.syn = true ∧ seg.header.ack = true ∧
    seg.header.seqno = c.sender.isn ∧ d.receiver.ackno = some seg.header.ackno) ∧
  d.sender.stateSummary ≠ .closed

section Answer

variable {cfg : TCPConfig} {randomDevice : UInt32} {c : TCPConnection} {s : TCPSender}

/-- Filling the window of a closed sender puts the SYN out. -/
theorem sendSegment_answered (hzero : s.nextSeqno = 0) (hisn : s.isn = c.sender.isn)
    (hsyn : c.receiver.syn = true) :
    Answered c { c with sender := s.fillWindow }.sendSegment := by
  refine ⟨?_, TCPSender.stateSummary_ne_closed (TCPSender.nextSeqno_fillWindow_pos hzero)⟩
  have hack : c.receiver.ackno = some (wrap c.receiver.absAckno c.receiver.isn) := by
    simp [TCPReceiver.ackno, hsyn]
  rw [appended_eq rfl]
  refine ⟨fillHeader c.receiver (TCPSender.synSegment s.isn), ?_, ?_⟩
  · apply List.mem_map_of_mem
    rw [TCPSender.fillWindow_of_closed hzero]
    simp [TCPSender.sendSegment, TCPSender.nextSeqnoWrapped, hzero, TCPSender.synSegment]
  · rw [fillHeader, hack]
    exact ⟨rfl, rfl, hisn, hack⟩

/-- The receiver of a new connection and a SYN. -/
theorem receiver_first {seg : TCPSegment} (hsyn : seg.header.syn = true)
    (hlen : seg.payload.length < 2 ^ 64) (capacity : UInt64) :
    ∃ r, (TCPReceiver.new capacity).segmentReceived seg = .ok r ∧ r.syn = true ∧
      (r.stateSummary = .synRecv ↔
        ¬ (seg.header.fin = true ∧ seg.payload.length ≤ capacity.toNat)) := by
  obtain ⟨re, hpush, hended⟩ :=
    StreamReassembler.push_first hlen capacity seg.header.fin
  have herror : re.output.error = false := StreamReassembler.error_pushSubstring hpush
  refine ⟨{ TCPReceiver.new capacity with
    isn := seg.header.seqno, syn := true, reassembler := re }, ?_, rfl, ?_⟩
  · simp [TCPReceiver.segmentReceived, TCPReceiver.new, hsyn, hpush, bind, Except.bind, pure,
      Except.pure]
  · rw [← hended]
    simp only [TCPReceiver.stateSummary, TCPReceiver.streamOut, TCPReceiver.ackno, herror,
      Bool.false_eq_true, Bool.not_true, if_false, Option.isNone_some]
    by_cases h : re.output.inputEnded = true <;> simp [h]

/-- The reply to a SYN that does not leave the receiver with a SYN only. -/
theorem reply_answered_iff {seg : TCPSegment}
    (hsender : c.sender = (TCPConnection.new cfg randomDevice).sender)
    (hr : c.receiver.syn = true) (hsyn : seg.header.syn = true) :
    Answered c { c with sender := c.reply seg }.sendSegment ↔
      seg.header.ack = true ∧ seg.header.ackno = c.sender.isn := by
  have hpos : 0 < seg.lengthInSequenceSpace := by
    simp only [TCPSegment.lengthInSequenceSpace, hsyn, if_true]
    omega
  have hzero : c.sender.nextSeqno = 0 := by rw [hsender]; rfl
  rcases acknowledged_fresh hsender seg with ⟨hack, hacked, hqueue⟩ | ⟨hack, hsame⟩
  · -- the acknowledgement makes the sender put its SYN out
    refine iff_of_true ?_ hack
    rcases c.reply_cases seg with ⟨heq, -⟩ | ⟨-, ⟨-, hempty⟩ | ⟨hempty, -⟩⟩
    · rw [heq, hacked]
      exact sendSegment_answered hzero rfl hr
    · exact absurd hempty hqueue
    · omega
  · -- an empty segment is all that goes out
    refine iff_of_false ?_ hack
    rintro ⟨-, hstate⟩
    rcases c.reply_cases seg with ⟨heq, -⟩ | ⟨heq, -⟩ <;> rw [hsame, hsender] at heq <;>
      simp only [heq] at hstate
    · exact hstate rfl
    · exact hstate rfl

theorem Answered.cleanShutdown_iff {d : TCPConnection} :
    Answered c d.cleanShutdown ↔ Answered c d := by
  rw [Answered, Answered, appended_cleanShutdown, cleanShutdown_sender, cleanShutdown_receiver]

/-- **Which SYNs are answered with a SYN.**  A connection in LISTEN processes every segment with
    SYN and without RST.  It answers with its own SYN if and only if the segment does not carry
    the whole stream up to its FIN, or acknowledges the connection's own initial sequence
    number. -/
theorem syn_answered_iff {ops : List Op}
    (h : Execution.Trace Step (.new cfg randomDevice) ops c)
    (hstate : c.state = TCPState.ofState .LISTEN) (seg : TCPSegment)
    (hsyn : seg.header.syn = true) (hrst : seg.header.rst = false)
    (hlen : seg.payload.length < 2 ^ 64) :
    ∃ d, c.segmentReceived seg = .ok d ∧
      (Answered c d ↔
        ¬ (seg.header.fin = true ∧ seg.payload.length ≤ cfg.recvCapacity.toNat) ∨
          (seg.header.ack = true ∧ seg.header.ackno = c.sender.isn)) := by
  obtain ⟨hsender, hreceiver, hactive⟩ := (listen_fresh h hstate).fields
  obtain ⟨r, hr, hopen, hsummary⟩ := receiver_first hsyn hlen cfg.recvCapacity
  rw [← hreceiver] at hr
  have hclosed : c.sender.stateSummary = .closed := by rw [hsender]; rfl
  unfold segmentReceived
  simp only [hactive, hrst, hr, hclosed, Bool.not_true, Bool.false_eq_true, if_false, and_true,
    bind, Except.bind, pure, Except.pure]
  rw [← hsummary]
  by_cases hconnect : r.stateSummary = .synRecv
  · rw [if_pos hconnect]
    refine ⟨_, rfl, iff_of_true ?_ (.inl hconnect)⟩
    exact sendSegment_answered (c := { c with timeSinceLastSegmentReceived := 0, receiver := r })
      (by rw [hsender]; rfl) rfl hopen
  · rw [if_neg hconnect, or_iff_right hconnect]
    refine ⟨_, rfl, Answered.cleanShutdown_iff.trans ?_⟩
    exact reply_answered_iff (c := { c with timeSinceLastSegmentReceived := 0, receiver := r })
      hsender hopen hsyn

end Answer

/-- A plain SYN is answered, also after a segment that the connection has not ignored. -/
theorem syn_answered_iff_plain : ∃ c d : TCPConnection,
    Execution.Trace Step (.new {} 0)
        [.segmentReceived { header := {}, payload := [7] }, .tick 5] c ∧
      c.state = TCPState.ofState .LISTEN ∧
      c.segmentReceived { header := { syn := true } } = .ok d ∧ Answered c d := by
  have h : Execution.Trace Step (.new {} 0)
      [.segmentReceived { header := {}, payload := [7] }, .tick 5] _ :=
    .cons rfl (.cons rfl (.nil _))
  obtain ⟨d, hd, hiff⟩ := syn_answered_iff h (by decide) { header := { syn := true } } rfl rfl
    (by decide)
  exact ⟨_, d, h, by decide, hd, hiff.mpr (.inl (by decide))⟩

/-- A SYN with a FIN leaves the sender closed and gets a segment without SYN. -/
theorem syn_answered_fails : ∃ d,
    (TCPConnection.new {} 0).segmentReceived { header := { syn := true, fin := true } } = .ok d ∧
      (appended (.new {} 0) d).map (fun seg => seg.header.syn) = [false] ∧
      d.sender.stateSummary = .closed ∧ ¬ Answered (.new {} 0) d :=
  ⟨_, rfl, rfl, rfl, fun hanswered => hanswered.2 rfl⟩

end TCPConnection

end Sponge
