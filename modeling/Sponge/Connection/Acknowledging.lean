import Sponge.Connection.Advertising
import Sponge.Connection.Progress

/-!
# Segments without an Acknowledgement

A connection has nothing to acknowledge before the SYN of its peer.  Until then it should emit
nothing but its own SYN.  The code does not see to that: a segment with content is answered in
any case, and once its SYN is acknowledged the sender goes on with its data, whether or not the
peer has sent a SYN.

- `Unanswered s`: a sender that has transmitted nothing but its SYN
- `InTurn c op`: no segment arrives that presupposes a SYN of the peer
- `acknowledges_of_in_turn`: in runs of such operations, all but the SYN carries an
  acknowledgement
-/

namespace Sponge

/-! ## §1 A sender before the first acknowledgement -/

namespace TCPSender

/-- The SYN is all that has been transmitted, and nothing is acknowledged. -/
structure Unanswered (s : TCPSender) : Prop where
  unacked : s.lastAckno = 0
  opening : s.nextSeqno ≤ 1
  queued : ∀ seg ∈ s.segmentsOut, seg.header.syn = true
  outstanding : ∀ seg ∈ s.outstandingSeg, seg.header.syn = true

section Unanswered

variable {s : TCPSender}

theorem Unanswered.set_stream (h : Unanswered s) (stream : ByteStream) :
    Unanswered { s with stream } :=
  ⟨h.unacked, h.opening, h.queued, h.outstanding⟩

/-- Filling the window transmits the SYN, or nothing. -/
theorem Unanswered.fillWindow (h : Unanswered s) : Unanswered s.fillWindow ∧
    s.fillWindow.retransmissionCount = s.retransmissionCount ∧
    (s.nextSeqno = 0 ∨ s.segmentsOut ≠ [] → s.fillWindow.segmentsOut ≠ []) := by
  rcases Nat.eq_zero_or_pos s.nextSeqno with hzero | hpos
  · rw [fillWindow_of_closed hzero]
    refine ⟨⟨h.unacked, ?_, ?_, ?_⟩, rfl, by simp [sendSegment]⟩
    · simp [sendSegment, hzero, TCPSegment.lengthInSequenceSpace]
    · intro seg hmem
      rcases List.mem_append.mp hmem with hold | hnew
      · exact h.queued seg hold
      · rw [List.mem_singleton.mp hnew]
    · intro seg hmem
      rcases List.mem_append.mp hmem with hold | hnew
      · exact h.outstanding seg hold
      · rw [List.mem_singleton.mp hnew]
  · rw [fillWindow_of_unacked hpos h.unacked]
    refine ⟨h, rfl, ?_⟩
    rintro (hzero | hne)
    · omega
    · exact hne

/-- An acknowledgement that does not acknowledge the SYN. -/
theorem Unanswered.ackReceived (h : Unanswered s) {ackno : WrappingInt32} (win : UInt16)
    (hack : ¬ (0 < s.nextSeqno ∧ ackno = wrap 1 s.isn)) :
    Unanswered (s.ackReceived ackno win) ∧
      (s.ackReceived ackno win).retransmissionCount = s.retransmissionCount ∧
      (s.nextSeqno = 0 → ackno = s.isn → (s.ackReceived ackno win).segmentsOut ≠ []) := by
  unfold TCPSender.ackReceived
  split
  · rename_i hnone
    refine ⟨h, rfl, ?_⟩
    rintro hzero rfl
    -- the own number is the absolute number zero
    rw [acceptAck_eq_none_iff, h.unacked, hzero, unwrap_isn] at hnone
    omega
  · rename_i t hacc
    rcases acceptAck_cases hacc with ⟨hnew, hle, rfl⟩ | ⟨-, rfl⟩
    · -- only the number one is new and sent
      have hopening := h.opening
      have hone : unwrap ackno s.isn s.lastAckno = 1 := by omega
      have hwrap := wrap_unwrap ackno s.isn s.lastAckno
      rw [hone] at hwrap
      exact absurd ⟨by omega, hwrap.symm⟩ hack
    · have hwin : Unanswered { s with lastWin := win } :=
        ⟨h.unacked, h.opening, h.queued, h.outstanding⟩
      obtain ⟨hfill, hcount, hout⟩ := hwin.fillWindow
      exact ⟨hfill, hcount, fun hzero _ => hout (.inl hzero)⟩

/-- A retransmission is one of the SYN, and only retransmissions are counted. -/
theorem Unanswered.tick (h : Unanswered s) (ms : UInt64) : Unanswered (s.tick ms) ∧
    ((s.tick ms).retransmissionCount = s.retransmissionCount ∨
      (s.tick ms).segmentsOut ≠ []) := by
  obtain ⟨heq, ⟨copies, hout, hcopies⟩, -⟩ := s.tick_spec ms
  constructor
  · rw [heq]
    refine ⟨h.unacked, h.opening, ?_, h.outstanding⟩
    dsimp only
    rw [hout]
    intro seg hmem
    rcases List.mem_append.mp hmem with hold | hcopy
    · exact h.queued seg hold
    · exact h.outstanding seg (hcopies seg hcopy)
  · unfold TCPSender.tick
    split
    · exact .inl rfl
    · dsimp only
      split
      · right
        split <;> simp
      · exact .inl rfl

end Unanswered

end TCPSender

/-! ## §2 A connection before the peer's SYN -/

namespace TCPConnection

open TCPSender (Tracked Unanswered)

/-- What a segment without SYN must be like to arrive before the SYN of the peer: it does not
    acknowledge the own SYN, and it has no content, unless it is taken for a reason to send that
    SYN. -/
def InTurn (c : TCPConnection) : Op → Prop
  | .segmentReceived seg =>
    c.isactive = true → c.receiver.syn = false → seg.header.rst = false →
      seg.header.syn = false →
        ¬ (seg.header.ack = true ∧ 0 < c.sender.nextSeqno ∧
          seg.header.ackno = wrap 1 c.sender.isn) ∧
        (seg.lengthInSequenceSpace = 0 ∨
          c.sender.nextSeqno = 0 ∧ seg.header.ack = true ∧ seg.header.ackno = c.sender.isn)
  | _ => True

/-- The connection has emitted nothing but its SYN. -/
structure Calling (c : TCPConnection) : Prop where
  sender : Unanswered c.sender
  -- more retransmissions in a row would have ended the connection
  patient : c.isactive = true → c.sender.retransmissionCount ≤ TCPConfig.maxRetxAttempts

section Calling

variable {c d : TCPConnection} {op : Op}

theorem ackno_of_closed {r : TCPReceiver} (h : r.syn = false) : r.ackno = none := by
  simp [TCPReceiver.ackno, h]

/-- `send_segment()` has nothing to fill in before the SYN of the peer. -/
theorem sendSegment_unanswered (h : Unanswered c.sender) (hclosed : c.receiver.syn = false) :
    Unanswered c.sendSegment.sender ∧ ∀ seg ∈ appended c c.sendSegment, seg.header.syn = true := by
  refine ⟨⟨h.unacked, h.opening, by simp, h.outstanding⟩, ?_⟩
  rw [appended_eq rfl]
  intro seg hmem
  obtain ⟨base, hbase, rfl⟩ := List.mem_map.mp hmem
  rw [fillHeader, ackno_of_closed hclosed]
  exact h.queued base hbase

theorem sendRstSegment_unanswered (h : Unanswered c.sender) (hclosed : c.receiver.syn = false)
    (hne : c.sender.segmentsOut ≠ []) :
    Unanswered c.sendRstSegment.sender ∧
      ∀ seg ∈ appended c c.sendRstSegment, seg.header.syn = true := by
  obtain ⟨hfill, -, hout⟩ := h.fillWindow
  unfold sendRstSegment
  dsimp only
  split
  · rename_i hnil
    exact absurd hnil (hout (.inr hne))
  · rename_i front rest hcons
    have hqueued : ∀ seg ∈ front :: rest, seg.header.syn = true := by
      rw [← hcons]
      exact hfill.queued
    refine ⟨⟨hfill.unacked, hfill.opening, ?_, hfill.outstanding⟩, ?_⟩
    · exact fun seg hmem => hqueued seg (List.mem_cons_of_mem _ hmem)
    · rw [appended_eq rfl]
      intro seg hmem
      rw [List.mem_singleton.mp hmem, fillHeader, ackno_of_closed hclosed]
      exact hqueued front List.mem_cons_self

/-- The reply to a segment that arrives in turn. -/
theorem reply_unanswered {seg : TCPSegment} (h : Unanswered c.sender)
    (hclosed : c.receiver.syn = false)
    (hack : ¬ (seg.header.ack = true ∧ 0 < c.sender.nextSeqno ∧
      seg.header.ackno = wrap 1 c.sender.isn))
    (hlen : seg.lengthInSequenceSpace = 0 ∨
      c.sender.nextSeqno = 0 ∧ seg.header.ack = true ∧ seg.header.ackno = c.sender.isn) :
    Unanswered (c.reply seg) ∧
      (c.reply seg).retransmissionCount = c.sender.retransmissionCount := by
  have hacked : Unanswered (c.acknowledged seg) ∧
      (c.acknowledged seg).retransmissionCount = c.sender.retransmissionCount ∧
      (0 < seg.lengthInSequenceSpace → (c.acknowledged seg).segmentsOut ≠ []) := by
    unfold acknowledged
    split
    · rename_i hflag
      obtain ⟨hnext, hcount, hsyn⟩ := h.ackReceived seg.header.win
        (fun hboth => hack ⟨hflag, hboth⟩)
      refine ⟨hnext, hcount, fun hpos => ?_⟩
      -- a segment with content finds the SYN on the queue
      rcases hlen with hzero | ⟨hzero, -, hown⟩
      · omega
      · exact hsyn hzero hown
    · rename_i hflag
      refine ⟨h, rfl, fun hpos => ?_⟩
      rcases hlen with hzero | ⟨-, hflag', -⟩
      · omega
      · exact absurd hflag' hflag
  obtain ⟨hnext, hcount, hsyn⟩ := hacked
  rcases c.reply_cases seg with ⟨heq, -⟩ | ⟨-, ⟨hpos, hempty⟩ | ⟨-, a, ha, -⟩⟩
  · rw [heq]
    exact ⟨hnext, hcount⟩
  · exact absurd hempty (hsyn hpos)
  · rw [ackno_of_closed hclosed] at ha
    cases ha

/-- `connect()`, `write()` and `end_input_stream()` fill the window and send what it takes. -/
theorem Calling.fill (hc : Calling c) (hclosed : c.receiver.syn = false) {s : TCPSender}
    (hs : Unanswered s) (hcount : s.retransmissionCount = c.sender.retransmissionCount) :
    Calling { c with sender := s.fillWindow }.sendSegment ∧
      ∀ seg ∈ appended c { c with sender := s.fillWindow }.sendSegment,
        seg.header.syn = true := by
  obtain ⟨hfill, hsame, -⟩ := hs.fillWindow
  obtain ⟨hsent, hout⟩ :=
    sendSegment_unanswered (c := { c with sender := s.fillWindow }) hfill hclosed
  refine ⟨⟨hsent, fun hactive => ?_⟩, hout⟩
  exact (hsame.trans hcount).trans_le (hc.patient hactive)

/-- `segment_received()` and `tick()` send what there is, and end the connection if they can. -/
theorem sendSegment_cleanShutdown_calling (h : Unanswered c.sender)
    (hclosed : c.receiver.syn = false)
    (hcount : c.sender.retransmissionCount ≤ TCPConfig.maxRetxAttempts) :
    Calling c.sendSegment.cleanShutdown ∧
      ∀ seg ∈ appended c c.sendSegment.cleanShutdown, seg.header.syn = true := by
  obtain ⟨hsent, hout⟩ := sendSegment_unanswered h hclosed
  refine ⟨⟨?_, fun _ => ?_⟩, ?_⟩
  · rw [cleanShutdown_sender]
    exact hsent
  · rw [cleanShutdown_sender]
    exact hcount
  · rw [appended_cleanShutdown]
    exact hout

theorem Calling.segmentReceived {seg : TCPSegment} (hc : Calling c)
    (hclosed : c.receiver.syn = false) (h : c.segmentReceived seg = .ok d)
    (hturn : InTurn c (.segmentReceived seg)) (hd : d.receiver.syn = false) :
    Calling d ∧ ∀ seg ∈ appended c d, seg.header.syn = true := by
  rcases segmentReceived_cases h with
    ⟨-, rfl⟩ | ⟨-, -, rfl⟩ | ⟨hactive, hrst, r, hr, ⟨hstate, -, rfl⟩ | ⟨-, rfl⟩⟩
  · exact ⟨hc, by simp [appended]⟩
  · refine ⟨⟨hc.sender.set_stream _, fun hactive => ?_⟩, by simp [appended, uncleanShutdown]⟩
    cases hactive
  · -- the connection answers a SYN only
    have hnone : r.ackno = none := ackno_of_closed hd
    simp only [TCPReceiver.stateSummary, hnone, Option.isNone_none, if_true] at hstate
    split at hstate <;> cases hstate
  · rw [cleanShutdown_receiver] at hd
    -- the segment has no SYN, so the receiver ignores it
    rcases TCPReceiver.segmentReceived_cases hr with
      ⟨-, hnosyn, rfl⟩ | ⟨-, -, re, -, rfl⟩ | ⟨hopen, -⟩
    · obtain ⟨hack, hlen⟩ := hturn hactive hclosed hrst hnosyn
      obtain ⟨hreply, hcount⟩ := reply_unanswered
        (c := { c with timeSinceLastSegmentReceived := 0 }) hc.sender hclosed hack hlen
      exact sendSegment_cleanShutdown_calling
        (c := { c with timeSinceLastSegmentReceived := 0, sender := _ }) hreply hclosed
        (hcount.trans_le (hc.patient hactive))
    · cases hd
    · rw [hclosed] at hopen
      cases hopen

theorem Calling.tick (hc : Calling c) (hclosed : c.receiver.syn = false) (ms : UInt64) :
    Calling (c.tick ms) ∧ ∀ seg ∈ appended c (c.tick ms), seg.header.syn = true := by
  unfold TCPConnection.tick
  split
  · exact ⟨hc, by simp [appended]⟩
  · rename_i hactive
    obtain ⟨htick, hcount⟩ := hc.sender.tick ms
    dsimp only
    split
    · rename_i hlimit
      -- the limit is passed by a retransmission, which the reset replaces
      have hne : (c.sender.tick ms).segmentsOut ≠ [] := by
        rcases hcount with hsame | hne
        · rw [hsame] at hlimit
          exact absurd (hc.patient (by simpa using hactive)) (UInt32.not_le.mpr hlimit)
        · exact hne
      obtain ⟨hsent, hout⟩ := sendRstSegment_unanswered (c := { c with
        sender := c.sender.tick ms
        timeSinceLastSegmentReceived := c.timeSinceLastSegmentReceived + ms }) htick hclosed hne
      exact ⟨⟨hsent.set_stream _, fun hactive => by cases hactive⟩, hout⟩
    · rename_i hlimit
      exact sendSegment_cleanShutdown_calling (c := { c with
        sender := c.sender.tick ms
        timeSinceLastSegmentReceived := c.timeSinceLastSegmentReceived + ms }) htick hclosed
        (UInt32.not_lt.mp hlimit)

/-- **One operation before the peer's SYN.** -/
theorem Calling.step (hc : Calling c) (h : c.Step op d) (hturn : InTurn c op)
    (hd : d.receiver.syn = false) :
    Calling d ∧ ∀ seg ∈ appended c d, seg.header.syn = true := by
  have hclosed : c.receiver.syn = false := by
    cases hsyn : c.receiver.syn with
    | false => rfl
    | true =>
      rw [h.receiver_forward.syn hsyn] at hd
      cases hd
  cases op with
  | connect =>
    cases Except.ok.inj h
    exact hc.fill hclosed hc.sender rfl
  | write data =>
    cases Except.ok.inj h
    unfold write
    split
    · exact ⟨hc, by simp [appended]⟩
    · exact hc.fill hclosed (hc.sender.set_stream _) rfl
  | endInputStream =>
    cases Except.ok.inj h
    exact hc.fill hclosed (hc.sender.set_stream _) rfl
  | segmentReceived seg => exact hc.segmentReceived hclosed h hturn hd
  | tick ms =>
    cases Except.ok.inj h
    exact hc.tick hclosed ms
  | readInbound len =>
    cases Except.ok.inj h
    exact ⟨⟨hc.sender, hc.patient⟩, by simp [appended, readInbound]⟩

end Calling

/-! ## §3 Whole runs -/

/-- The peer's SYN has arrived, or the connection has emitted nothing but its own. -/
def Courteous (c : TCPConnection) : Prop :=
  Tracked c.sender ∧ (c.receiver.syn = true ∨ Calling c)

theorem Courteous.new (cfg : TCPConfig) (randomDevice : UInt32) :
    Courteous (.new cfg randomDevice) := by
  refine ⟨Tracked.new cfg.sendCapacity cfg.rtTimeout cfg.fixedIsn randomDevice, .inr ⟨⟨rfl, ?_,
    ?_, ?_⟩, ?_⟩⟩ <;> simp [TCPConnection.new, TCPSender.new]

/-- One operation of a run. -/
theorem Courteous.step {c d : TCPConnection} {op : Op} (hc : Courteous c) (hturn : InTurn c op)
    (h : c.Step op d) : Courteous d ∧ ∀ seg ∈ appended c d, seg.header.syn = false →
      seg.header.ack = true ∧ d.receiver.ackno = some seg.header.ackno := by
  obtain ⟨ht, hphase⟩ := hc
  have hd := (h.sender_moves.tracked ht).1
  cases hsyn : d.receiver.syn with
  | true =>
    -- everything is acknowledged from the operation on in which the SYN arrives
    obtain ⟨new, hout, hnew⟩ := h.emits ht
    refine ⟨⟨hd, .inl hsyn⟩, fun seg hmem _ => ?_⟩
    rw [appended_eq hout] at hmem
    obtain ⟨base, -, hcompleted⟩ := hnew seg hmem
    have hack : seg.header.ack = true := hcompleted.acked (by simp [TCPReceiver.ackno, hsyn])
    exact ⟨hack, hcompleted.ack hack⟩
  | false =>
    have hcalling : Calling c := by
      rcases hphase with hopen | hcalling
      · rw [h.receiver_forward.syn hopen] at hsyn
        cases hsyn
      · exact hcalling
    obtain ⟨hnext, hout⟩ := hcalling.step h hturn hsyn
    refine ⟨⟨hd, .inr hnext⟩, fun seg hmem hnosyn => ?_⟩
    rw [hout seg hmem] at hnosyn
    cases hnosyn

/-- **Everything but the SYN carries an acknowledgement**, in every run in which no segment
    arrives that presupposes a SYN the peer has not sent. -/
theorem acknowledges_of_in_turn {cfg : TCPConfig} {randomDevice : UInt32} {ops : List Op}
    {c : TCPConnection} {log : List (TCPConnection × TCPSegment)}
    (h : Execution.Logged Step appended (.new cfg randomDevice) ops c log)
    (hturn : Execution.Along Step InTurn (.new cfg randomDevice) ops) :
    ∀ e ∈ log, e.2.header.syn = false →
      e.2.header.ack = true ∧ e.1.receiver.ackno = some e.2.header.ackno :=
  h.forall_mem (I := Courteous) (G := InTurn)
    (Q := fun d seg => seg.header.syn = false →
      seg.header.ack = true ∧ d.receiver.ackno = some seg.header.ackno)
    (fun _ _ _ hc hturn hstep => hc.step hturn hstep) (Courteous.new cfg randomDevice) hturn

/-- A connection that opens, is answered, and writes. -/
theorem acknowledges_of_in_turn_write : ∃ c log,
    Execution.Logged Step appended (.new { fixedIsn := some ⟨7⟩ } 0)
        [.connect, .segmentReceived synAck, .write [1, 2]] c log ∧
      log.map (fun e => (e.2.header.syn, e.2.payload.length)) =
        [(true, 0), (false, 0), (false, 2)] ∧
      ∀ e ∈ log, e.2.header.syn = false →
        e.2.header.ack = true ∧ e.1.receiver.ackno = some e.2.header.ackno := by
  have h : Execution.Logged Step appended (.new { fixedIsn := some ⟨7⟩ } 0)
      [.connect, .segmentReceived synAck, .write [1, 2]] _ _ :=
    .cons rfl (.cons rfl (.cons rfl (.nil _)))
  refine ⟨_, _, h, rfl, acknowledges_of_in_turn h ⟨trivial, fun _ _ => ⟨?_, fun _ _ => ?_⟩⟩⟩
  · exact fun _ _ _ hnosyn => absurd hnosyn (by decide)
  · exact ⟨trivial, fun _ _ => trivial⟩

/-- A byte that arrives at a fresh connection is answered by a segment with neither SYN nor
    ACK. -/
theorem acknowledges_fails : ∃ c log,
    Execution.Logged Step appended (.new {} 0)
        [.segmentReceived { header := {}, payload := [7] }] c log ∧
      ∃ e ∈ log, e.2.header.syn = false ∧ e.2.header.ack = false := by
  have h : Execution.Logged Step appended (.new {} 0)
      [.segmentReceived { header := {}, payload := [7] }] _ _ := .cons rfl (.nil _)
  exact ⟨_, _, h, _, List.mem_cons_self, rfl, rfl⟩

end TCPConnection

end Sponge
