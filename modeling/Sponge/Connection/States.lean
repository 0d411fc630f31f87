import Sponge.Connection.Closing
import Sponge.Connection.Opening

/-!
# The State Machine of a Connection

The source has no state machine.  `TCPState` is there to compare the states of a sender and a
receiver with the official names, and the programs wait for some of them.  Here is the machine
that a connection goes through, as a finite automaton on the values of `state()`.

* **The automaton** (`TCPState.next`): what calls, segments and ticks can do to a state.
* **The sender's part** (`stateSummary_eq`, `summary_afterAck`): the summaries of a sender are a
  matter of three numbers, and go in one direction only.
* **The refinement** (`follows_state_machine`): every operation is a transition of the automaton.
* **The states** (`states_exact`): which states occur.  There are seven without an official name.
-/

namespace Sponge

/-! ## §1 The automaton -/

/-- What a call can do to a sender: send the SYN, or the FIN. -/
def SenderSummary.afterCall : SenderSummary → List SenderSummary
  | .closed => [.closed, .synSent]
  | .synAcked => [.synAcked, .finSent]
  | s => [s]

/-- What a segment can do to a sender: acknowledge the SYN, possibly with the FIN as an answer, or
    the FIN.  Even a closed sender may be made to send its SYN. -/
def SenderSummary.afterAck : SenderSummary → List SenderSummary
  | .closed => [.closed, .synSent]
  | .synSent => [.synSent, .synAcked, .finSent]
  | .synAcked => [.synAcked, .finSent]
  | .finSent => [.finSent, .finAcked]
  | s => [s]

/-- What a segment can do to a receiver. -/
def ReceiverSummary.afterSegment : ReceiverSummary → List ReceiverSummary
  | .listen => [.listen, .synRecv, .finRecv]
  | .synRecv => [.synRecv, .finRecv]
  | r => [r]

namespace TCPState

/-- What happens to a connection. -/
inductive Cause where
  | call | segment | tick
  deriving DecidableEq, Repr

/-- The linger flag when a segment leads to the given summaries.  It is decided when the inbound
    stream ends, by whether the outbound one is exhausted, which the summary of the sender does
    not always tell. -/
def lingers (s : TCPState) (sender : SenderSummary) (receiver : ReceiverSummary) : List Bool :=
  if s.lingerAfterStreamsFinish = false then [false]
  else if receiver ≠ .finRecv ∨ s.receiver = .finRecv then [true]
  else
    match sender with
    | .closed => [false]
    | .synSent | .synAcked => [true, false]
    | _ => [true]

/-- A connection with both directions finished is closed, at once if it does not linger. -/
def settle (s : TCPState) : List TCPState :=
  if s.sender = .finAcked ∧ s.receiver = .finRecv then
    if s.lingerAfterStreamsFinish then [s, ofState .CLOSED] else [ofState .CLOSED]
  else [s]

/-- The states that may follow. -/
def next (s : TCPState) (cause : Cause) : List TCPState :=
  if !s.active then [s]
  else
    match cause with
    | .call => s.sender.afterCall.map fun sender => { s with sender }
    | .tick => ofState .RESET :: s.settle
    | .segment => ofState .RESET ::
      s.sender.afterAck.flatMap fun sender => s.receiver.afterSegment.flatMap fun receiver =>
        -- a SYN is answered
        if sender = .closed ∧ receiver = .synRecv then []
        else (s.lingers sender receiver).flatMap fun lingerAfterStreamsFinish =>
          settle { s with sender, receiver, lingerAfterStreamsFinish }

/-- The states of the automaton: the official ones, and others. -/
def states : List TCPState :=
  [.LISTEN, .SYN_RCVD, .SYN_SENT, .ESTABLISHED, .CLOSE_WAIT, .LAST_ACK, .FIN_WAIT_1, .FIN_WAIT_2,
    .CLOSING, .TIME_WAIT, .CLOSED, .RESET].map ofState ++
  -- the peer's whole stream has come with its SYN
  [{ sender := .closed, receiver := .finRecv, lingerAfterStreamsFinish := false },
    { sender := .synSent, receiver := .finRecv, lingerAfterStreamsFinish := false },
    { sender := .synSent, receiver := .finRecv },
    -- the outbound stream is exhausted, but there is no room for the FIN
    { sender := .synAcked, receiver := .finRecv },
    -- the SYN has been acknowledged by a segment without SYN
    { sender := .synAcked, receiver := .listen },
    { sender := .finSent, receiver := .listen },
    { sender := .finAcked, receiver := .listen }]

theorem mem_states_of_next : ∀ s ∈ states, ∀ cause, ∀ t ∈ s.next cause, t ∈ states := by
  intro s hs cause
  cases cause <;> revert s <;> decide

/-- The states in which `connect()` and `listen_and_accept()` wait. -/
def Opening (s : TCPState) : Prop :=
  s = ofState .LISTEN ∨ s = ofState .SYN_RCVD ∨ s = ofState .SYN_SENT

instance (s : TCPState) : Decidable s.Opening :=
  inferInstanceAs (Decidable (_ ∨ _))

/-- The wait is over for good. -/
theorem not_opening_of_next :
    ∀ s ∈ states, ∀ cause, ∀ t ∈ s.next cause, ¬ s.Opening → ¬ t.Opening := by
  intro s hs cause
  cases cause <;> revert s <;> decide

theorem mem_next_segment {s t : TCPState} {sender : SenderSummary} {receiver : ReceiverSummary}
    {linger : Bool} (hactive : s.active = true) (hsender : sender ∈ s.sender.afterAck)
    (hreceiver : receiver ∈ s.receiver.afterSegment)
    (hsyn : ¬ (sender = .closed ∧ receiver = .synRecv))
    (hlinger : linger ∈ s.lingers sender receiver)
    (ht : t ∈ settle { sender, receiver, lingerAfterStreamsFinish := linger }) :
    t ∈ s.next .segment := by
  unfold next
  rw [hactive]
  refine List.mem_cons_of_mem _ (List.mem_flatMap.mpr ⟨sender, hsender, ?_⟩)
  refine List.mem_flatMap.mpr ⟨receiver, hreceiver, ?_⟩
  rw [if_neg hsyn]
  exact List.mem_flatMap.mpr ⟨linger, hlinger, ht⟩

theorem mem_next_reset {s : TCPState} (hactive : s.active = true) {cause : Cause}
    (hcause : cause ≠ .call) : ofState .RESET ∈ s.next cause := by
  unfold next
  rw [hactive]
  cases cause with
  | call => exact absurd rfl hcause
  | segment => exact List.mem_cons_self
  | tick => exact List.mem_cons_self

end TCPState

/-! ## §2 The two summaries -/

namespace TCPSender

variable {s t : TCPSender}

/-- The summary of a sender in terms of its numbers. -/
theorem stateSummary_eq (h : Tracked s) (herror : s.stream.error = false) :
    s.stateSummary =
      if s.nextSeqno = 0 then .closed
      else if s.lastAckno = 0 then .synSent
      else if s.nextSeqno < s.stream.bytesWritten + 2 then .synAcked
      else if s.lastAckno < s.nextSeqno then .finSent
      else .finAcked := by
  have hle := h.ack_le
  unfold stateSummary bytesInFlight
  rw [herror, if_neg Bool.false_ne_true]
  by_cases hzero : s.nextSeqno = 0
  · rw [if_pos hzero, if_pos hzero]
  · rw [if_neg hzero, if_neg hzero]
    have hsyn : s.nextSeqno = s.nextSeqno - s.lastAckno ↔ s.lastAckno = 0 := by omega
    have hflight : s.nextSeqno - s.lastAckno ≠ 0 ↔ s.lastAckno < s.nextSeqno := by omega
    simp only [hsyn, hflight]
    -- a stream that is not exhausted has not had its FIN sent
    rcases h.nextSeqno_cases (by omega) with ⟨-, hlt⟩ | ⟨heq, heof⟩
    · simp only [hlt, if_true, ite_self]
    · simp [heof, heq]

/-- As long as the SYN is not acknowledged, nothing else is sent. -/
def Restrained (s : TCPSender) : Prop :=
  s.lastAckno = 0 → s.nextSeqno ≤ 1

theorem Restrained.fillWindow (h : Restrained s) (hs : Tracked s) : Restrained s.fillWindow := by
  obtain ⟨new, hsends⟩ := hs.fillWindow_sends
  intro hzero
  have hack : s.lastAckno = 0 := hsends.lastAckno.symm.trans hzero
  have hle := h hack
  by_cases hclosed : s.nextSeqno = 0
  · rw [fillWindow_of_closed hclosed]
    show s.nextSeqno + 1 ≤ 1
    omega
  · have hflight : s.nextSeqno = s.bytesInFlight := by
      unfold bytesInFlight
      omega
    rw [TCPSender.fillWindow, if_neg hclosed, if_pos ⟨by omega, hflight⟩]
    exact hle

/-- How the numbers of a sender are related to those of an earlier state. -/
theorem numbers_of_advances (hs : Tracked s) (ht : Tracked t) (h : Advances s t) :
    s.stream.bytesWritten ≤ t.stream.bytesWritten ∧ s.nextSeqno ≤ s.stream.bytesWritten + 2 ∧
      t.nextSeqno ≤ t.stream.bytesWritten + 2 ∧
      (s.nextSeqno = s.stream.bytesWritten + 2 →
        t.stream.bytesWritten = s.stream.bytesWritten) := by
  have hbound : ∀ {u : TCPSender}, Tracked u → u.nextSeqno ≤ u.stream.bytesWritten + 2 := by
    intro u hu
    rcases Nat.eq_zero_or_pos u.nextSeqno with hzero | hpos
    · omega
    · rcases hu.nextSeqno_cases hpos with ⟨-, hlt⟩ | ⟨heq, -⟩ <;> omega
  refine ⟨?_, hbound hs, hbound ht, fun hfin => ?_⟩
  · rw [s.stream.bytesWritten_eq, t.stream.bytesWritten_eq]
    exact h.written.length_le
  · -- the FIN is sent when the input has ended, and then nothing is accepted
    rcases hs.nextSeqno_cases (by omega) with ⟨-, hlt⟩ | ⟨-, heof⟩
    · omega
    · rw [s.stream.bytesWritten_eq, t.stream.bytesWritten_eq,
        h.frozen (s.stream.eof_iff.mp heof).1]

/-- **What a segment does to the sender.** -/
theorem summary_afterAck (hs : Tracked s) (ht : Tracked t) (h : Advances s t)
    (hsyn : Restrained s) (hack : t.lastAckno ≤ s.nextSeqno) (herror : t.stream.error = false) :
    t.stateSummary ∈ s.stateSummary.afterAck := by
  have herror' : s.stream.error = false := by
    by_contra hs
    rw [h.error (by simpa using hs)] at herror
    cases herror
  obtain ⟨hwritten, hbound, hbound', hfin⟩ := numbers_of_advances hs ht h
  have hle := hs.ack_le
  have hle' := ht.ack_le
  have hnext := h.nextSeqno
  have hlast := h.lastAckno
  unfold Restrained at hsyn
  rw [stateSummary_eq hs herror', stateSummary_eq ht herror]
  split_ifs <;> simp [SenderSummary.afterAck] <;> omega

/-- **What a call does to the sender.** -/
theorem summary_afterCall (hs : Tracked s) (ht : Tracked t) (h : Advances s t)
    (hack : t.lastAckno = s.lastAckno) (herror : t.stream.error = false) :
    t.stateSummary ∈ s.stateSummary.afterCall := by
  have herror' : s.stream.error = false := by
    by_contra hs
    rw [h.error (by simpa using hs)] at herror
    cases herror
  obtain ⟨hwritten, hbound, hbound', hfin⟩ := numbers_of_advances hs ht h
  have hle := hs.ack_le
  have hle' := ht.ack_le
  have hnext := h.nextSeqno
  rw [stateSummary_eq hs herror', stateSummary_eq ht herror, hack]
  split_ifs <;> simp [SenderSummary.afterCall] <;> omega

end TCPSender

namespace TCPReceiver

variable {r r' : TCPReceiver}

/-- The summary of a receiver in terms of its flags. -/
theorem stateSummary_eq (herror : r.streamOut.error = false) :
    r.stateSummary =
      if r.syn = false then .listen else if r.streamOut.inputEnded then .finRecv else .synRecv := by
  unfold stateSummary ackno
  rw [herror, if_neg Bool.false_ne_true]
  cases r.syn <;> simp

/-- **What a segment does to the receiver.** -/
theorem summary_afterSegment (h : Forward r r') (herror : r.streamOut.error = false)
    (herror' : r'.streamOut.error = false) : r'.stateSummary ∈ r.stateSummary.afterSegment := by
  rw [stateSummary_eq herror, stateSummary_eq herror']
  cases hsyn : r.syn with
  | false =>
    simp only [if_true, ReceiverSummary.afterSegment]
    split_ifs <;> simp
  | true =>
    rw [h.syn hsyn]
    cases hended : r.streamOut.inputEnded with
    | false => cases r'.streamOut.inputEnded <;> simp [ReceiverSummary.afterSegment]
    | true => simp [h.inputEnded hended, ReceiverSummary.afterSegment]

end TCPReceiver

/-! ## §3 The refinement -/

namespace TCPConnection

open TCPSender (Tracked Restrained summary_afterAck summary_afterCall)
open TCPState (Cause)

/-- What happens to the connection with an operation. -/
def Op.cause : Op → Cause
  | .segmentReceived _ => .segment
  | .tick _ => .tick
  | _ => .call

section Sender

variable {c d : TCPConnection} {op : Op}

/-- What an acknowledgement can acknowledge. -/
theorem lastAckno_acknowledged (ht : Tracked c.sender) (seg : TCPSegment) :
    (c.acknowledged seg).lastAckno ≤ c.sender.nextSeqno := by
  have hle := ht.ack_le
  unfold acknowledged TCPSender.ackReceived
  split
  · split
    · exact hle
    · rename_i s hacc
      obtain ⟨new, hsends⟩ := (ht.acceptAck hacc).fillWindow_sends
      rw [hsends.lastAckno]
      rcases TCPSender.acceptAck_cases hacc with ⟨-, hnew, rfl⟩ | ⟨-, rfl⟩
      · exact hnew
      · exact hle
  · exact hle

theorem restrained_acknowledged (ht : Tracked c.sender) (h : Restrained c.sender)
    (seg : TCPSegment) : Restrained (c.acknowledged seg) := by
  unfold acknowledged TCPSender.ackReceived
  split
  · split
    · exact h
    · rename_i s hacc
      refine Restrained.fillWindow (fun hzero => ?_) (ht.acceptAck hacc)
      rcases TCPSender.acceptAck_cases hacc with ⟨hnew, -, rfl⟩ | ⟨-, rfl⟩
      · dsimp only at hzero
        omega
      · exact h hzero
  · exact h

theorem Prepares.lastAckno {b : TCPConnection} (h : Prepares c op b) :
    b.sender.lastAckno = c.sender.lastAckno ∧ b.sender.nextSeqno = c.sender.nextSeqno := by
  rw [h.sender_eq]
  exact ⟨rfl, rfl⟩

/-- The sender over an operation. -/
theorem Step.restrained (h : c.Step op d) (ht : Tracked c.sender) (hs : Restrained c.sender) :
    Restrained d.sender ∧ d.sender.lastAckno ≤ c.sender.nextSeqno ∧
      (op.cause ≠ .segment → d.sender.lastAckno = c.sender.lastAckno) := by
  have hle := ht.ack_le
  cases h.effect with
  | ignored => exact ⟨hs, hle, fun _ => rfl⟩
  | read => exact ⟨hs, hle, fun _ => rfl⟩
  | @filled _ b hb =>
    obtain ⟨hlast, hnext⟩ := hb.lastAckno
    have hb' := hb.tracked ht
    obtain ⟨new, hsends⟩ := hb'.fillWindow_sends
    have hsame : b.sender.fillWindow.lastAckno = c.sender.lastAckno := hsends.lastAckno.trans hlast
    have hbs : Restrained b.sender := by
      unfold Restrained
      rw [hlast, hnext]
      exact hs
    exact ⟨hbs.fillWindow hb', hsame.le.trans hle, fun _ => hsame⟩
  | reset => exact ⟨hs, hle, fun _ => rfl⟩
  | replied seg r =>
    rw [answered_sender]
    exact ⟨restrained_acknowledged ht hs seg, lastAckno_acknowledged ht seg,
      fun hcause => absurd rfl hcause⟩
  | aborted ms =>
    have htick := ht.tick ms
    have hclocked : Restrained (c.clocked ms).sender := by
      unfold Restrained clocked
      rw [TCPSender.tick_lastAckno, TCPSender.tick_nextSeqno]
      exact hs
    obtain ⟨new, hsends⟩ := htick.fillWindow_sends
    have hsame : (c.sender.tick ms).fillWindow.lastAckno = c.sender.lastAckno := by
      rw [hsends.lastAckno, TCPSender.tick_lastAckno]
    obtain ⟨queue, out, hframe⟩ := (c.clocked ms).sendRstSegment_frame
    rw [hframe]
    exact ⟨hclocked.fillWindow htick, hsame.le.trans hle, fun _ => hsame⟩
  | ticked ms =>
    rw [cleanShutdown_sender]
    have hlast : (c.sender.tick ms).lastAckno = c.sender.lastAckno := TCPSender.tick_lastAckno _ _
    have hnext : (c.sender.tick ms).nextSeqno = c.sender.nextSeqno := TCPSender.tick_nextSeqno _ _
    refine ⟨fun hzero => ?_, hlast.le.trans hle, fun _ => hlast⟩
    exact hnext.le.trans (hs (hlast.symm.trans hzero))

end Sender

/-- What holds of a connection between two operations. -/
structure Ordered (cfg : TCPConfig) (c : TCPConnection) : Prop where
  regular : Regular cfg c
  orderly : Orderly c
  restrained : Restrained c.sender
  -- an inactive connection is in one of two states
  ended : c.isactive = false → c.state = .ofState .RESET ∨ c.state = .ofState .CLOSED

section States

variable {cfg : TCPConfig} {c d : TCPConnection} {op : Op}

theorem state_of_failed (hactive : c.isactive = false) (h : Failed c) :
    c.state = .ofState .RESET := by
  obtain ⟨hout, hin⟩ := h
  simp [state, TCPState.ofState, hactive, TCPSender.stateSummary, TCPReceiver.stateSummary, hout,
    hin]

theorem state_uncleanShutdown (b : TCPConnection) : b.uncleanShutdown.state = .ofState .RESET :=
  state_of_failed rfl ⟨rfl, rfl⟩

theorem state_of_finished (hactive : c.isactive = false) (h : Finished c) :
    c.state = .ofState .CLOSED := by
  obtain ⟨hout, hin⟩ := h
  simp [state, TCPState.ofState, hactive, hout, hin]

/-- The state of an active connection. -/
theorem state_of_active (hactive : c.isactive = true) :
    c.state = { sender := c.sender.stateSummary, receiver := c.receiver.stateSummary
                lingerAfterStreamsFinish := c.lingerAfterStreamsFinish } := by
  simp [state, hactive]

/-- The sender of a connection that was and stays free of errors. -/
theorem Step.summary_afterAck (h : c.Step op d) (hc : Ordered cfg c)
    (herror : d.sender.stream.error = false) :
    d.sender.stateSummary ∈ c.sender.stateSummary.afterAck := by
  have ht := hc.regular.tracked
  obtain ⟨htd, hadv⟩ := h.sender_moves.tracked ht
  exact TCPSender.summary_afterAck ht htd hadv hc.restrained (h.restrained ht hc.restrained).2.1
    herror

theorem Step.summary_afterCall (h : c.Step op d) (hc : Ordered cfg c)
    (hcause : op.cause ≠ .segment) (herror : d.sender.stream.error = false) :
    d.sender.stateSummary ∈ c.sender.stateSummary.afterCall := by
  have ht := hc.regular.tracked
  obtain ⟨htd, hadv⟩ := h.sender_moves.tracked ht
  exact TCPSender.summary_afterCall ht htd hadv ((h.restrained ht hc.restrained).2.2 hcause) herror

/-- **The linger flag** after a segment. -/
theorem Step.lingers_mem (h : c.Step op d) (hc : Ordered cfg c) (hactive : c.isactive = true)
    (hout : d.sender.stream.error = false) (hin : d.receiver.streamOut.error = false)
    (hlinger : d.lingerAfterStreamsFinish = true ↔ c.lingerAfterStreamsFinish = true ∧
      (d.inboundStream.inputEnded = true → d.sender.stream.eof = true)) :
    d.lingerAfterStreamsFinish ∈
      c.state.lingers d.sender.stateSummary d.receiver.stateSummary := by
  have ht := hc.regular.tracked
  obtain ⟨htd, hadv⟩ := h.sender_moves.tracked ht
  have hd := hc.orderly.step ht h
  have hend : d.receiver.stateSummary = .finRecv ↔ d.inboundStream.inputEnded = true :=
    finRecv_iff hd.opened hin
  have hbefore : c.receiver.stateSummary = .finRecv ↔ c.inboundStream.inputEnded = true :=
    finRecv_iff hc.orderly.opened (hc.regular.healthy hactive).2
  rw [state_of_active hactive]
  unfold TCPState.lingers
  dsimp only
  split_ifs with hnone hkept
  · -- never set again
    have : d.lingerAfterStreamsFinish = false := by
      rw [Bool.eq_false_iff, ne_eq, hlinger, hnone]
      simp
    simp [this]
  · have hold : c.lingerAfterStreamsFinish = true := by simpa using hnone
    have : d.lingerAfterStreamsFinish = true := by
      refine hlinger.mpr ⟨hold, fun hended => ?_⟩
      rcases hkept with hopen | hwas
      · exact absurd (hend.mpr hended) hopen
      · -- the outbound stream was exhausted when the inbound one ended
        have heof := hc.orderly.lingers hold (hbefore.mp hwas)
        have hpos := hc.orderly.begun (c.sender.stream.eof_iff.mp heof).1
        exact hadv.eof ht htd hpos heof
    simp [this]
  · -- the inbound stream has just ended
    have hold : c.lingerAfterStreamsFinish = true := by simpa using hnone
    have hended : d.inboundStream.inputEnded = true := by
      rw [← hend]
      by_contra hopen
      exact hkept (.inl hopen)
    have hflag : d.lingerAfterStreamsFinish = d.sender.stream.eof := by
      rw [Bool.eq_iff_iff, hlinger]
      simp [hold, hended]
    rw [hflag, TCPSender.stateSummary_eq htd hout]
    have hcases := htd.nextSeqno_cases
    split_ifs with hzero hack hroom hflight
    · -- nothing has been sent, so the outbound stream is open
      have hopen : d.sender.stream.inputEnded = false := by
        by_contra hclosed
        have := hd.begun (by simpa using hclosed)
        omega
      simp [ByteStream.eof, hopen]
    · cases d.sender.stream.eof <;> simp
    · cases d.sender.stream.eof <;> simp
    · rcases hcases (by omega) with ⟨-, hlt⟩ | ⟨-, heof⟩
      · omega
      · simp [heof]
    · rcases hcases (by omega) with ⟨-, hlt⟩ | ⟨-, heof⟩
      · omega
      · simp [heof]

/-- **Closing.**  The state after `clean_shutdown()`. -/
theorem settle_mem {b : TCPConnection} (hactive : b.isactive = true) :
    b.cleanShutdown.state ∈ TCPState.settle
      { sender := b.sender.stateSummary, receiver := b.receiver.stateSummary
        lingerAfterStreamsFinish := b.cleanShutdown.lingerAfterStreamsFinish } := by
  have hclose := cleanShutdown_isactive hactive
  unfold TCPState.settle
  dsimp only
  cases hd : b.cleanShutdown.isactive with
  | false =>
    obtain ⟨hfinAcked, hfinRecv⟩ := (hclose.mp hd).1
    have hclosed : b.cleanShutdown.state = .ofState .CLOSED := by
      refine state_of_finished hd ?_
      unfold Finished
      rw [cleanShutdown_sender, cleanShutdown_receiver]
      exact ⟨hfinAcked, hfinRecv⟩
    rw [if_pos ⟨hfinAcked, hfinRecv⟩, hclosed]
    split_ifs <;> simp
  | true =>
    rw [state_of_active hd, cleanShutdown_sender, cleanShutdown_receiver]
    split_ifs with hfinished hlinger
    · exact List.mem_cons_self
    · -- a connection that does not linger is closed
      exfalso
      have hnot : b.lingerAfterStreamsFinish = false := by
        by_contra hold
        refine hlinger ((cleanShutdown_linger b).mpr ⟨by simpa using hold, fun _ => ?_⟩)
        exact TCPSender.eof_of_finAcked hfinished.1
      rw [hclose.mpr ⟨hfinished, .inl hnot⟩] at hd
      cases hd
    · exact List.mem_cons_self

/-- The errors of a connection whose window is filled. -/
theorem Prepares.errors_connect {b : TCPConnection} (h : Prepares c op b) (ht : Tracked c.sender) :
    b.connect.sender.stream.error = c.sender.stream.error ∧
      b.connect.receiver.streamOut.error = c.receiver.streamOut.error := by
  obtain ⟨new, hsends⟩ := (h.tracked ht).fillWindow_sends
  exact ⟨hsends.error.trans h.errors_eq.1, h.errors_eq.2⟩

/-- **An inactive connection stays in its state.** -/
theorem Ordered.state_of_inactive (hc : Ordered cfg c) (hinactive : c.isactive = false)
    (h : c.Step op d) : d.isactive = false ∧ d.state = c.state := by
  have hnot : ¬ c.isactive = true := by simp [hinactive]
  have ht := hc.regular.tracked
  -- only the window may still be filled
  have hsame : d.isactive = false ∧ d.receiver.stateSummary = c.receiver.stateSummary ∧
      d.sender.stream.error = c.sender.stream.error := by
    cases h.effect with
    | ignored => exact ⟨hinactive, rfl, rfl⟩
    | read len => exact ⟨hinactive, rfl, rfl⟩
    | filled hb =>
      have herrors := hb.errors_connect ht
      cases hb with
      | connect => exact ⟨hinactive, rfl, herrors.1⟩
      | endInput => exact ⟨hinactive, rfl, herrors.1⟩
      | write data hactive => exact absurd hactive hnot
      | syn seg r hactive => exact absurd hactive hnot
    | reset seg hactive => exact absurd hactive hnot
    | replied seg r hactive => exact absurd hactive hnot
    | aborted ms hactive => exact absurd hactive hnot
    | ticked ms hactive => exact absurd hactive hnot
  obtain ⟨hd, hreceiver, herror⟩ := hsame
  have hsender : d.sender.stateSummary = c.sender.stateSummary := by
    rcases hc.ended hinactive with hreset | hclosed
    · have hfailed : c.sender.stateSummary = .error := congrArg TCPState.sender hreset
      have hc' : c.sender.stream.error = true := by
        by_contra hnone
        rw [TCPSender.stateSummary_eq ht (by simpa using hnone)] at hfailed
        split_ifs at hfailed
      rw [hfailed, TCPSender.stateSummary, herror, hc', if_pos rfl]
    · have hfinAcked : c.sender.stateSummary = .finAcked := congrArg TCPState.sender hclosed
      have hnone : c.sender.stream.error = false := by
        by_contra hc'
        rw [TCPSender.stateSummary, if_pos (by simpa using hc')] at hfinAcked
        cases hfinAcked
      have hmem := h.summary_afterAck hc (herror.trans hnone)
      rw [hfinAcked] at hmem ⊢
      simpa [SenderSummary.afterAck] using hmem
  refine ⟨hd, ?_⟩
  simp only [state, hd, hinactive, hreceiver, hsender]
  rfl

/-- **One operation is a transition.** -/
theorem Ordered.state_mem_next (hc : Ordered cfg c) (h : c.Step op d) :
    d.state ∈ c.state.next op.cause := by
  have ht := hc.regular.tracked
  cases hactive : c.isactive with
  | false =>
    rw [(hc.state_of_inactive hactive h).2]
    have hstate : c.state.active = false := hactive
    simp [TCPState.next, hstate]
  | true =>
    obtain ⟨hout, hin⟩ := hc.regular.healthy hactive
    have hstate : c.state.active = true := hactive
    -- a call leaves all but the sender alone
    have hcall : op.cause = .call → d.isactive = true →
        d.receiver.stateSummary = c.receiver.stateSummary →
        d.lingerAfterStreamsFinish = c.lingerAfterStreamsFinish →
        d.sender.stream.error = false → d.state ∈ c.state.next op.cause := by
      intro hcause hd hreceiver hlinger herror
      have hmem := h.summary_afterCall hc (by simp [hcause]) herror
      rw [hcause, TCPState.next, hstate, state_of_active hd, hreceiver, hlinger]
      refine List.mem_map.mpr ⟨_, hmem, ?_⟩
      rw [state_of_active hactive]
    cases h.effect with
    | ignored _ hwrite =>
      cases hwrite hactive
      exact hcall rfl hactive rfl rfl hout
    | read len => exact hcall rfl hactive rfl rfl hout
    | filled hb =>
      obtain ⟨herror, herror'⟩ := hb.errors_connect ht
      cases hb with
      | connect => exact hcall rfl hactive rfl rfl (herror.trans hout)
      | endInput => exact hcall rfl hactive rfl rfl (herror.trans hout)
      | write data => exact hcall rfl hactive rfl rfl (herror.trans hout)
      | syn seg r _ _ hr hrecv hclosed =>
        -- the SYN goes out
        set d := { c with timeSinceLastSegmentReceived := 0, receiver := r }.connect with hd
        have hmem := h.summary_afterAck hc (herror.trans hout)
        have hpos : d.sender.stateSummary ≠ .closed :=
          TCPSender.stateSummary_ne_closed (fillWindow_pos ht)
        have hforward := TCPReceiver.summary_afterSegment h.receiver_forward hin
          (herror'.trans hin)
        have hrecv' : d.receiver.stateSummary = .synRecv := hrecv
        have hlinger : c.lingerAfterStreamsFinish ∈
            c.state.lingers d.sender.stateSummary d.receiver.stateSummary := by
          rw [state_of_active hactive, hrecv']
          unfold TCPState.lingers
          dsimp only
          cases c.lingerAfterStreamsFinish <;> simp
        refine TCPState.mem_next_segment hstate hmem hforward (fun hboth => hpos hboth.1) hlinger ?_
        unfold TCPState.settle
        rw [if_neg (by simp [hrecv']), List.mem_singleton]
        exact state_of_active hactive
    | reset =>
      rw [state_uncleanShutdown]
      exact TCPState.mem_next_reset hstate (by simp [Op.cause])
    | replied seg r _ hrst hr hopen =>
      have hsender := c.answered_sender seg r
      set b := (c.answered seg r).sendSegment with hb
      have herror : b.cleanShutdown.sender.stream.error = false := by
        rw [hsender]
        exact (acknowledged_frame ht seg).1.trans hout
      have herror' : b.cleanShutdown.receiver.streamOut.error = false := by
        rw [cleanShutdown_receiver]
        exact (TCPReceiver.error_segmentReceived hr).trans hin
      have hmem := h.summary_afterAck hc herror
      have hforward := TCPReceiver.summary_afterSegment h.receiver_forward hin herror'
      have hlinger := h.lingers_mem hc hactive herror herror' (by
        rw [cleanShutdown_linger, inboundStream, inboundStream, cleanShutdown_receiver,
          cleanShutdown_sender]
        rfl)
      refine TCPState.mem_next_segment hstate hmem hforward ?_ hlinger ?_
      · rintro ⟨hclosed, hrecv⟩
        rw [cleanShutdown_receiver] at hrecv
        refine hopen ⟨hrecv, ?_⟩
        -- a sender that is closed has been closed before
        have hzero := TCPSender.nextSeqno_of_closed hclosed
        have hnext := (h.sender_moves.tracked ht).2.nextSeqno
        rw [TCPSender.stateSummary_eq ht hout, if_pos (by omega)]
      · rw [cleanShutdown_sender, cleanShutdown_receiver]
        exact settle_mem hactive
    | aborted =>
      rw [state_uncleanShutdown]
      exact TCPState.mem_next_reset hstate (by simp [Op.cause])
    | ticked ms =>
      set b := (c.clocked ms).sendSegment with hb
      have hsummary : b.sender.stateSummary = c.sender.stateSummary := by
        simp only [hb, sendSegment_sender, clocked]
        unfold TCPSender.stateSummary TCPSender.bytesInFlight
        simp only [TCPSender.tick_stream, TCPSender.tick_nextSeqno, TCPSender.tick_lastAckno]
      have hflag : b.cleanShutdown.lingerAfterStreamsFinish = c.lingerAfterStreamsFinish := by
        rw [Bool.eq_iff_iff, cleanShutdown_linger]
        refine and_iff_left_of_imp fun hlinger hended => ?_
        rw [hb, sendSegment_sender]
        show (c.sender.tick ms).stream.eof = true
        rw [TCPSender.tick_stream]
        exact hc.orderly.lingers hlinger hended
      have hmem := settle_mem (b := b) hactive
      rw [hsummary, hflag] at hmem
      rw [Op.cause, TCPState.next, hstate]
      refine List.mem_cons_of_mem _ ?_
      rw [state_of_active hactive]
      exact hmem

theorem Ordered.new (cfg : TCPConfig) (randomDevice : UInt32) :
    Ordered cfg (.new cfg randomDevice) :=
  ⟨.new cfg randomDevice, .new cfg randomDevice, fun _ => Nat.zero_le 1, by rintro ⟨⟩⟩

theorem Ordered.step (hc : Ordered cfg c) (h : c.Step op d) : Ordered cfg d := by
  have ht := hc.regular.tracked
  refine ⟨hc.regular.step h, hc.orderly.step ht h, (h.restrained ht hc.restrained).1, fun hd => ?_⟩
  rcases h.inactive hd with hinactive | hfailed | hfinished
  · rw [(hc.state_of_inactive hinactive h).2]
    exact hc.ended hinactive
  · exact .inl (state_of_failed hd hfailed)
  · exact .inr (state_of_finished hd hfinished)

theorem ordered_of_trace {randomDevice : UInt32} {ops : List Op}
    (h : Execution.Trace Step (.new cfg randomDevice) ops c) : Ordered cfg c :=
  h.invariant (fun _ _ _ hs hstep => hs.step hstep) (Ordered.new cfg randomDevice)

/-- Every state of a run is one of the automaton. -/
theorem state_mem_states {randomDevice : UInt32} {ops : List Op}
    (h : Execution.Trace Step (.new cfg randomDevice) ops c) : c.state ∈ TCPState.states := by
  refine (h.invariant (I := fun c => Ordered cfg c ∧ c.state ∈ TCPState.states) ?_
    ⟨Ordered.new cfg randomDevice, ?_⟩).2
  · rintro c op d ⟨hc, hmem⟩ hstep
    exact ⟨hc.step hstep, TCPState.mem_states_of_next _ hmem _ _ (hc.state_mem_next hstep)⟩
  · exact List.mem_cons_self

/-- **A connection follows the state machine.**  From every state of every run, an operation is a
    transition of the automaton.  In particular a connection that is no longer being opened never
    is again. -/
theorem follows_state_machine {randomDevice : UInt32} {ops : List Op}
    (h : Execution.Trace Step (.new cfg randomDevice) ops c) :
    (∀ op d, c.Step op d → d.state ∈ c.state.next op.cause) ∧
    (¬ c.state.Opening → ∀ later d, Execution.Trace Step c later d → ¬ d.state.Opening) := by
  have hc := ordered_of_trace h
  refine ⟨fun op d hstep => hc.state_mem_next hstep, fun hopen later d hlater => ?_⟩
  refine (hlater.invariant (I := fun c => (Ordered cfg c ∧ c.state ∈ TCPState.states) ∧
    ¬ c.state.Opening) ?_ ⟨⟨hc, state_mem_states h⟩, hopen⟩).2
  rintro c op d ⟨⟨hc, hmem⟩, hopen⟩ hstep
  have hnext := hc.state_mem_next hstep
  exact ⟨⟨hc.step hstep, TCPState.mem_states_of_next _ hmem _ _ hnext⟩,
    TCPState.not_opening_of_next _ hmem _ _ hnext hopen⟩

end States

/-! ## §4 The states that occur -/

/-- The numbers of both sides start at zero. -/
def plainConfig : TCPConfig := { fixedIsn := some ⟨0⟩ }

/-- A segment without payload arrives. -/
def peerSends (header : TCPHeader) : Op :=
  .segmentReceived { header }

/-- An acknowledgement, with or without the peer's SYN. -/
def peerAcks (ackno : UInt32) (win : UInt16 := 10) (syn : Bool := false) : Op :=
  peerSends { seqno := if syn then ⟨0⟩ else ⟨1⟩, ack := true, ackno := ⟨ackno⟩, win, syn }

def peerCloses : Op :=
  peerSends { seqno := ⟨1⟩, fin := true }

/-- A way to every state of the automaton, in their order. -/
def routes : List (List Op) :=
  [[],
    [peerSends { syn := true }],
    [.connect],
    [.connect, peerAcks 1 10 true],
    [.connect, peerAcks 1 10 true, peerCloses],
    [.connect, peerAcks 1 10 true, peerCloses, .endInputStream],
    [.connect, peerAcks 1 10 true, .endInputStream],
    [.connect, peerAcks 1 10 true, .endInputStream, peerAcks 2],
    [.connect, peerAcks 1 10 true, .endInputStream, peerCloses],
    [.connect, peerAcks 1 10 true, .endInputStream, peerAcks 2, peerCloses],
    [.connect, peerAcks 1 10 true, peerCloses, .endInputStream, peerAcks 2],
    [peerSends { rst := true }],
    [peerSends { syn := true, fin := true }],
    [.connect, peerSends { syn := true, fin := true }],
    [.endInputStream, peerSends { syn := true, fin := true }],
    [.connect, peerAcks 1 1 true, .write [42], .endInputStream, peerCloses],
    [.connect, peerAcks 1],
    [.connect, peerAcks 1, .endInputStream],
    [.connect, peerAcks 1, .endInputStream, peerAcks 2]]

/-- Perform an operation, if it returns. -/
def perform (c : TCPConnection) (op : Op) : Option TCPConnection :=
  (c.apply op).toOption

theorem step_of_perform {c d : TCPConnection} {op : Op} (h : c.perform op = some d) :
    c.Step op d := by
  unfold perform at h
  unfold Step
  cases hop : c.apply op with
  | error e =>
    rw [hop] at h
    cases h
  | ok d' =>
    rw [hop] at h
    cases h
    rfl

theorem states_of_routes :
    routes.map (fun ops => (ops.foldlM perform (.new plainConfig 0)).map state) =
      TCPState.states.map some := by
  decide +kernel

/-- **The states of a connection** are nineteen: the twelve official ones and the seven others. -/
theorem states_exact : TCPState.states.length = 19 ∧ TCPState.states.Nodup ∧
    ∀ s : TCPState, (∃ cfg randomDevice ops c,
      Execution.Trace Step (.new cfg randomDevice) ops c ∧ c.state = s) ↔ s ∈ TCPState.states := by
  refine ⟨rfl, by decide, fun s => ⟨?_, ?_⟩⟩
  · rintro ⟨cfg, randomDevice, ops, c, htrace, rfl⟩
    exact state_mem_states htrace
  · intro hmem
    have hroute : some s ∈ TCPState.states.map some := List.mem_map_of_mem hmem
    rw [← states_of_routes] at hroute
    obtain ⟨ops, -, hrun⟩ := List.mem_map.mp hroute
    obtain ⟨c, hc, hstate⟩ := Option.map_eq_some_iff.mp hrun
    exact ⟨plainConfig, 0, ops, c, .of_foldlM (fun _ _ _ => step_of_perform) hc, hstate⟩

/-- A connection that has been established, and what is left for it. -/
theorem follows_state_machine_established : ∃ c : TCPConnection,
    Execution.Trace Step (.new plainConfig 0) [.connect, peerAcks 1 10 true] c ∧
      c.state = .ofState .ESTABLISHED ∧
      (∀ op d, c.Step op d → d.state ∈ (TCPState.ofState .ESTABLISHED).next op.cause) ∧
      ∀ later d, Execution.Trace Step c later d → ¬ d.state.Opening := by
  have hrun : (([Op.connect, peerAcks 1 10 true].foldlM perform (.new plainConfig 0)).map state) =
      some (.ofState .ESTABLISHED) := by
    decide +kernel
  obtain ⟨c, hc, hstate⟩ := Option.map_eq_some_iff.mp hrun
  have htrace : Execution.Trace Step _ _ c := .of_foldlM (fun _ _ _ => step_of_perform) hc
  obtain ⟨hnext, hlater⟩ := follows_state_machine htrace
  refine ⟨c, htrace, hstate, ?_, hlater ?_⟩
  · rw [hstate] at hnext
    exact hnext
  · rw [hstate]
    decide

end TCPConnection

end Sponge
