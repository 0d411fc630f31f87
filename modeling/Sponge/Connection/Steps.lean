import Sponge.Sender.Progress
import Sponge.TCPConnection

/-!
# What an Operation of a Connection Does

A connection drives its sender through the sender's own operations, hands segments to its
receiver, and moves what the sender has queued to its outbound queue, with the receiver's
acknowledgement filled in.  This module says so once for every operation; the results on
connections are derived from here.

- `Moves op s t`: the sender goes from `s` to `t` by operations that `op` may cause
- `Effect c op d`, `Step.effect`: the ways an operation can go
- `Step.sender_moves`, `Step.receiver_moves`: the two halves of a connection
- `Step.emits`, `Step.emission`: where the segments on the outbound queue come from
- `Step.inactive`: why a connection becomes inactive
-/

namespace Sponge

theorem TCPSender.nextSeqno_of_closed {s : TCPSender} (h : s.stateSummary = .closed) :
    s.nextSeqno = 0 := by
  unfold TCPSender.stateSummary at h
  split_ifs at h with _ hzero
  exact hzero

theorem TCPSender.eof_of_finAcked {s : TCPSender} (h : s.stateSummary = .finAcked) :
    s.stream.eof = true := by
  unfold TCPSender.stateSummary at h
  split_ifs at h with _ _ _ heof
  simpa using heof

namespace TCPConnection

open TCPSender (Tracked Settled Settling Emitted)

/-! ## §1 The sender's part -/

/-- The sender operations that an operation of the connection may cause. -/
def Causes (op : Op) : TCPSender.Op → Prop
  | .write data => op = .write data
  | .endInput => op = .endInputStream
  | .ackReceived ackno win => ∃ seg, op = .segmentReceived seg ∧ seg.header.rst = false ∧
      seg.header.ack = true ∧ ackno = seg.header.ackno ∧ win = seg.header.win
  | _ => True

/-- The sender goes from `s` to `t` by operations that `op` may cause. -/
def Moves (op : Op) (s t : TCPSender) : Prop :=
  ∃ ops, t = s.run ops ∧ Settling ops ∧ ∀ o ∈ ops, Causes op o

section Moves

variable {op : Op} {s t u : TCPSender}

theorem Moves.refl : Moves op s s :=
  ⟨[], rfl, .nil, by simp⟩

theorem Moves.trans (h₁ : Moves op s t) (h₂ : Moves op t u) : Moves op s u := by
  obtain ⟨ops₁, rfl, hset₁, hcause₁⟩ := h₁
  obtain ⟨ops₂, rfl, hset₂, hcause₂⟩ := h₂
  refine ⟨ops₁ ++ ops₂, ?_, hset₁.append hset₂, ?_⟩
  · rw [TCPSender.run, TCPSender.run, TCPSender.run, List.foldl_append]
  · intro o ho
    rcases List.mem_append.mp ho with ho | ho
    · exact hcause₁ o ho
    · exact hcause₂ o ho

/-- One operation that does not touch the stream. -/
theorem Moves.apply (o : TCPSender.Op) (hcause : Causes op o) (hwrite : ∀ data, o ≠ .write data)
    (hend : o ≠ .endInput) : Moves op s (s.apply o) :=
  ⟨[o], rfl, .other hwrite hend .nil, by simpa using hcause⟩

theorem Moves.fillWindow : Moves op s s.fillWindow :=
  .apply .fillWindow trivial (by simp) (by simp)

theorem Moves.sendEmptySegment : Moves op s s.sendEmptySegment :=
  .apply .sendEmptySegment trivial (by simp) (by simp)

theorem Moves.dequeue : Moves op s { s with segmentsOut := s.segmentsOut.tail } :=
  .apply .dequeue trivial (by simp) (by simp)

theorem Moves.setError : Moves op s { s with stream := s.stream.setError } :=
  .apply .setError trivial (by simp) (by simp)

theorem Moves.tick (ms : UInt64) : Moves op s (s.tick ms) :=
  .apply (.tick ms) trivial (by simp) (by simp)

/-- Emptying the outbound queue is taking its segments off one by one. -/
theorem Moves.drain : Moves op s { s with segmentsOut := [] } := by
  obtain ⟨segs, hsegs⟩ : ∃ segs, s.segmentsOut = segs := ⟨_, rfl⟩
  induction segs generalizing s with
  | nil =>
    rw [← hsegs]
    exact .refl
  | cons seg rest ih =>
    have htail : ({ s with segmentsOut := s.segmentsOut.tail } : TCPSender).segmentsOut = rest := by
      rw [hsegs, List.tail_cons]
    exact Moves.dequeue.trans (ih htail)

/-- The invariant, and what is never taken back, over the sender's part of an operation. -/
theorem Moves.tracked (h : Moves op s t) (hs : Tracked s) :
    Tracked t ∧ TCPSender.Advances s t := by
  obtain ⟨ops, rfl, -, -⟩ := h
  exact hs.run ops

theorem Moves.settled (h : Moves op s t) (hs : Tracked s) (hsettled : Settled s) :
    Settled t := by
  obtain ⟨ops, rfl, hset, -⟩ := h
  exact hsettled.run hset hs

end Moves

/-! ## §2 The helper functions -/

section Helpers

variable (c : TCPConnection)

@[simp] theorem sendSegment_sender :
    c.sendSegment.sender = { c.sender with segmentsOut := [] } := rfl

@[simp] theorem sendSegment_receiver : c.sendSegment.receiver = c.receiver := rfl

@[simp] theorem cleanShutdown_sender : c.cleanShutdown.sender = c.sender := by
  unfold cleanShutdown
  split_ifs <;> rfl

@[simp] theorem cleanShutdown_receiver : c.cleanShutdown.receiver = c.receiver := by
  unfold cleanShutdown
  split_ifs <;> rfl

@[simp] theorem cleanShutdown_segmentsOut : c.cleanShutdown.segmentsOut = c.segmentsOut := by
  unfold cleanShutdown
  split_ifs <;> rfl

/-- The receiver after `unclean_shutdown()`. -/
def failed (r : TCPReceiver) : TCPReceiver :=
  { r with reassembler := { r.reassembler with output := r.reassembler.output.setError } }

@[simp] theorem uncleanShutdown_sender : c.uncleanShutdown.sender =
    { c.sender with stream := c.sender.stream.setError } := rfl

@[simp] theorem uncleanShutdown_receiver : c.uncleanShutdown.receiver = failed c.receiver := rfl

/-- `send_rst_segment()` fills the window and otherwise touches the two queues only. -/
theorem sendRstSegment_frame : ∃ queue out, c.sendRstSegment = { c with
      sender := { c.sender.fillWindow with segmentsOut := queue }
      segmentsOut := out } := by
  unfold sendRstSegment
  dsimp only
  split <;> exact ⟨_, _, rfl⟩

@[simp] theorem sendRstSegment_receiver : c.sendRstSegment.receiver = c.receiver := by
  obtain ⟨queue, out, hframe⟩ := c.sendRstSegment_frame
  rw [hframe]

theorem sendRstSegment_moves {op : Op} : Moves op c.sender c.sendRstSegment.sender := by
  unfold sendRstSegment
  dsimp only
  split
  · exact Moves.fillWindow.trans Moves.sendEmptySegment
  · rename_i seg rest hcons
    refine Moves.fillWindow.trans ?_
    have hpop : Moves op c.sender.fillWindow _ := Moves.dequeue
    rwa [hcons, List.tail_cons] at hpop

/-- The sender once it has processed the acknowledgement of a segment. -/
def acknowledged (seg : TCPSegment) : TCPSender :=
  if seg.header.ack then c.sender.ackReceived seg.header.ackno seg.header.win else c.sender

/-- An empty segment just below the acknowledged number: the peer asks for a sign of life. -/
def KeepAlive (r : TCPReceiver) (seg : TCPSegment) : Prop :=
  seg.lengthInSequenceSpace = 0 ∧ ∃ a, r.ackno = some a ∧ seg.header.seqno = a - (1 : UInt32)

/-- The reply to a segment: at most one empty segment besides what the acknowledgement has
    caused, for content that nothing else answers or for a keep-alive. -/
theorem reply_cases (seg : TCPSegment) :
    (c.reply seg = c.acknowledged seg ∧
      ¬ (0 < seg.lengthInSequenceSpace ∧ (c.acknowledged seg).segmentsOut = []) ∧
      ¬ KeepAlive c.receiver seg) ∨
    (c.reply seg = (c.acknowledged seg).sendEmptySegment ∧
      (0 < seg.lengthInSequenceSpace ∧ (c.acknowledged seg).segmentsOut = [] ∨
        KeepAlive c.receiver seg)) := by
  unfold reply acknowledged KeepAlive
  dsimp only
  generalize (if seg.header.ack = true
    then c.sender.ackReceived seg.header.ackno seg.header.win else c.sender) = s
  by_cases hanswer : 0 < seg.lengthInSequenceSpace ∧ s.segmentsOut = []
  · -- a segment with content is no keep-alive
    right
    refine ⟨?_, .inl hanswer⟩
    rw [if_pos ⟨hanswer.1, List.isEmpty_iff.mpr hanswer.2⟩]
    split
    · rfl
    · rw [if_neg (by omega)]
  · rw [if_neg fun h => hanswer ⟨h.1, List.isEmpty_iff.mp h.2⟩]
    split
    · rename_i hnone
      exact .inl ⟨rfl, hanswer, by simp [hnone]⟩
    · rename_i a ha
      split
      · rename_i hkeep
        exact .inr ⟨rfl, .inr ⟨hkeep.1, a, ha, hkeep.2⟩⟩
      · rename_i hkeep
        refine .inl ⟨rfl, hanswer, ?_⟩
        rintro ⟨hlen, a', ha', hseqno⟩
        rw [ha] at ha'
        cases ha'
        exact hkeep ⟨hlen, hseqno⟩

theorem reply_moves {op : Op} {seg : TCPSegment} (hop : op = .segmentReceived seg)
    (hrst : seg.header.rst = false) : Moves op c.sender (c.reply seg) := by
  have hack : Moves op c.sender (c.acknowledged seg) := by
    unfold acknowledged
    split
    · rename_i hack
      exact Moves.apply (.ackReceived seg.header.ackno seg.header.win)
        ⟨seg, hop, hrst, hack, rfl, rfl⟩ (by simp) (by simp)
    · exact .refl
  rcases c.reply_cases seg with ⟨heq, -⟩ | ⟨heq, -⟩ <;> rw [heq]
  · exact hack
  · exact hack.trans .sendEmptySegment

end Helpers

/-! ## §3 Inversion of `segment_received` -/

/-- The ways through `segment_received`. -/
theorem segmentReceived_cases {c d : TCPConnection} {seg : TCPSegment}
    (h : c.segmentReceived seg = .ok d) :
    (c.isactive = false ∧ d = c) ∨
    (c.isactive = true ∧ seg.header.rst = true ∧
      d = { c with timeSinceLastSegmentReceived := 0 }.uncleanShutdown) ∨
    (c.isactive = true ∧ seg.header.rst = false ∧
      ∃ r, c.receiver.segmentReceived seg = .ok r ∧
        ((r.stateSummary = .synRecv ∧ c.sender.stateSummary = .closed ∧
          d = { c with timeSinceLastSegmentReceived := 0, receiver := r }.connect) ∨
        (¬ (r.stateSummary = .synRecv ∧ c.sender.stateSummary = .closed) ∧
          d = { c with
            timeSinceLastSegmentReceived := 0
            receiver := r
            sender := { c with timeSinceLastSegmentReceived := 0, receiver := r }.reply seg
            }.sendSegment.cleanShutdown))) := by
  unfold segmentReceived at h
  cases hactive : c.isactive with
  | false =>
    simp only [hactive, Bool.not_false, if_true, Except.ok.injEq] at h
    exact .inl ⟨rfl, h.symm⟩
  | true =>
    simp only [hactive, Bool.not_true, Bool.false_eq_true, if_false] at h
    right
    cases hrst : seg.header.rst with
    | true =>
      simp only [hrst, if_true, Except.ok.injEq] at h
      exact .inl ⟨rfl, rfl, h.symm⟩
    | false =>
      right
      simp only [hrst, Bool.false_eq_true, if_false] at h
      cases hr : c.receiver.segmentReceived seg with
      | error e =>
        rw [hr] at h
        cases h
      | ok r =>
        rw [hr] at h
        refine ⟨rfl, rfl, r, rfl, ?_⟩
        simp only [bind, Except.bind, pure, Except.pure] at h
        split at h
        · rename_i hcond
          exact .inl ⟨hcond.1, hcond.2, (Except.ok.inj h).symm⟩
        · rename_i hcond
          exact .inr ⟨hcond, (Except.ok.inj h).symm⟩

/-! ## §4 Inversion of a step -/

/-- `op` prepares the connection `b` on which the source then runs the code of `connect()`: the
    call itself, bytes for the outbound stream, its end, or a SYN for a listening connection. -/
inductive Prepares (c : TCPConnection) : Op → TCPConnection → Prop where
  | connect : Prepares c .connect c
  | write (data : Bytes) (hactive : c.isactive = true) (hdata : data ≠ []) :
      Prepares c (.write data)
        { c with sender := { c.sender with stream := (c.sender.stream.write data).1 } }
  | endInput : Prepares c .endInputStream
      { c with sender := { c.sender with stream := c.sender.stream.endInput } }
  | syn (seg : TCPSegment) (r : TCPReceiver) (hactive : c.isactive = true)
      (hrst : seg.header.rst = false) (hr : c.receiver.segmentReceived seg = .ok r)
      (hrecv : r.stateSummary = .synRecv) (hclosed : c.sender.stateSummary = .closed) :
      Prepares c (.segmentReceived seg) { c with timeSinceLastSegmentReceived := 0, receiver := r }

/-- The state in which `tick` tests the number of retransmissions. -/
def clocked (c : TCPConnection) (ms : UInt64) : TCPConnection :=
  { c with
    sender := c.sender.tick ms
    timeSinceLastSegmentReceived := c.timeSinceLastSegmentReceived + ms }

/-- The state in which `segment_received` calls `send_segment()`. -/
def answered (c : TCPConnection) (seg : TCPSegment) (r : TCPReceiver) : TCPConnection :=
  { c with
    timeSinceLastSegmentReceived := 0
    receiver := r
    sender := { c with timeSinceLastSegmentReceived := 0, receiver := r }.reply seg }

/-- The ways an operation can go. -/
inductive Effect (c : TCPConnection) : Op → TCPConnection → Prop where
  -- a closed connection ignores segments, time and bytes; an empty write is no write
  | ignored (op : Op) (h : c.isactive = true → op = .write []) : Effect c op c
  | read (len : ℕ) : Effect c (.readInbound len) (c.readInbound len)
  | filled {op : Op} {b : TCPConnection} (h : Prepares c op b) : Effect c op b.connect
  | reset (seg : TCPSegment) (hactive : c.isactive = true) (hrst : seg.header.rst = true) :
      Effect c (.segmentReceived seg) { c with timeSinceLastSegmentReceived := 0 }.uncleanShutdown
  | replied (seg : TCPSegment) (r : TCPReceiver) (hactive : c.isactive = true)
      (hrst : seg.header.rst = false) (hr : c.receiver.segmentReceived seg = .ok r)
      (hopen : ¬ (r.stateSummary = .synRecv ∧ c.sender.stateSummary = .closed)) :
      Effect c (.segmentReceived seg) (c.answered seg r).sendSegment.cleanShutdown
  -- too many retransmissions in a row
  | aborted (ms : UInt64) (hactive : c.isactive = true)
      (hlimit : TCPConfig.maxRetxAttempts < (c.sender.tick ms).retransmissionCount) :
      Effect c (.tick ms) (c.clocked ms).sendRstSegment.uncleanShutdown
  | ticked (ms : UInt64) (hactive : c.isactive = true)
      (hlimit : ¬ TCPConfig.maxRetxAttempts < (c.sender.tick ms).retransmissionCount) :
      Effect c (.tick ms) (c.clocked ms).sendSegment.cleanShutdown

section Inversion

variable {c d : TCPConnection} {op : Op}

/-- A tick of an active connection. -/
theorem tick_of_active (hactive : c.isactive = true) (ms : UInt64) :
    c.tick ms =
      if TCPConfig.maxRetxAttempts < (c.sender.tick ms).retransmissionCount then
        (c.clocked ms).sendRstSegment.uncleanShutdown
      else (c.clocked ms).sendSegment.cleanShutdown := by
  unfold tick
  rw [if_neg (by simp [hactive])]
  rfl

theorem effect_tick (c : TCPConnection) (ms : UInt64) : Effect c (.tick ms) (c.tick ms) := by
  by_cases hactive : c.isactive = true
  · rw [tick_of_active hactive]
    split
    · rename_i hlimit
      exact .aborted ms hactive hlimit
    · rename_i hlimit
      exact .ticked ms hactive hlimit
  · unfold tick
    rw [if_pos (by simpa using hactive)]
    exact .ignored _ fun h => absurd h hactive

/-- **What an operation does.** -/
theorem Step.effect (h : c.Step op d) : Effect c op d := by
  cases op with
  | connect =>
    cases Except.ok.inj h
    exact .filled .connect
  | write data =>
    cases Except.ok.inj h
    unfold write
    split
    · rename_i hskip
      refine .ignored _ fun hactive => ?_
      simpa [hactive] using hskip
    · rename_i hwrite
      simp only [Bool.or_eq_true, Bool.not_eq_true', List.isEmpty_iff, not_or,
        Bool.not_eq_false] at hwrite
      exact .filled (.write data hwrite.1 hwrite.2)
  | endInputStream =>
    cases Except.ok.inj h
    exact .filled .endInput
  | segmentReceived seg =>
    rcases segmentReceived_cases h with ⟨hactive, rfl⟩ | ⟨hactive, hrst, rfl⟩ |
      ⟨hactive, hrst, r, hr, ⟨hrecv, hclosed, rfl⟩ | ⟨hopen, rfl⟩⟩
    · exact .ignored _ (by simp [hactive])
    · exact .reset seg hactive hrst
    · exact .filled (.syn seg r hactive hrst hr hrecv hclosed)
    · exact .replied seg r hactive hrst hr hopen
  | tick ms =>
    cases Except.ok.inj h
    exact effect_tick c ms
  | readInbound len =>
    cases Except.ok.inj h
    exact .read len

/-- Once the receiver has taken the segment, `segment_received` returns. -/
theorem segmentReceived_eq {seg : TCPSegment} {r : TCPReceiver} (hactive : c.isactive = true)
    (hrst : seg.header.rst = false) (hr : c.receiver.segmentReceived seg = .ok r) :
    c.segmentReceived seg = .ok
      (if r.stateSummary = .synRecv ∧ c.sender.stateSummary = .closed
      then { c with timeSinceLastSegmentReceived := 0, receiver := r }.connect
      else (c.answered seg r).sendSegment.cleanShutdown) := by
  unfold segmentReceived
  rw [if_neg (by simp [hactive])]
  dsimp only
  rw [if_neg (by simp [hrst]), hr]
  simp only [bind, Except.bind, pure, Except.pure]
  split <;> rfl

/-- What is prepared and then filled is an operation of the sender, too. -/
theorem Prepares.moves {b : TCPConnection} (h : Prepares c op b) :
    Moves op c.sender b.sender.fillWindow := by
  cases h with
  | connect => exact Moves.fillWindow
  | write data => exact ⟨[.write data, .fillWindow], rfl, .write data .nil, by simp [Causes]⟩
  | endInput => exact ⟨[.endInput, .fillWindow], rfl, .endInput .nil, by simp [Causes]⟩
  | syn => exact Moves.fillWindow

theorem Prepares.tracked {b : TCPConnection} (h : Prepares c op b) (ht : Tracked c.sender) :
    Tracked b.sender := by
  cases h with
  | connect => exact ht
  | write data => exact ht.apply (.write data)
  | endInput => exact ht.apply .endInput
  | syn => exact ht

theorem Prepares.segmentsOut {b : TCPConnection} (h : Prepares c op b) :
    b.segmentsOut = c.segmentsOut := by
  cases h <;> rfl

theorem Prepares.isactive {b : TCPConnection} (h : Prepares c op b) :
    b.isactive = c.isactive := by
  cases h <;> rfl

end Inversion

/-! ## §5 The two halves -/

section Halves

variable {c d : TCPConnection} {op : Op}

/-- **The sender's half.** -/
theorem Step.sender_moves (h : c.Step op d) : Moves op c.sender d.sender := by
  cases h.effect with
  | ignored => exact .refl
  | read => exact .refl
  | filled hb => exact hb.moves.trans Moves.drain
  | reset => exact .setError
  | replied seg r _ hrst =>
    rw [cleanShutdown_sender, sendSegment_sender]
    exact (reply_moves { c with timeSinceLastSegmentReceived := 0, receiver := r } rfl
      hrst).trans Moves.drain
  | aborted ms =>
    rw [uncleanShutdown_sender]
    exact (Moves.tick ms).trans ((sendRstSegment_moves (c.clocked ms)).trans Moves.setError)
  | ticked ms =>
    rw [cleanShutdown_sender, sendSegment_sender]
    exact (Moves.tick ms).trans Moves.drain

/-- What an operation may do to the receiver. -/
inductive ReceiverMoves (c : TCPConnection) (op : Op) (r : TCPReceiver) : Prop where
  | same (h : r = c.receiver)
  | failed (h : r = failed c.receiver)
  | read (len : ℕ) (h : r = (c.readInbound len).receiver)
  | received (seg : TCPSegment) (hop : op = .segmentReceived seg) (hactive : c.isactive = true)
      (hrst : seg.header.rst = false) (h : c.receiver.segmentReceived seg = .ok r)

/-- **The receiver's half.** -/
theorem Step.receiver_moves (h : c.Step op d) : ReceiverMoves c op d.receiver := by
  cases h.effect with
  | ignored => exact .same rfl
  | read len => exact .read len rfl
  | filled hb =>
    cases hb with
    | connect => exact .same rfl
    | write => exact .same rfl
    | endInput => exact .same rfl
    | syn seg r hactive hrst hr => exact .received seg rfl hactive hrst hr
  | reset => exact .failed rfl
  | replied seg r hactive hrst hr =>
    rw [cleanShutdown_receiver]
    exact .received seg rfl hactive hrst hr
  | aborted => exact .failed (by rw [uncleanShutdown_receiver, sendRstSegment_receiver]; rfl)
  | ticked => exact .same (by rw [cleanShutdown_receiver, sendSegment_receiver]; rfl)

end Halves

/-! ## §6 The outbound queue -/

/-- Two segments carry the same part of a stream. -/
structure SameContent (base seg : TCPSegment) : Prop where
  payload : seg.payload = base.payload
  seqno : seg.header.seqno = base.header.seqno
  syn : seg.header.syn = base.header.syn
  fin : seg.header.fin = base.header.fin

/-- `seg` is the segment `base` of the sender with the receiver's acknowledgement filled in. -/
structure Dressed (r : TCPReceiver) (base seg : TCPSegment) : Prop where
  content : SameContent base seg
  ack : seg.header.ack = true → r.ackno = some seg.header.ackno

/-- `seg` is `base` with all that the receiver has to say: the acknowledgement, as soon as there
    is one, and the window. -/
structure Completed (r : TCPReceiver) (base seg : TCPSegment) : Prop
    extends Dressed r base seg where
  acked : r.ackno.isSome = true → seg.header.ack = true
  win : seg.header.ack = true → seg.header.win = advertisedWindow r

section Emission

variable {c d : TCPConnection} {op : Op} {r : TCPReceiver} {base : TCPSegment}

/-- The sender leaves the acknowledgement and the reset to the connection. -/
theorem flags_of_emitted {s : TCPSender} (h : Tracked s) (hbase : Emitted s base) :
    base.header.ack = false ∧ base.header.rst = false := by
  rcases hbase with hsent | ⟨v, -, rfl⟩
  · cases hcons : s.sent with
    | nil => simp [hcons] at hsent
    | cons first rest =>
      rw [hcons] at hsent
      rcases List.mem_cons.mp hsent with rfl | hrest
      · rw [h.segmented.syn_first _ _ hcons]
        exact ⟨rfl, rfl⟩
      · have hplain : TCPSender.Plain base :=
          h.segmented.plain base (by rw [hcons]; exact hrest)
        rw [hplain]
        exact ⟨rfl, rfl⟩
  · exact ⟨rfl, rfl⟩

theorem completed_fillHeader (hack : base.header.ack = false) :
    Completed r base (fillHeader r base) := by
  unfold fillHeader
  split
  · rename_i hnone
    refine ⟨⟨⟨rfl, rfl, rfl, rfl⟩, fun h => ?_⟩, fun h => ?_, fun h => ?_⟩
    · rw [hack] at h
      cases h
    · rw [hnone] at h
      cases h
    · rw [hack] at h
      cases h
  · rename_i a ha
    exact ⟨⟨⟨rfl, rfl, rfl, rfl⟩, fun _ => ha⟩, fun _ => rfl, fun _ => rfl⟩

/-- A reset is an ordinary segment of the sender with a flag added. -/
theorem Completed.reset {seg : TCPSegment} (h : Completed r base seg) :
    Completed r base { seg with header := { seg.header with rst := true } } :=
  ⟨⟨⟨h.content.payload, h.content.seqno, h.content.syn, h.content.fin⟩, h.ack⟩, h.acked, h.win⟩

/-- From `c` to `d` the outbound queue grows by segments of the sender, with the receiver's
    acknowledgement filled in. -/
def Emits (c d : TCPConnection) : Prop :=
  ∃ new, d.segmentsOut = c.segmentsOut ++ new ∧
    ∀ seg ∈ new, ∃ base, Emitted d.sender base ∧ Completed d.receiver base seg

theorem emits_of_silent (h : d.segmentsOut = c.segmentsOut) : Emits c d :=
  ⟨[], by simp [h], by simp⟩

/-- `send_segment()` fills in what the sender has queued. -/
theorem sendSegment_emits (h : Tracked c.sender) : Emits c c.sendSegment := by
  refine ⟨_, rfl, fun seg hmem => ?_⟩
  obtain ⟨base, hbase, rfl⟩ := List.mem_map.mp hmem
  have hemitted := h.emitted base hbase
  exact ⟨base, hemitted, completed_fillHeader (flags_of_emitted h hemitted).1⟩

theorem sendRstSegment_emits (h : Tracked c.sender) : Emits c c.sendRstSegment := by
  unfold sendRstSegment
  dsimp only
  split
  · exact emits_of_silent rfl
  · rename_i front rest hcons
    have hfill := h.fillWindow
    have hemitted := hfill.emitted front (by rw [hcons]; exact List.mem_cons_self)
    refine ⟨_, rfl, fun seg hmem => ⟨front, ?_, ?_⟩⟩
    · simpa [Emitted, hcons] using hemitted
    · rw [List.mem_singleton.mp hmem]
      exact (completed_fillHeader (flags_of_emitted hfill hemitted).1).reset

theorem Emits.cleanShutdown (h : Emits c d) : Emits c d.cleanShutdown := by
  unfold Emits
  rw [cleanShutdown_segmentsOut, cleanShutdown_sender, cleanShutdown_receiver]
  exact h

/-- The shutdown sets the error flags and nothing else. -/
theorem Emits.uncleanShutdown (h : Emits c d) : Emits c d.uncleanShutdown := by
  obtain ⟨new, hout, hnew⟩ := h
  refine ⟨new, hout, fun seg hmem => ?_⟩
  obtain ⟨base, hbase, hcompleted⟩ := hnew seg hmem
  exact ⟨base, hbase, ⟨hcompleted.content, hcompleted.ack⟩, hcompleted.acked, hcompleted.win⟩

/-- **What an operation emits.** -/
theorem Step.emits (h : c.Step op d) (ht : Tracked c.sender) : Emits c d := by
  cases h.effect with
  | ignored => exact emits_of_silent rfl
  | read => exact emits_of_silent rfl
  | @filled _ b hb =>
    have hemits := sendSegment_emits (c := { b with sender := b.sender.fillWindow })
      (hb.tracked ht).fillWindow
    unfold Emits at hemits ⊢
    rwa [← hb.segmentsOut]
  | reset => exact emits_of_silent rfl
  | replied seg r _ hrst =>
    have hreply := (reply_moves { c with timeSinceLastSegmentReceived := 0, receiver := r }
      rfl hrst).tracked ht
    exact (sendSegment_emits (c := c.answered seg r) hreply.1).cleanShutdown
  | aborted ms => exact (sendRstSegment_emits (c := c.clocked ms) (ht.tick ms)).uncleanShutdown
  | ticked ms => exact (sendSegment_emits (c := c.clocked ms) (ht.tick ms)).cleanShutdown

/-- **Where emitted segments come from.**  Everything an operation puts on the outbound queue
    is a segment of the sender, dressed with the acknowledgement of the receiver. -/
theorem Step.emission (h : c.Step op d) (ht : Tracked c.sender) : ∀ seg ∈ d.segmentsOut,
    seg ∈ c.segmentsOut ∨ ∃ base, Emitted d.sender base ∧ Dressed d.receiver base seg := by
  obtain ⟨new, hout, hnew⟩ := h.emits ht
  intro seg hmem
  rw [hout] at hmem
  rcases List.mem_append.mp hmem with hold | hmem
  · exact .inl hold
  · obtain ⟨base, hbase, hcompleted⟩ := hnew seg hmem
    exact .inr ⟨base, hbase, hcompleted.toDressed⟩

end Emission

/-! ## §7 Becoming inactive -/

/-- Both directions are finished: everything sent is acknowledged, everything has arrived. -/
def Finished (c : TCPConnection) : Prop :=
  c.sender.stateSummary = .finAcked ∧ c.receiver.stateSummary = .finRecv

/-- Both streams are in error. -/
def Failed (c : TCPConnection) : Prop :=
  c.sender.stream.error = true ∧ c.receiver.streamOut.error = true

theorem cleanShutdown_inactive {c : TCPConnection} (h : c.cleanShutdown.isactive = false) :
    c.isactive = false ∨ Finished c.cleanShutdown := by
  -- the shutdown itself does not change what it tests
  unfold Finished
  rw [cleanShutdown_sender, cleanShutdown_receiver]
  unfold cleanShutdown at h
  -- only the branch for two finished directions makes it inactive
  split_ifs at h with h₁ h₂ h₃
  · exact .inl h
  · exact .inr h₂
  · exact .inl h
  · exact .inl h

/-- **Why a connection is inactive.** -/
theorem Step.inactive {c d : TCPConnection} {op : Op} (h : c.Step op d)
    (hd : d.isactive = false) : c.isactive = false ∨ Failed d ∨ Finished d := by
  cases h.effect with
  | ignored => exact .inl hd
  | read => exact .inl hd
  | filled hb => exact .inl (hb.isactive.symm.trans hd)
  | reset => exact .inr (.inl ⟨rfl, rfl⟩)
  | replied seg r =>
    rcases cleanShutdown_inactive hd with hc | hfinished
    · exact .inl hc
    · exact .inr (.inr hfinished)
  | aborted => exact .inr (.inl ⟨rfl, rfl⟩)
  | ticked ms =>
    rcases cleanShutdown_inactive hd with hc | hfinished
    · exact .inl hc
    · exact .inr (.inr hfinished)

end TCPConnection

end Sponge
