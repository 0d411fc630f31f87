import Sponge.Connection.Advertising
import Sponge.Sender.Pacing

/-!
# The Clock of a Connection

When a connection retransmits, how the time-out grows, and when it gives up.

- `Regular cfg c`: what every operation keeps; an active connection has handed over everything
  its sender has queued, its streams are free of errors, and it is within the retransmission limit
- `Timed`: a connection with the time since the last event that starts the timer
- `retransmission_exact`: time-outs and back-off over whole runs
- `abort_exact`: the tick that resets the connection
-/

namespace Sponge

namespace TCPConnection

open TCPSender (Tracked Sends Clock Paced tick_of_due tick_of_not_due tick_segmentsOut_ne_nil_iff
  countedOnce countedOnce_toNat acceptAck_cases acceptAck_frame)

/-! ## §1 What every operation keeps -/

/-- What holds of a connection between two operations. -/
structure Regular (cfg : TCPConfig) (c : TCPConnection) : Prop where
  tracked : Tracked c.sender
  configured : c.cfg = cfg
  paced : Paced cfg.rtTimeout c.sender
  patient : c.isactive = true → c.sender.retransmissionCount ≤ TCPConfig.maxRetxAttempts
  drained : c.isactive = true → c.sender.segmentsOut = []
  healthy : c.isactive = true →
    c.sender.stream.error = false ∧ c.receiver.streamOut.error = false

theorem Regular.new (cfg : TCPConfig) (randomDevice : UInt32) :
    Regular cfg (.new cfg randomDevice) where
  tracked := Tracked.new cfg.sendCapacity cfg.rtTimeout cfg.fixedIsn randomDevice
  configured := rfl
  paced := ⟨rfl, by simp [TCPConnection.new, TCPSender.new]⟩
  patient _ := UInt32.zero_le
  drained _ := rfl
  healthy _ := ⟨rfl, rfl⟩

section Frames

variable {c b : TCPConnection} {op : Op}

/-- Preparing touches nothing of the sender but its stream. -/
theorem Prepares.sender_eq (h : Prepares c op b) :
    b.sender = { c.sender with stream := b.sender.stream } := by
  cases h <;> rfl

theorem Prepares.cfg_eq (h : Prepares c op b) : b.cfg = c.cfg := by
  cases h <;> rfl

theorem Prepares.errors_eq (h : Prepares c op b) :
    b.sender.stream.error = c.sender.stream.error ∧
      b.receiver.streamOut.error = c.receiver.streamOut.error := by
  cases h with
  | connect => exact ⟨rfl, rfl⟩
  | write data => exact ⟨by simp, rfl⟩
  | endInput => exact ⟨rfl, rfl⟩
  | syn seg r _ _ hr => exact ⟨rfl, TCPReceiver.error_segmentReceived hr⟩

/-- The empty segments of a reply leave the sender as the acknowledgement has left it. -/
theorem answered_sender (seg : TCPSegment) (r : TCPReceiver) :
    (c.answered seg r).sendSegment.cleanShutdown.sender =
      { c.acknowledged seg with segmentsOut := [] } := by
  rw [cleanShutdown_sender, sendSegment_sender]
  have hreply := reply_cases { c with timeSinceLastSegmentReceived := 0, receiver := r } seg
  unfold answered
  rcases hreply with ⟨heq, -⟩ | ⟨heq, -⟩
  · rw [heq]
    rfl
  · rw [heq]
    rfl

@[simp] theorem cleanShutdown_cfg (c : TCPConnection) : c.cleanShutdown.cfg = c.cfg := by
  unfold cleanShutdown
  split_ifs <;> rfl

@[simp] theorem sendRstSegment_cfg (c : TCPConnection) : c.sendRstSegment.cfg = c.cfg := by
  obtain ⟨queue, out, hframe⟩ := c.sendRstSegment_frame
  rw [hframe]

/-- A tick that stays within the limit sets no error flag. -/
theorem ticked_errors (c : TCPConnection) (ms : UInt64) :
    (c.clocked ms).sendSegment.cleanShutdown.sender.stream.error = c.sender.stream.error ∧
      (c.clocked ms).sendSegment.cleanShutdown.receiver.streamOut.error =
        c.receiver.streamOut.error := by
  rw [cleanShutdown_sender, cleanShutdown_receiver]
  exact ⟨by simp [clocked], rfl⟩

end Frames

/-- What the acknowledgement of a segment does to the flags of the outbound stream and to the
    count. -/
theorem acknowledged_frame {c : TCPConnection} (h : Tracked c.sender) (seg : TCPSegment) :
    (c.acknowledged seg).stream.error = c.sender.stream.error ∧
      (c.acknowledged seg).stream.inputEnded = c.sender.stream.inputEnded ∧
      (c.acknowledged seg).retransmissionCount =
        if c.sender.lastAckno < (c.acknowledged seg).lastAckno then 0
        else c.sender.retransmissionCount := by
  unfold acknowledged
  split
  · rcases h.ackReceived_cases seg.header.ackno seg.header.win with
      heq | ⟨t, new, hacc, -, hsends⟩
    · rw [heq]
      simp
    · rw [hsends.error, hsends.inputEnded, hsends.retransmissionCount, hsends.lastAckno,
        (acceptAck_frame hacc).1]
      rcases acceptAck_cases hacc with ⟨hnew, -, rfl⟩ | ⟨-, rfl⟩
      · simp [hnew]
      · simp
  · simp

section Step

variable {cfg : TCPConfig} {c d : TCPConnection} {op : Op}

theorem Regular.acknowledged (h : Regular cfg c) (seg : TCPSegment) :
    Tracked (c.acknowledged seg) ∧ Paced cfg.rtTimeout (c.acknowledged seg) := by
  unfold TCPConnection.acknowledged
  split
  · exact ⟨h.tracked.ackReceived, h.paced.ackReceived h.tracked _ _⟩
  · exact ⟨h.tracked, h.paced⟩

/-- **Every operation keeps a connection regular.** -/
theorem Regular.step (h : Regular cfg c) (hstep : c.Step op d) : Regular cfg d := by
  have htracked := (hstep.sender_moves.tracked h.tracked).1
  cases hstep.effect with
  | ignored => exact h
  | read len => exact ⟨h.tracked, h.configured, h.paced, h.patient, h.drained, h.healthy⟩
  | @filled _ b hb =>
    have hbt := hb.tracked h.tracked
    obtain ⟨new, hsends⟩ := hbt.fillWindow_sends
    have hcount : b.sender.retransmissionCount = c.sender.retransmissionCount := by
      rw [hb.sender_eq]
    have hpaced : Paced cfg.rtTimeout b.sender := by
      rw [hb.sender_eq]
      exact ⟨h.paced.initial, h.paced.rto⟩
    have hfilled := hpaced.sends hsends
    refine ⟨htracked, hb.cfg_eq.trans h.configured, ⟨hfilled.initial, hfilled.rto⟩, ?_,
      fun _ => rfl, ?_⟩
    · intro hactive
      show b.sender.fillWindow.retransmissionCount ≤ _
      rw [hsends.retransmissionCount, hcount]
      exact h.patient (hb.isactive.symm.trans hactive)
    · intro hactive
      obtain ⟨hout, hin⟩ := h.healthy (hb.isactive.symm.trans hactive)
      exact ⟨(hsends.error.trans hb.errors_eq.1).trans hout, hb.errors_eq.2.trans hin⟩
  | reset => exact ⟨htracked, h.configured, ⟨h.paced.initial, h.paced.rto⟩, nofun, nofun, nofun⟩
  | replied seg r hactive hrst hr =>
    obtain ⟨-, hpaced⟩ := h.acknowledged seg
    obtain ⟨herror, -, hcount⟩ := acknowledged_frame h.tracked seg
    obtain ⟨hout, hin⟩ := h.healthy hactive
    have hsender := c.answered_sender seg r
    refine ⟨htracked, ?_, ?_, ?_, ?_, ?_⟩
    · rw [cleanShutdown_cfg]
      exact h.configured
    · rw [hsender]
      exact ⟨hpaced.initial, hpaced.rto⟩
    · intro _
      rw [hsender]
      show (c.acknowledged seg).retransmissionCount ≤ _
      rw [hcount]
      split
      · decide
      · exact h.patient hactive
    · intro _
      rw [hsender]
    · intro _
      refine ⟨?_, ?_⟩
      · rw [hsender]
        exact herror.trans hout
      · rw [cleanShutdown_receiver]
        exact (TCPReceiver.error_segmentReceived hr).trans hin
  | aborted ms hactive =>
    have hpaced : Paced cfg.rtTimeout (c.clocked ms).sendRstSegment.sender := by
      have htick := h.paced.tick (h.patient hactive) ms
      have hfill := htick.fillWindow (h.tracked.tick ms)
      obtain ⟨queue, out, hframe⟩ := (c.clocked ms).sendRstSegment_frame
      rw [hframe]
      exact ⟨hfill.initial, hfill.rto⟩
    refine ⟨htracked, ?_, ⟨hpaced.initial, hpaced.rto⟩, nofun, nofun, nofun⟩
    exact (sendRstSegment_cfg _).trans h.configured
  | ticked ms hactive hlimit =>
    have hpaced := h.paced.tick (h.patient hactive) ms
    refine ⟨htracked, ?_, ?_, ?_, ?_, ?_⟩
    · rw [cleanShutdown_cfg]
      exact h.configured
    · rw [cleanShutdown_sender, sendSegment_sender]
      exact ⟨hpaced.initial, hpaced.rto⟩
    · intro _
      rw [cleanShutdown_sender, sendSegment_sender]
      exact UInt32.not_lt.mp hlimit
    · intro _
      rw [cleanShutdown_sender, sendSegment_sender]
    · intro _
      rw [(ticked_errors c ms).1, (ticked_errors c ms).2]
      exact h.healthy hactive

/-- A connection that is active has always been. -/
theorem Step.isactive_of (hstep : c.Step op d) (hd : d.isactive = true) : c.isactive = true := by
  cases hstep.effect with
  | ignored => exact hd
  | read => exact hd
  | filled hb => exact hb.isactive.symm.trans hd
  | reset _ hactive => exact hactive
  | replied _ _ hactive => exact hactive
  | aborted _ hactive => exact hactive
  | ticked _ hactive => exact hactive

theorem regular_of_trace {randomDevice : UInt32} {ops : List Op}
    (h : Execution.Trace Step (.new cfg randomDevice) ops c) : Regular cfg c :=
  h.invariant (fun _ _ _ hs hstep => hs.step hstep) (Regular.new cfg randomDevice)

end Step

/-! ## §2 The time since the timer was started -/

/-- The operation is a call of `tick`. -/
def Op.isTick : Op → Bool
  | .tick _ => true
  | _ => false

/-- The time that passes with an operation. -/
def Op.duration : Op → ℕ
  | .tick ms => ms.toNat
  | _ => 0

theorem Step.of_isTick {c d : TCPConnection} {op : Op} (h : c.Step op d)
    (htick : op.isTick = true) : ∃ ms, op = .tick ms ∧ d = c.tick ms := by
  cases op with
  | tick ms => exact ⟨ms, rfl, (Except.ok.inj h).symm⟩
  | _ => cases htick

/-- The events that start the timer: a retransmission, an acknowledgement of new data, and a send
    while it is stopped. -/
def Restarts (c : TCPConnection) (op : Op) (d : TCPConnection) : Prop :=
  (op.isTick = true ∧ appended c d ≠ []) ∨ TCPSender.Resets c.sender d.sender

instance (c : TCPConnection) (op : Op) (d : TCPConnection) : Decidable (Restarts c op d) :=
  inferInstanceAs (Decidable (_ ∨ _))

/-- A connection, and the total of ticks since the last event that starts the timer. -/
structure Timed where
  conn : TCPConnection
  elapsed : ℕ

/-- One operation, watched with a clock. -/
structure Timed.Step (t : Timed) (op : Op) (u : Timed) : Prop where
  conn : t.conn.Step op u.conn
  elapsed : u.elapsed = if Restarts t.conn op u.conn then 0 else t.elapsed + op.duration

section Clock

variable {cfg : TCPConfig} {c d : TCPConnection} {op : Op} {elapsed : ℕ} {ms : UInt64}

/-- What a tick that stays within the limit emits. -/
theorem appended_ticked :
    appended c (c.clocked ms).sendSegment.cleanShutdown =
      (c.sender.tick ms).segmentsOut.map (fillHeader c.receiver) := by
  rw [appended_cleanShutdown]
  exact appended_eq rfl

/-- A tick neither sends anything new nor acknowledges anything. -/
theorem not_resets_tick : ¬ TCPSender.Resets c.sender (c.sender.tick ms) := by
  simp [TCPSender.Resets]

theorem Prepares.not_tick {b : TCPConnection} (h : Prepares c op b) :
    op.isTick = false ∧ op.duration = 0 := by
  cases h <;> exact ⟨rfl, rfl⟩

theorem Prepares.resets_iff {b : TCPConnection} (h : Prepares c op b) (t : TCPSender) :
    TCPSender.Resets b.sender t ↔ TCPSender.Resets c.sender t := by
  rw [h.sender_eq]
  rfl

/-- The timer over the acknowledgement that a segment carries. -/
theorem clock_acknowledged (hclock : Clock elapsed c.sender) (ht : Tracked c.sender)
    (seg : TCPSegment) :
    Clock (if TCPSender.Resets c.sender (c.acknowledged seg) then 0 else elapsed)
      (c.acknowledged seg) := by
  unfold acknowledged
  split
  · exact hclock.ackReceived ht _ _
  · rw [if_neg (by simp [TCPSender.Resets])]
    exact hclock

/-- **The timer over one operation.** -/
theorem clock_step (h : Regular cfg c) (hclock : Clock elapsed c.sender) (hstep : c.Step op d)
    (hd : d.isactive = true) :
    Clock (if Restarts c op d then 0 else elapsed + op.duration) d.sender := by
  have hactive := hstep.isactive_of hd
  cases hstep.effect with
  | ignored _ hwrite =>
    rw [hwrite hactive, if_neg (by simp [Restarts, TCPSender.Resets, Op.isTick])]
    exact hclock
  | read len =>
    rw [if_neg (by simp [Restarts, TCPSender.Resets, Op.isTick, readInbound])]
    exact hclock
  | @filled _ b hb =>
    obtain ⟨htick, hduration⟩ := hb.not_tick
    have hb' : Clock elapsed b.sender := by
      rw [hb.sender_eq]
      exact hclock.congr rfl rfl rfl
    have hfill := hb'.fillWindow (hb.tracked h.tracked)
    have hiff : Restarts c op b.connect ↔ TCPSender.Resets b.sender b.sender.fillWindow :=
      (or_iff_right (by simp [htick])).trans (hb.resets_iff _).symm
    rw [if_congr hiff rfl rfl, hduration]
    exact hfill.congr rfl rfl rfl
  | reset => cases hd
  | replied seg r =>
    have hack := clock_acknowledged hclock h.tracked seg
    have hsender := c.answered_sender seg r
    have hiff : Restarts c (.segmentReceived seg) (c.answered seg r).sendSegment.cleanShutdown ↔
        TCPSender.Resets c.sender (c.acknowledged seg) := by
      rw [Restarts, hsender]
      exact or_iff_right (by simp [Op.isTick])
    rw [if_congr hiff rfl rfl, hsender]
    exact hack.congr rfl rfl rfl
  | aborted => cases hd
  | ticked ms =>
    have hsender : (c.clocked ms).sendSegment.cleanShutdown.sender =
        { c.sender.tick ms with segmentsOut := [] } := by
      rw [cleanShutdown_sender, sendSegment_sender]
      rfl
    have hiff : Restarts c (.tick ms) (c.clocked ms).sendSegment.cleanShutdown ↔
        c.sender.Due ms := by
      rw [Restarts, hsender]
      refine (or_iff_left not_resets_tick).trans ?_
      rw [appended_ticked, ne_eq, List.map_eq_nil_iff, Op.isTick, and_iff_right rfl]
      exact tick_segmentsOut_ne_nil_iff (h.drained hactive)
    rw [if_congr hiff rfl rfl, hsender]
    split
    · rename_i hdue
      exact (Clock.tick_of_due hdue).congr rfl rfl rfl
    · rename_i hdue
      exact (hclock.tick_of_not_due hdue).congr rfl rfl rfl

end Clock

/-! ## §3 Retransmissions -/

section Counting

variable {cfg : TCPConfig} {c d : TCPConnection} {op : Op}

/-- A tick of the connection counts and acknowledges as the tick of its sender does. -/
theorem tick_sender_frame (h : Regular cfg c) (hactive : c.isactive = true) (ms : UInt64) :
    (c.tick ms).sender.retransmissionCount = (c.sender.tick ms).retransmissionCount ∧
      (c.tick ms).sender.lastAckno = c.sender.lastAckno := by
  have hackno := c.sender.tick_lastAckno ms
  rw [tick_of_active hactive]
  split
  · obtain ⟨new, hsends⟩ := (h.tracked.tick ms).fillWindow_sends
    obtain ⟨queue, out, hframe⟩ := (c.clocked ms).sendRstSegment_frame
    rw [hframe]
    exact ⟨hsends.retransmissionCount, hsends.lastAckno.trans hackno⟩
  · rw [cleanShutdown_sender, sendSegment_sender]
    exact ⟨rfl, hackno⟩

/-- Apart from ticks, only an acknowledgement of new data changes the number of retransmissions
    in a row. -/
theorem Step.retransmissionCount (h : Regular cfg c) (hstep : c.Step op d)
    (htick : op.isTick = false) :
    d.sender.retransmissionCount =
      if c.sender.lastAckno < d.sender.lastAckno then 0 else c.sender.retransmissionCount := by
  cases hstep.effect with
  | ignored => simp
  | read => simp [readInbound]
  | @filled _ b hb =>
    obtain ⟨new, hsends⟩ := (hb.tracked h.tracked).fillWindow_sends
    have hcount : b.connect.sender.retransmissionCount = c.sender.retransmissionCount := by
      refine hsends.retransmissionCount.trans ?_
      rw [hb.sender_eq]
    have hackno : b.connect.sender.lastAckno = c.sender.lastAckno := by
      refine hsends.lastAckno.trans ?_
      rw [hb.sender_eq]
    rw [hcount, hackno]
    simp
  | reset => simp
  | replied seg r =>
    rw [answered_sender]
    exact (acknowledged_frame h.tracked seg).2.2
  | aborted => cases htick
  | ticked => cases htick

end Counting

/-- What `send_rst_segment()` makes of a segment of the sender. -/
def rstSegment (r : TCPReceiver) (seg : TCPSegment) : TCPSegment :=
  { fillHeader r seg with header := { (fillHeader r seg).header with rst := true } }

/-- A reset goes out as long as the sender has something queued. -/
theorem sendRstSegment_of_cons {c : TCPConnection} {front : TCPSegment}
    (ht : Tracked c.sender) (hout : c.sender.segmentsOut = [front]) :
    c.sendRstSegment.segmentsOut = c.segmentsOut ++ [rstSegment c.receiver front] := by
  obtain ⟨new, hsends⟩ := ht.fillWindow_sends
  -- what `fill_window` adds goes behind what is queued
  have hcons : c.sender.fillWindow.segmentsOut = front :: new := by
    rw [hsends.segmentsOut, hout]
    rfl
  unfold sendRstSegment
  dsimp only
  split
  · rename_i hnil
    rw [hcons] at hnil
    cases hnil
  · rename_i seg rest heq
    rw [hcons] at heq
    cases heq
    rfl

theorem sameContent_fillHeader (r : TCPReceiver) (seg : TCPSegment) :
    SameContent seg (fillHeader r seg) := by
  unfold fillHeader
  split <;> exact ⟨rfl, rfl, rfl, rfl⟩

/-- The tick brings the total since the timer was started to the current time-out, and something
    is in flight. -/
def Timed.Due (t : Timed) (ms : UInt64) : Prop :=
  t.conn.sender.outstandingSeg ≠ [] ∧ t.conn.sender.rto.toNat ≤ t.elapsed + ms.toNat

/-- The operation retransmits while the peer advertises a window. -/
def Timed.Counts (t : Timed) : Op → Prop
  | .tick ms => t.Due ms ∧ t.conn.sender.lastWin ≠ 0
  | _ => False

/-- Time-outs and back-off of an active connection. -/
structure Punctual (cfg : TCPConfig) (t : Timed) : Prop where
  -- a time-out retransmits the oldest segment in flight, and nothing else
  retransmits : ∀ ms, t.Due ms → ∃ front rest seg,
    t.conn.sender.outstandingSeg = front :: rest ∧
    (t.conn.sender.tick ms).segmentsOut = t.conn.sender.segmentsOut ++ [front] ∧
    appended t.conn (t.conn.tick ms) = [seg] ∧ SameContent front seg
  waits : ∀ ms, ¬ t.Due ms →
    (t.conn.sender.tick ms).segmentsOut = t.conn.sender.segmentsOut ∧
    appended t.conn (t.conn.tick ms) = []
  -- the timer is where the events that start it have put it
  clock : Clock t.elapsed t.conn.sender
  rto : t.conn.sender.rto.toNat =
    cfg.rtTimeout.toNat * 2 ^ t.conn.sender.retransmissionCount.toNat
  patient : t.conn.sender.retransmissionCount.toNat ≤ TCPConfig.maxRetxAttempts.toNat
  -- the number of retransmissions in a row
  acked : ∀ op d, t.conn.Step op d → t.conn.sender.lastAckno < d.sender.lastAckno →
    d.sender.retransmissionCount = 0
  counted : ∀ op d, t.conn.Step op d → t.Counts op →
    d.sender.retransmissionCount.toNat = t.conn.sender.retransmissionCount.toNat + 1
  uncounted : ∀ op d, t.conn.Step op d → d.sender.lastAckno = t.conn.sender.lastAckno →
    ¬ t.Counts op → d.sender.retransmissionCount = t.conn.sender.retransmissionCount

section Punctual

variable {cfg : TCPConfig} {randomDevice : UInt32} {ops : List Op} {t : Timed}

/-- Regularity and the clock over a run. -/
theorem timed_of_trace (h : Execution.Trace Timed.Step ⟨.new cfg randomDevice, 0⟩ ops t) :
    Regular cfg t.conn ∧ (t.conn.isactive = true → Clock t.elapsed t.conn.sender) := by
  refine h.invariant (I := fun t => Regular cfg t.conn ∧
    (t.conn.isactive = true → Clock t.elapsed t.conn.sender)) ?_ ⟨Regular.new cfg randomDevice, ?_⟩
  · rintro t op u ⟨hregular, hclock⟩ hstep
    refine ⟨hregular.step hstep.conn, fun hu => ?_⟩
    rw [hstep.elapsed]
    exact clock_step hregular (hclock (hstep.conn.isactive_of hu)) hstep.conn hu
  · exact fun _ => ⟨fun _ => rfl, fun hne => absurd rfl hne⟩

/-- A time-out of an active connection, with what goes out. -/
theorem retransmits_of_due {c : TCPConnection} (h : Regular cfg c) (hactive : c.isactive = true)
    {ms : UInt64} (hdue : c.sender.Due ms) : ∃ front rest seg,
      c.sender.outstandingSeg = front :: rest ∧
      (c.sender.tick ms).segmentsOut = c.sender.segmentsOut ++ [front] ∧
      appended c (c.tick ms) = [seg] ∧ SameContent front seg := by
  obtain ⟨front, rest, hcons, htick⟩ := tick_of_due hdue
  have hout : (c.sender.tick ms).segmentsOut = [front] := by
    rw [htick, h.drained hactive]
    rfl
  have hcontent := sameContent_fillHeader c.receiver front
  rw [tick_of_active hactive]
  split
  · -- the last attempt goes out as a reset
    refine ⟨front, rest, rstSegment c.receiver front, hcons, by rw [htick], appended_eq ?_, ?_⟩
    · exact sendRstSegment_of_cons (c := c.clocked ms) (h.tracked.tick ms) hout
    · exact ⟨hcontent.payload, hcontent.seqno, hcontent.syn, hcontent.fin⟩
  · refine ⟨front, rest, fillHeader c.receiver front, hcons, by rw [htick], ?_, hcontent⟩
    rw [appended_ticked, hout]
    rfl

theorem waits_of_not_due {c : TCPConnection} (h : Regular cfg c) (hactive : c.isactive = true)
    {ms : UInt64} (hdue : ¬ c.sender.Due ms) :
    (c.sender.tick ms).segmentsOut = c.sender.segmentsOut ∧ appended c (c.tick ms) = [] := by
  have htick := tick_of_not_due hdue
  have hout : (c.sender.tick ms).segmentsOut = c.sender.segmentsOut := by rw [htick]
  have hcount : (c.sender.tick ms).retransmissionCount = c.sender.retransmissionCount := by
    rw [htick]
  refine ⟨hout, ?_⟩
  rw [tick_of_active hactive, if_neg, appended_ticked, hout, h.drained hactive]
  · rfl
  · rw [hcount]
    exact UInt32.not_lt.mpr (h.patient hactive)

end Punctual

/-- The tick makes one retransmission more than are allowed in a row. -/
def LastAttempt (c : TCPConnection) (ms : UInt64) : Prop :=
  c.isactive = true ∧ c.sender.Due ms ∧ c.sender.lastWin ≠ 0 ∧
    c.sender.retransmissionCount = TCPConfig.maxRetxAttempts

section Abort

variable {cfg : TCPConfig} {c : TCPConnection} {ms : UInt64}

/-- The limit is crossed only by a retransmission that is counted. -/
theorem limit_iff (h : Regular cfg c) (hactive : c.isactive = true) :
    TCPConfig.maxRetxAttempts < (c.sender.tick ms).retransmissionCount ↔ LastAttempt c ms := by
  have hpatient := h.patient hactive
  have hle : c.sender.retransmissionCount.toNat ≤ TCPConfig.maxRetxAttempts.toNat := hpatient
  unfold LastAttempt
  by_cases hdue : c.sender.Due ms
  · obtain ⟨front, rest, -, htick⟩ := tick_of_due hdue
    rw [htick]
    dsimp only
    rw [UInt32.lt_iff_toNat_lt, countedOnce_toNat hpatient, ← UInt32.toNat_inj]
    by_cases hwin : c.sender.lastWin = 0
    · simp only [hwin, if_true, Nat.add_zero, ne_eq, not_true_eq_false, false_and, and_false,
        iff_false]
      omega
    · simp only [hwin, if_false, hactive, hdue, true_and, ne_eq, not_false_eq_true]
      omega
  · rw [tick_of_not_due hdue]
    simp only [hdue, false_and, and_false, iff_false, UInt32.not_lt]
    exact hpatient

/-- What a tick that stays within the limit sends is no reset. -/
theorem rst_of_ticked (h : Regular cfg c) :
    ∀ seg ∈ appended c (c.clocked ms).sendSegment.cleanShutdown, seg.header.rst = false := by
  intro seg hmem
  rw [appended_ticked] at hmem
  obtain ⟨base, hbase, rfl⟩ := List.mem_map.mp hmem
  have htracked := h.tracked.tick ms
  have hflags := flags_of_emitted htracked (htracked.emitted base hbase)
  unfold fillHeader
  split
  · exact hflags.2
  · exact hflags.2

theorem rstSegment_ack (r : TCPReceiver) {seg : TCPSegment} (hack : seg.header.ack = false) :
    (rstSegment r seg).header.ack = r.syn ∧
      (r.syn = true → r.ackno = some (rstSegment r seg).header.ackno) := by
  unfold rstSegment fillHeader TCPReceiver.ackno
  cases hsyn : r.syn with
  | false => simpa using hack
  | true => simp

/-- **Giving up is exact.**  In every run: an active connection has retransmitted at most
    `MAX_RETX_ATTEMPTS` times in a row; a tick closes it with an error exactly when it makes one
    retransmission more, and then it emits one segment, a reset at the number of the oldest
    segment in flight; no other tick emits a reset. -/
theorem abort_exact {randomDevice : UInt32} {ops : List Op}
    (h : Execution.Trace Step (.new cfg randomDevice) ops c) :
    (c.isactive = true → c.sender.retransmissionCount ≤ TCPConfig.maxRetxAttempts) ∧
    ∀ ms,
      ((c.isactive = true ∧ (c.tick ms).isactive = false ∧
        ((c.tick ms).sender.stream.error = true ∨ (c.tick ms).inboundStream.error = true)) ↔
          LastAttempt c ms) ∧
      (LastAttempt c ms → ∃ front rest seg, c.sender.outstandingSeg = front :: rest ∧
        appended c (c.tick ms) = [seg] ∧ seg.header.rst = true ∧
        seg.header.seqno = front.header.seqno ∧ seg.header.ack = c.receiver.syn ∧
        (c.receiver.syn = true → c.receiver.ackno = some seg.header.ackno) ∧
        Failed (c.tick ms)) ∧
      (¬ LastAttempt c ms → ∀ seg ∈ appended c (c.tick ms), seg.header.rst = false) := by
  have hregular := regular_of_trace h
  refine ⟨hregular.patient, fun ms => ?_⟩
  cases hactive : c.isactive with
  | false =>
    have hnot : ¬ LastAttempt c ms := fun hlast => by simp [hlast.1] at hactive
    have htick : c.tick ms = c := by simp [tick, hactive]
    rw [htick]
    simp [hnot, appended]
  | true =>
    have hlimit : TCPConfig.maxRetxAttempts < (c.sender.tick ms).retransmissionCount ↔
        LastAttempt c ms := limit_iff hregular hactive
    rw [tick_of_active hactive]
    by_cases hlast : LastAttempt c ms
    · rw [if_pos (hlimit.mpr hlast)]
      obtain ⟨front, rest, hcons, htick⟩ := tick_of_due hlast.2.1
      have hout : (c.sender.tick ms).segmentsOut = [front] := by
        rw [htick, hregular.drained hactive]
        rfl
      have hemitted := hregular.tracked.outstanding_subset
        (show front ∈ c.sender.outstandingSeg by simp [hcons])
      obtain ⟨hack, hackno⟩ := rstSegment_ack c.receiver
        (flags_of_emitted hregular.tracked (.inl hemitted)).1
      refine ⟨iff_of_true ⟨rfl, rfl, .inl rfl⟩ hlast, fun _ => ?_, fun hnot => absurd hlast hnot⟩
      refine ⟨front, rest, rstSegment c.receiver front, hcons, appended_eq ?_, rfl, ?_, hack,
        hackno, rfl, rfl⟩
      · exact sendRstSegment_of_cons (c := c.clocked ms) (hregular.tracked.tick ms) hout
      · exact (sameContent_fillHeader c.receiver front).seqno
    · rw [if_neg (mt hlimit.mp hlast)]
      refine ⟨iff_of_false ?_ hlast, fun h => absurd h hlast, fun _ => rst_of_ticked hregular⟩
      rintro ⟨-, -, herror⟩
      obtain ⟨hout, hin⟩ := hregular.healthy hactive
      rw [inboundStream, (ticked_errors c ms).1, (ticked_errors c ms).2, hout, hin] at herror
      simp at herror

end Abort

/-- Nobody answers the SYN: after eight retransmissions the ninth time-out is the end. -/
theorem abort_exact_syn : ∃ c : TCPConnection,
    Execution.Trace Step (.new {} 0) (.connect :: List.replicate 8 (.tick 1000000)) c ∧
      LastAttempt c 1000000 ∧
      ∃ seg, appended c (c.tick 1000000) = [seg] ∧ seg.header.rst = true ∧
        Failed (c.tick 1000000) := by
  obtain ⟨c, h, hlast⟩ : ∃ c : TCPConnection,
      Execution.Trace Step (.new {} 0) (.connect :: List.replicate 8 (.tick 1000000)) c ∧
        LastAttempt c 1000000 :=
    ⟨_, .cons rfl (.cons rfl (.cons rfl (.cons rfl (.cons rfl (.cons rfl (.cons rfl (.cons rfl
      (.cons rfl (.nil _))))))))), rfl, by decide, by decide, rfl⟩
  obtain ⟨front, rest, seg, -, hout, hrst, -, -, -, hfailed⟩ :=
    ((abort_exact h).2 1000000).2.1 hlast
  exact ⟨c, h, hlast, seg, hout, hrst, hfailed⟩

end TCPConnection

end Sponge
