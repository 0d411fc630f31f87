import Sponge.Connection.Steps

/-!
# Connections that Should Stay Silent

Two states in which a connection is meant to emit nothing: after it has become inactive, and
while it listens and no SYN arrives.  In both the code is not as quiet as it should be.

- An inactive connection ignores writes, ticks and segments, but `connect` and
  `end_input_stream` do not ask whether it is active.  `inactive_silent_iff` says in which runs
  they happen to emit nothing.
- A listening connection processes resets and acknowledgements and answers segments with
  content like any other connection.  `listen_ignores_iff` says which segments it ignores.
-/

namespace Sponge

namespace TCPConnection

open TCPSender (Tracked Idle)

/-! ## §1 After the end -/

/-- The operation finds the sender with nothing to emit. -/
def Quiet (c : TCPConnection) : Op → Prop
  | .connect => Idle c.sender
  | .endInputStream => Idle { c.sender with stream := c.sender.stream.endInput }
  | _ => True

/-- `send_segment()` emits nothing exactly when the sender has queued nothing. -/
theorem sendSegment_silent_iff (c : TCPConnection) :
    c.sendSegment.segmentsOut = c.segmentsOut ↔ c.sender.segmentsOut = [] := by
  show c.segmentsOut ++ c.sender.segmentsOut.map (fillHeader c.receiver) = c.segmentsOut ↔ _
  simp

/-- One operation on an inactive connection. -/
theorem inactive_step {c : TCPConnection} (ht : Tracked c.sender) (hc : c.isactive = false)
    (op : Op) : ∃ d, c.apply op = .ok d ∧ d.isactive = false ∧
      (d.segmentsOut = c.segmentsOut ↔ Quiet c op) := by
  cases op with
  | connect =>
    refine ⟨_, rfl, hc, ?_⟩
    exact (sendSegment_silent_iff { c with sender := c.sender.fillWindow }).trans
      ht.fillWindow_silent_iff
  | endInputStream =>
    refine ⟨_, rfl, hc, ?_⟩
    exact (sendSegment_silent_iff { c with sender := TCPSender.fillWindow _ }).trans
      (ht.apply .endInput).fillWindow_silent_iff
  | write data => exact ⟨c, by simp [TCPConnection.apply, write, hc], hc, by simp [Quiet]⟩
  | tick ms => exact ⟨c, by simp [TCPConnection.apply, tick, hc], hc, by simp [Quiet]⟩
  | segmentReceived seg =>
    exact ⟨c, by simp [TCPConnection.apply, segmentReceived, hc], hc, by simp [Quiet]⟩
  | readInbound len => exact ⟨_, rfl, hc, by simp [Quiet, readInbound]⟩

/-- The sender's invariant over a run of the connection. -/
theorem tracked_of_trace {cfg : TCPConfig} {randomDevice : UInt32} {ops : List Op}
    {c : TCPConnection} (h : Execution.Trace Step (.new cfg randomDevice) ops c) :
    Tracked c.sender := by
  refine h.invariant (I := fun c => Tracked c.sender) ?_
    (Tracked.new cfg.sendCapacity cfg.rtTimeout cfg.fixedIsn randomDevice)
  exact fun _ _ _ hs hstep => (hstep.sender_moves.tracked hs).1

/-- **Runs after the end.**  From a reachable inactive state, the connection stays inactive and
    emits nothing if and only if every `connect` and every `end_input_stream` finds the sender
    with nothing to emit. -/
theorem inactive_silent_iff {cfg : TCPConfig} {randomDevice : UInt32} {before : List Op}
    {c : TCPConnection} (h : Execution.Trace Step (.new cfg randomDevice) before c)
    (hc : c.isactive = false) (ops : List Op) :
    Execution.Always Step (fun d => d.isactive = false ∧ d.segmentsOut = c.segmentsOut) c ops ↔
      Execution.Along Step Quiet c ops := by
  apply Execution.always_iff_along
    (I := fun d => Tracked d.sender ∧ d.isactive = false ∧ d.segmentsOut = c.segmentsOut)
  · exact fun d hd => hd.2
  · rintro d op ⟨ht, hd, hout⟩ hquiet
    obtain ⟨e, hrun, he, hiff⟩ := inactive_step ht hd op
    refine ⟨⟨e, hrun⟩, ?_⟩
    intro e' hstep
    obtain rfl : e = e' := Except.ok.inj (hrun.symm.trans hstep)
    exact ⟨(Step.sender_moves hstep |>.tracked ht).1, he, (hiff.mpr hquiet).trans hout⟩
  · rintro d op ⟨ht, hd, hout⟩ - hafter
    -- an operation that adds no segment was a quiet one
    obtain ⟨e, hrun, -, hiff⟩ := inactive_step ht hd op
    exact hiff.mp ((hafter e hrun).2.trans hout.symm)
  · exact ⟨tracked_of_trace h, hc, rfl⟩

/-- A reset. -/
def reset : TCPSegment :=
  { header := { rst := true } }

/-- The hypotheses are met after a reset. -/
theorem inactive_silent_iff_reset : ∃ c : TCPConnection,
    Execution.Trace Step (.new {} 0) [.segmentReceived reset] c ∧ c.isactive = false ∧
      Execution.Always Step (fun d => d.isactive = false ∧ d.segmentsOut = c.segmentsOut) c
        [.write [1, 2], .tick 5, .segmentReceived reset] := by
  have htrace : Execution.Trace Step (.new {} 0) [.segmentReceived reset] _ :=
    .cons rfl (.nil _)
  refine ⟨_, htrace, by decide, (inactive_silent_iff htrace (by decide) _).mpr ?_⟩
  exact ⟨trivial, fun _ _ => ⟨trivial, fun _ _ => ⟨trivial, fun _ _ => trivial⟩⟩⟩

/-- A fresh connection that has been reset still sends a SYN when asked to connect. -/
theorem inactive_silent_fails : ∃ c : TCPConnection,
    Execution.Trace Step (.new {} 0) [.segmentReceived reset] c ∧ c.isactive = false ∧
      ¬ Execution.Always Step (fun d => d.isactive = false ∧ d.segmentsOut = c.segmentsOut) c
        [.connect] := by
  refine ⟨_, .cons rfl (.nil _), by decide, ?_⟩
  intro h
  have hlast := (h.2.2 _ rfl).2
  revert hlast
  decide

/-! ## §2 While listening -/

/-- What happens to a listening connection as long as nobody opens it. -/
inductive Arrival where
  | tick (ms : UInt64)
  | segment (seg : TCPSegment) (nosyn : seg.header.syn = false)

def Arrival.op : Arrival → Op
  | .tick ms => .tick ms
  | .segment seg _ => .segmentReceived seg

def ArrivalStep (c : TCPConnection) (a : Arrival) (d : TCPConnection) : Prop :=
  c.Step a.op d

/-- The connection has emitted nothing, is active and in the state LISTEN. -/
structure Listening (c : TCPConnection) : Prop where
  silent : c.segmentsOut = []
  active : c.isactive = true
  state : c.state = TCPState.ofState .LISTEN

/-- The segments that a listening connection with this initial sequence number ignores. -/
def Ignorable (isn : WrappingInt32) : Arrival → Prop
  | .tick _ => True
  | .segment seg _ => seg.header.rst = false ∧ seg.lengthInSequenceSpace = 0 ∧
      ¬ (seg.header.ack = true ∧ seg.header.ackno = isn)

section Listen

variable (cfg : TCPConfig) (randomDevice : UInt32)

/-- The fresh connection at some time since the last segment. -/
def fresh (time : UInt64) : TCPConnection :=
  { TCPConnection.new cfg randomDevice with timeSinceLastSegmentReceived := time }

theorem fresh_listening (time : UInt64) : Listening (fresh cfg randomDevice time) :=
  ⟨rfl, rfl, rfl⟩

variable {cfg randomDevice} in
/-- A fresh sender takes an acknowledgement of its own initial sequence number for a reason to
    send its SYN, and ignores all others. -/
theorem acknowledged_fresh {c : TCPConnection}
    (hsender : c.sender = (TCPConnection.new cfg randomDevice).sender) (seg : TCPSegment) :
    ((seg.header.ack = true ∧ seg.header.ackno = c.sender.isn) ∧
      c.acknowledged seg = TCPSender.fillWindow { c.sender with lastWin := seg.header.win } ∧
      (c.acknowledged seg).segmentsOut ≠ []) ∨
    (¬ (seg.header.ack = true ∧ seg.header.ackno = c.sender.isn) ∧
      c.acknowledged seg = c.sender) := by
  have hzero : c.sender.nextSeqno = 0 := by rw [hsender]; rfl
  have hunacked : c.sender.lastAckno = 0 := by rw [hsender]; rfl
  by_cases hack : seg.header.ack = true ∧ seg.header.ackno = c.sender.isn
  · left
    have heq : c.acknowledged seg =
        TCPSender.fillWindow { c.sender with lastWin := seg.header.win } := by
      rw [acknowledged, if_pos hack.1, hack.2]
      exact TCPSender.ackReceived_isn hunacked
    refine ⟨hack, heq, ?_⟩
    rw [heq, TCPSender.fillWindow_of_closed]
    · simp [TCPSender.sendSegment]
    · exact hzero
  · refine .inr ⟨hack, ?_⟩
    unfold acknowledged
    split
    · rename_i hflag
      -- every other number lies past what has been sent
      have habs : 0 < unwrap seg.header.ackno c.sender.isn 0 := by
        rcases Nat.eq_zero_or_pos (unwrap seg.header.ackno c.sender.isn 0) with hown | hpos
        · have hwrap := wrap_unwrap seg.header.ackno c.sender.isn 0
          rw [hown, wrap_zero] at hwrap
          exact absurd ⟨hflag, hwrap.symm⟩ hack
        · exact hpos
      have hnone : c.sender.acceptAck seg.header.ackno seg.header.win = none := by
        rw [TCPSender.acceptAck_eq_none_iff, hunacked, hzero]
        exact habs
      rw [TCPSender.ackReceived, hnone]
    · rfl

/-- `tick` leaves a fresh connection as it is, but for the time. -/
theorem tick_fresh (time ms : UInt64) :
    (fresh cfg randomDevice time).tick ms = fresh cfg randomDevice (time + ms) := rfl

/-- The reply to a segment that is not ignored is not empty. -/
theorem reply_fresh (time : UInt64) (seg : TCPSegment) :
    let c := fresh cfg randomDevice time
    (seg.lengthInSequenceSpace = 0 ∧ ¬ (seg.header.ack = true ∧ seg.header.ackno = c.sender.isn) →
      c.reply seg = c.sender) ∧
    ((c.reply seg).segmentsOut = [] →
      seg.lengthInSequenceSpace = 0 ∧
        ¬ (seg.header.ack = true ∧ seg.header.ackno = c.sender.isn)) := by
  intro c
  have hnone : c.receiver.ackno = none := rfl
  rcases acknowledged_fresh (c := c) rfl seg with ⟨hack, -, hne⟩ | ⟨hack, hsame⟩
  · -- the SYN is on the queue, and nothing takes it off
    refine ⟨fun h => absurd hack h.2, fun hnil => ?_⟩
    rcases c.reply_cases seg with ⟨heq, -⟩ | ⟨heq, -⟩ <;> rw [heq] at hnil
    · exact absurd hnil hne
    · simp [TCPSender.sendEmptySegment] at hnil
  · rcases c.reply_cases seg with ⟨heq, hlen, -⟩ | ⟨heq, ⟨hpos, -⟩ | ⟨-, a, ha, -⟩⟩
    · rw [hsame] at heq hlen
      refine ⟨fun _ => heq, fun _ => ⟨?_, hack⟩⟩
      by_contra hpos
      exact hlen ⟨by omega, rfl⟩
    · refine ⟨fun h => absurd h.1 hpos.ne', fun hnil => ?_⟩
      rw [heq] at hnil
      simp [TCPSender.sendEmptySegment] at hnil
    · rw [hnone] at ha
      cases ha

/-- One arrival at a listening connection. -/
theorem arrival_fresh (time : UInt64) (a : Arrival) :
    ∃ d, ArrivalStep (fresh cfg randomDevice time) a d ∧
      (Ignorable (TCPConnection.new cfg randomDevice).sender.isn a →
        ∃ time', d = fresh cfg randomDevice time') ∧
      (Listening d → Ignorable (TCPConnection.new cfg randomDevice).sender.isn a) := by
  cases a with
  | tick ms =>
    exact ⟨_, rfl, fun _ => ⟨_, tick_fresh cfg randomDevice time ms⟩, fun _ => trivial⟩
  | segment seg nosyn =>
    have hactive : (fresh cfg randomDevice time).isactive = true := rfl
    have hrecv : (fresh cfg randomDevice time).receiver.segmentReceived seg =
        .ok (fresh cfg randomDevice time).receiver := by
      simp [TCPReceiver.segmentReceived, fresh, TCPConnection.new, TCPReceiver.new, nosyn]
    cases hrst : seg.header.rst with
    | true =>
      -- the reset ends the connection
      refine ⟨(fresh cfg randomDevice 0).uncleanShutdown, ?_, fun h => ?_, fun h => ?_⟩
      · simp [ArrivalStep, Step, Arrival.op, TCPConnection.apply, segmentReceived, hrst, fresh,
          TCPConnection.new]
      · rw [h.1] at hrst
        cases hrst
      · exact absurd h.active Bool.false_ne_true
    | false =>
      obtain ⟨hsame, hsilent⟩ := reply_fresh cfg randomDevice 0 seg
      refine ⟨{ fresh cfg randomDevice 0 with
          sender := (fresh cfg randomDevice 0).reply seg }.sendSegment.cleanShutdown,
        ?_, ?_, ?_⟩
      · show (fresh cfg randomDevice time).segmentReceived seg = .ok _
        unfold segmentReceived
        simp only [hactive, hrst, Bool.not_true, Bool.false_eq_true, if_false]
        rw [hrecv]
        rfl
      · rintro ⟨-, hlen, hack⟩
        rw [hsame ⟨hlen, hack⟩]
        exact ⟨0, rfl⟩
      · intro h
        have hout := h.silent
        rw [cleanShutdown_segmentsOut] at hout
        have hnil : ((fresh cfg randomDevice 0).reply seg).segmentsOut = [] :=
          List.map_eq_nil_iff.mp hout
        exact ⟨hrst, hsilent hnil⟩

/-- **What a listening connection ignores.**  A run of ticks and segments without SYN leaves a
    fresh connection silent, active and in LISTEN if and only if every segment is empty, is no
    reset, and does not acknowledge the connection's own initial sequence number. -/
theorem listen_ignores_iff (arrivals : List Arrival) :
    Execution.Always ArrivalStep Listening (.new cfg randomDevice) arrivals ↔
      ∀ a ∈ arrivals, Ignorable (TCPConnection.new cfg randomDevice).sender.isn a := by
  have hgood : ∀ (c : TCPConnection) (a : Arrival), (∃ time, c = fresh cfg randomDevice time) →
      Ignorable (TCPConnection.new cfg randomDevice).sender.isn a →
        (∃ d, ArrivalStep c a d) ∧
          ∀ d, ArrivalStep c a d → ∃ time, d = fresh cfg randomDevice time := by
    rintro c a ⟨time, rfl⟩ hign
    obtain ⟨d, hstep, hfresh, -⟩ := arrival_fresh cfg randomDevice time a
    refine ⟨⟨d, hstep⟩, fun e he => ?_⟩
    rw [← Except.ok.inj (hstep.symm.trans he)]
    exact hfresh hign
  have hnew : ∃ time, TCPConnection.new cfg randomDevice = fresh cfg randomDevice time :=
    ⟨0, rfl⟩
  rw [← Execution.along_iff_forall hgood arrivals _ hnew]
  refine Execution.always_iff_along ?_ hgood ?_ arrivals _ hnew
  · rintro c ⟨time, rfl⟩
    exact fresh_listening cfg randomDevice time
  · rintro c a ⟨time, rfl⟩ - hafter
    obtain ⟨d, hstep, -, hneed⟩ := arrival_fresh cfg randomDevice time a
    exact hneed (hafter d hstep)

end Listen

/-- A reset ends a listening connection. -/
theorem listen_ignores_fails :
    ¬ Execution.Always ArrivalStep Listening (.new {} 0) [.segment reset rfl] := by
  intro h
  have hactive := (h.2.2 _ rfl).active
  revert hactive
  decide

end TCPConnection

end Sponge
