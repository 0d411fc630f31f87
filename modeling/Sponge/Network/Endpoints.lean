import Sponge.Network.System
import Sponge.Socket.Relaying

/-!
# Two Applications, Two Sockets and a Network of Datagrams

The whole stack, from one application to the other.  Two endpoints run their event loops in any
interleaving, over any lawful adapter.  The network carries datagrams; it may lose, duplicate,
reorder and corrupt them, and add others of its own, as long as whatever passes the filter of an
adapter was written by the adapter at the other end.

* **The bridge** (`stack_refines_system`): the connections of the two endpoints go through a run
  of the segment-level system, in which segments are exchanged as they are.
* **Integrity** (`application_integrity`): what one application reads is a prefix of what the
  other one has written; when the stream ends without an error, it is all that the other thread
  has taken from its application.
-/

namespace Sponge

open Endpoint (Opening)
open Execution (Trace)

/-! ## §1 Segments, addressed or not -/

/-- A connection does not look at what the adapters fill in. -/
theorem TCPConnection.segmentReceived_unaddressed (c : TCPConnection) (seg : TCPSegment) :
    c.segmentReceived seg.unaddressed = c.segmentReceived seg := rfl

theorem TCPConnection.segmentReceived_congr (c : TCPConnection) {seg seg' : TCPSegment}
    (h : seg.unaddressed = seg'.unaddressed) : c.segmentReceived seg = c.segmentReceived seg' := by
  rw [← c.segmentReceived_unaddressed seg, h, c.segmentReceived_unaddressed]

/-- Operations of one side are events of the system, if the segments that they are given are
    among those of the peer, up to what the adapters fill in. -/
theorem System.trace_of_ops (s : System) (p : Side) {c d : TCPConnection}
    {ops : List TCPConnection.Op} (h : Trace TCPConnection.Step c ops d)
    (hnet : ∀ seg, .segmentReceived seg ∈ ops →
      ∃ sent ∈ (s p.peer).segmentsOut, seg.unaddressed = sent.unaddressed) :
    ∃ events, Trace System.Step (Function.update s p c) events (Function.update s p d) := by
  induction h with
  | nil c => exact ⟨[], .nil _⟩
  | @cons c c' d op ops hstep _ ih =>
    obtain ⟨events, hrest⟩ := ih fun seg hmem => hnet seg (List.mem_cons_of_mem _ hmem)
    -- the operation, with the segment as the peer has emitted it
    obtain ⟨op', hstep', hsent⟩ : ∃ op', c.Step op' c' ∧
        ∀ seg, op' = .segmentReceived seg → seg ∈ (s p.peer).segmentsOut := by
      by_cases hop : ∃ seg, op = .segmentReceived seg
      · obtain ⟨seg, rfl⟩ := hop
        obtain ⟨sent, hmem, hsame⟩ := hnet seg List.mem_cons_self
        refine ⟨.segmentReceived sent, ?_, by rintro _ ⟨⟩; exact hmem⟩
        exact (c.segmentReceived_congr hsame).symm.trans hstep
      · exact ⟨op, hstep, fun seg hseg => absurd ⟨seg, hseg⟩ hop⟩
    refine ⟨⟨p, op'⟩ :: events, .cons ⟨fun seg hseg => ?_, c', ?_, ?_⟩ hrest⟩
    · rw [Function.update_of_ne p.peer_ne]
      exact hsent seg hseg
    · rw [Function.update_self]
      exact hstep'
    · rw [Function.update_idem]

/-! ## §2 The network -/

/-- The two endpoints. -/
abbrev Network (α δ : Type) : Type :=
  Side → Endpoint.Running α δ

namespace Network

variable {α δ : Type} [FdAdapter α δ]

/-- An event of one endpoint. -/
structure Event (δ : Type) where
  side : Side
  event : Endpoint.Event δ

def start (openings : Side → Opening α) : Network α δ := fun p => (openings p).start

/-- One event.  Whatever passes the filter of an adapter has been written by the peer. -/
def Step (n : Network α δ) (e : Event δ) (m : Network α δ) : Prop :=
  ∃ r, (n e.side).Step e.event r ∧ m = Function.update n e.side r ∧
    ∀ d ∈ r.endpoint.passed, d ∈ (n e.side.peer).endpoint.wire

/-- The connections of the two endpoints. -/
def connections (n : Network α δ) : System := fun p => (n p).endpoint.socket.tcp

/-- What holds of both endpoints. -/
def AllRelayed (n : Network α δ) : Prop :=
  ∀ p, (n p).rules.Sublist (Endpoint.rules α δ) ∧ (n p).endpoint.Relayed

section Step

variable {n m : Network α δ} {e : Event δ}

theorem AllRelayed.step (h : AllRelayed n) (hstep : Step n e m) : AllRelayed m := by
  obtain ⟨r, hr, rfl, -⟩ := hstep
  obtain ⟨hrules, -, hrelayed⟩ := hr.relays (h e.side).1
  exact (Function.forall_update_iff n fun _ r =>
    r.rules.Sublist (Endpoint.rules α δ) ∧ Endpoint.Relayed r.endpoint).mpr
    ⟨⟨hrules, hrelayed (h e.side).2⟩, fun p _ => h p⟩

omit [FdAdapter α δ] in
theorem connections_update (n : Network α δ) (p : Side) (r : Endpoint.Running α δ) :
    connections (Function.update n p r) =
      Function.update (connections n) p r.endpoint.socket.tcp := by
  funext q
  by_cases hq : q = p
  · subst hq
    simp [connections]
  · simp [connections, hq]

/-- **One event is a run of the segment-level system.** -/
theorem AllRelayed.matched [LawfulFdAdapter α δ] (h : AllRelayed n) (hstep : Step n e m) :
    ∃ events, Trace System.Step (connections n) events (connections m) := by
  obtain ⟨r, hr, rfl, hgenuine⟩ := hstep
  obtain ⟨-, hadv, -⟩ := hr.relays (h e.side).1
  obtain ⟨ops, htrace, hfound⟩ := hadv.ops
  rw [connections_update]
  obtain ⟨events, hevents⟩ := System.trace_of_ops (connections n) e.side htrace (by
    intro seg hmem
    -- the datagram was written by the peer, of a segment that the peer has emitted
    obtain ⟨a, a', datagram, hpassed, random, hread⟩ := hfound seg hmem
    obtain ⟨b, sent, random', hsent, hwrite⟩ :=
      (h e.side.peer).2.wire datagram (hgenuine datagram hpassed)
    exact ⟨sent, hsent,
      LawfulFdAdapter.read_write ((h e.side.peer).2.sendable sent hsent) hwrite hread⟩)
  have hself : Function.update (connections n) e.side (n e.side).endpoint.socket.tcp =
      connections n := Function.update_eq_self e.side (connections n)
  rw [hself] at hevents
  exact ⟨events, hevents⟩

end Step

section Start

variable (openings : Side → Opening α)

theorem allRelayed_start : AllRelayed (start openings : Network α δ) := by
  intro p
  refine ⟨?_, (openings p).relayed_start⟩
  rw [start, (openings p).rules_start]

/-- Opening the sockets is a run of the segment-level system. -/
theorem matched_start : ∃ events,
    Trace System.Step (System.new (fun p => (openings p).config) fun p => (openings p).randomDevice)
      events (connections (start openings : Network α δ)) := by
  set s := System.new (fun p => (openings p).config) fun p => (openings p).randomDevice with hs
  set t := connections (start openings : Network α δ) with ht
  -- each side performs at most a `connect`
  have hside : ∀ p, ∃ ops, Trace TCPConnection.Step (s p) ops (t p) ∧
      ∀ seg, .segmentReceived seg ∉ ops := by
    intro p
    obtain ⟨ops, hops, htrace⟩ := (openings p).trace_start (δ := δ)
    refine ⟨ops, htrace, fun seg hmem => ?_⟩
    cases hops _ hmem
  obtain ⟨opsX, htraceX, hopsX⟩ := hside .X
  obtain ⟨opsY, htraceY, hopsY⟩ := hside .Y
  obtain ⟨eventsX, hX⟩ := System.trace_of_ops s .X htraceX
    fun seg hmem => absurd hmem (hopsX seg)
  obtain ⟨eventsY, hY⟩ := System.trace_of_ops (Function.update s .X (t .X)) .Y htraceY
    fun seg hmem => absurd hmem (hopsY seg)
  have hstart : Function.update s .X (s .X) = s := Function.update_eq_self .X s
  have hmiddle : Function.update (Function.update s .X (t .X)) .Y (s .Y) =
      Function.update s .X (t .X) := by
    funext p
    cases p <;> simp
  have hend : Function.update (Function.update s .X (t .X)) .Y (t .Y) = t := by
    funext p
    cases p <;> simp
  rw [hstart] at hX
  rw [hmiddle, hend] at hY
  exact ⟨eventsX ++ eventsY, hX.append hY⟩

end Start

/-! ## §3 The bridge -/

variable {openings : Side → Opening α} {events : List (Event δ)} {n : Network α δ}

/-- The invariant, and the run of the segment-level system. -/
theorem matched_of_trace [LawfulFdAdapter α δ] (h : Trace Step (start openings) events n) :
    AllRelayed n ∧ ∃ events', Trace System.Step
      (System.new (fun p => (openings p).config) fun p => (openings p).randomDevice) events'
      (connections n) := by
  obtain ⟨hrelayed, later, hlater⟩ := h.simulates connections
    (fun _ _ _ hn hstep => ⟨hn.step hstep, hn.matched hstep⟩) (allRelayed_start openings)
  obtain ⟨first, hfirst⟩ := matched_start (δ := δ) openings
  exact ⟨hrelayed, first ++ later, hfirst.append hlater⟩

/-! ## §4 A session

X connects to Y over a TUN device, sends two bytes and closes; the FIN overtakes the data.  The
datagrams are given as they are on the wire. -/

/-- Perform an event, if it is possible and the network does not forge. -/
def perform [DecidableEq δ] (n : Network α δ) (e : Event δ) : Option (Network α δ) :=
  match (n e.side).perform e.event with
  | none => none
  | some r =>
    if ∀ d ∈ r.endpoint.passed, d ∈ (n e.side.peer).endpoint.wire then
      some (Function.update n e.side r)
    else none

omit [FdAdapter α δ] in
theorem step_of_perform [DecidableEq δ] {n m : Network α δ} {e : Event δ}
    (h : n.perform e = some m) : Step n e m := by
  unfold perform at h
  split at h
  · cases h
  · rename_i r hr
    split at h
    · rename_i hgenuine
      cases h
      exact ⟨r, Endpoint.Running.step_of_perform hr, rfl, hgenuine⟩
    · cases h

def sessionOpenings : Side → Opening TCPOverIPv4OverTunFdAdapter
  | .X =>
    { config := { fixedIsn := some ⟨7⟩ }, connects := true
      adapter := { source := ⟨1, 1000⟩, destination := ⟨2, 80⟩ } }
  | .Y =>
    { config := { fixedIsn := some ⟨100⟩ }, connects := false
      adapter := { source := ⟨0, 80⟩, listening := true } }

/-- A pass in which one rule is ready. -/
def pass (side : Side) (rule : ℕ) (datagram : Bytes := [0]) (amount : ℕ := 0) : Event Bytes :=
  ⟨side, .waitNextEvent (.reported (fun i => { event := i == rule }) fun _ => { datagram, amount })⟩

def sessionSyn : Bytes :=
  [69, 0, 0, 40, 0, 0, 64, 0, 128, 6, 250, 205, 0, 0, 0, 1, 0, 0, 0, 2,
    3, 232, 0, 80, 0, 0, 0, 7, 0, 0, 0, 0, 80, 2, 0, 0, 171, 161, 0, 0]

def sessionSynAck : Bytes :=
  [69, 0, 0, 40, 0, 0, 64, 0, 128, 6, 250, 205, 0, 0, 0, 2, 0, 0, 0, 1,
    0, 80, 3, 232, 0, 0, 0, 100, 0, 0, 0, 8, 80, 18, 250, 0, 177, 43, 0, 0]

def sessionData : Bytes :=
  [69, 0, 0, 42, 0, 0, 64, 0, 128, 6, 250, 203, 0, 0, 0, 1, 0, 0, 0, 2,
    3, 232, 0, 80, 0, 0, 0, 8, 0, 0, 0, 101, 80, 16, 250, 0, 134, 255, 0, 0, 42, 43]

def sessionFin : Bytes :=
  [69, 0, 0, 40, 0, 0, 64, 0, 128, 6, 250, 205, 0, 0, 0, 1, 0, 0, 0, 2,
    3, 232, 0, 80, 0, 0, 0, 10, 0, 0, 0, 101, 80, 17, 250, 0, 177, 41, 0, 0]

def session : List (Event Bytes) :=
  [pass .X 3, pass .Y 0 [1, 2, 3], pass .Y 0 sessionSyn, pass .Y 3, pass .X 0 sessionSynAck,
    ⟨.X, .write [42, 43]⟩, ⟨.X, .shutdown⟩, pass .X 1 [0] 5, pass .X 1, pass .X 2,
    pass .Y 0 sessionFin, pass .Y 0 sessionData, pass .Y 2 [0] 5]

/-- The session is a run, and it ends with everything handed over. -/
theorem session_trace : ∃ n : Network TCPOverIPv4OverTunFdAdapter Bytes,
    Trace Step (start sessionOpenings) session n ∧ (n .X).endpoint.outbox = [42, 43] ∧
      (n .Y).endpoint.outbox = [] ∧ (n .Y).endpoint.socket.inboundShutdown = true ∧
      (n .Y).endpoint.socket.tcp.inboundStream.error = false ∧
      (n .X).endpoint.socket.threadData.eof = true := by
  have hrun : ((session.foldlM perform (start sessionOpenings)).map fun n =>
      ((n .X).endpoint.outbox, (n .Y).endpoint.outbox, (n .Y).endpoint.socket.inboundShutdown,
        (n .Y).endpoint.socket.tcp.inboundStream.error,
        (n .X).endpoint.socket.threadData.eof)) = some ([42, 43], [], true, false, true) := by
    decide +kernel
  obtain ⟨n, hn, hend⟩ := Option.map_eq_some_iff.mp hrun
  simp only [Prod.mk.injEq] at hend
  exact ⟨n, Trace.of_foldlM (fun _ _ _ => step_of_perform) hn, hend⟩

/-! ## §5 The results -/

/-- **The stack refines the segment-level system.**  Whatever the two endpoints do, their
    connections are in a state that two connections reach which exchange segments directly. -/
theorem stack_refines_system [LawfulFdAdapter α δ] (h : Trace Step (start openings) events n) :
    ∃ events', Trace System.Step
      (System.new (fun p => (openings p).config) fun p => (openings p).randomDevice) events'
      (connections n) :=
  (matched_of_trace h).2

/-- The session, as a run of the segment-level system. -/
theorem stack_refines_system_session : ∃ n : Network TCPOverIPv4OverTunFdAdapter Bytes,
    Trace Step (start sessionOpenings) session n ∧ ∃ events', Trace System.Step
      (System.new (fun p => (sessionOpenings p).config) fun p => (sessionOpenings p).randomDevice)
      events' (connections n) := by
  obtain ⟨n, htrace, -⟩ := session_trace
  exact ⟨n, htrace, stack_refines_system htrace⟩

/-- What an application has written, with SYN and FIN, takes up at most half of the sequence
    numbers. -/
def Bounded (n : Network α δ) : Prop :=
  ∀ p, (n p).endpoint.outbox.length + 2 ≤ 2 ^ 31

/-- What the threads have taken is bounded by what the applications have written. -/
theorem Bounded.of_relayed (h : Bounded n) (hrelayed : AllRelayed n) :
    System.Bounded (connections n) := by
  intro p
  have hp := h p
  have hout : (connections n p).sender.stream.written = _ := (hrelayed p).2.outbound
  rw [hout, List.length_take]
  omega

/-- What has been handed to an application has been taken from the other one. -/
theorem inbox_of_trace [LawfulFdAdapter α δ] (h : Trace Step (start openings) events n)
    (hbound : Bounded n) (p : Side) :
    (n p.peer).endpoint.inbox <+: (n p).endpoint.outbox := by
  obtain ⟨hrelayed, events', htrace⟩ := matched_of_trace h
  have hlink := System.Linked.of_trace htrace (hbound.of_relayed hrelayed) p
  have hwritten := hlink.tracks.assembled.written
  rw [show (connections n p).sender.stream.written = _ from (hrelayed p).2.outbound] at hwritten
  have hread : (n p.peer).endpoint.inbox <+:
      (connections n p.peer).receiver.reassembler.output.written := by
    rw [(hrelayed p.peer).2.inbound]
    exact List.take_prefix _ _
  exact (hread.trans hwritten).trans (List.take_prefix _ _)

/-- A stream that is over for its reader, and not by an error, is complete. -/
theorem inbox_of_shutdown [LawfulFdAdapter α δ] (h : Trace Step (start openings) events n)
    (hbound : Bounded n) (p : Side)
    (hshutdown : (n p.peer).endpoint.socket.inboundShutdown = true)
    (herror : (n p.peer).endpoint.socket.tcp.inboundStream.error = false) :
    (n p).endpoint.socket.outboundShutdown = true ∧
      (n p.peer).endpoint.inbox = (n p).endpoint.outbox.take (n p).endpoint.taken := by
  obtain ⟨hrelayed, events', htrace⟩ := matched_of_trace h
  have hlink := System.Linked.of_trace htrace (hbound.of_relayed hrelayed) p
  have hp := (hrelayed p).2
  have hq := (hrelayed p.peer).2
  obtain ⟨hended, hempty⟩ : (connections n p.peer).receiver.streamOut.inputEnded = true ∧
      (connections n p.peer).receiver.streamOut.buff = [] := by
    rcases hq.done hshutdown with heof | herr
    · exact (ByteStream.eof_iff _).mp heof
    · have hnone : (n p.peer).endpoint.socket.tcp.receiver.streamOut.error = false := herror
      rw [hnone] at herr
      cases herr
  obtain ⟨hannounced, hfull⟩ := hlink.tracks.assembled.ended hended
  refine ⟨hp.settled.shutdown (hlink.announced hannounced), ?_⟩
  rw [hq.inbound, ← hp.outbound]
  refine Eq.trans (List.take_of_length_le ?_) hfull
  -- nothing is left in the buffer
  have hcount := ByteStream.bytesWritten_eq_add (connections n p.peer).receiver.streamOut
  rw [hempty, ByteStream.bytesWritten_eq] at hcount
  exact hcount.le

/-- **Application to application.**  What has been handed to one application is a prefix of what
    the other one has written.  If one application sees the end of the stream without an error,
    then the thread at the other end has ended its stream, and all that it took from its
    application has been handed over; and if it had reached the end of what its application
    writes, this is everything. -/
theorem application_integrity [LawfulFdAdapter α δ] (h : Trace Step (start openings) events n)
    (hbound : Bounded n) (p : Side) :
    (n p.peer).endpoint.inbox <+: (n p).endpoint.outbox ∧
    ((n p.peer).endpoint.socket.inboundShutdown = true →
      (n p.peer).endpoint.socket.tcp.inboundStream.error = false →
      (n p).endpoint.socket.outboundShutdown = true ∧
      (n p.peer).endpoint.inbox = (n p).endpoint.outbox.take (n p).endpoint.taken ∧
      ((n p).endpoint.socket.threadData.eof = true →
        (n p).endpoint.outboxClosed = true ∧
          (n p.peer).endpoint.inbox = (n p).endpoint.outbox)) := by
  refine ⟨inbox_of_trace h hbound p, fun hshutdown herror => ?_⟩
  obtain ⟨hended, hinbox⟩ := inbox_of_shutdown h hbound p hshutdown herror
  refine ⟨hended, hinbox, fun heof => ?_⟩
  obtain ⟨hclosed, htaken⟩ := ((matched_of_trace h).1 p).2.atEof heof
  rw [htaken, List.take_length] at hinbox
  exact ⟨hclosed, hinbox⟩

/-- At the end of the session. -/
theorem application_integrity_session : ∃ n : Network TCPOverIPv4OverTunFdAdapter Bytes,
    Trace Step (start sessionOpenings) session n ∧ Bounded n ∧
      (n .Y).endpoint.inbox = (n .X).endpoint.outbox := by
  obtain ⟨n, htrace, hX, hY, hshutdown, herror, heof⟩ := session_trace
  have hbound : Bounded n := by
    intro p
    cases p
    · rw [hX]
      decide
    · rw [hY]
      decide
  exact ⟨n, htrace, hbound,
    (((application_integrity htrace hbound .X).2 hshutdown herror).2.2 heof).2⟩

end Network

end Sponge
