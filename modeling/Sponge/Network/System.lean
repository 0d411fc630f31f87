import Mathlib.Logic.Function.Basic
import Sponge.Lib.Execution
import Sponge.Network.Link

/-!
# Two Connections and a Network

Two connections joined by a network that loses, duplicates and reorders segments but does not
forge any.  The network holds everything either side has ever emitted and may deliver any of it
at any time.

## Main results

- `end_to_end_integrity`: what one side reads is a prefix of what the other side wrote, and all
  of it once the stream has ended
- `acknowledgement_soundness`: nothing is acknowledged that was not received, so both sides
  agree on a clean close

Both are about runs in which each stream is shorter than half the space of sequence numbers,
so that a delayed segment cannot be taken for another one.
-/

namespace Sponge

open TCPConnection (Sound Link)

/-! ## §1 The system -/

inductive Side where
  | X | Y
  deriving DecidableEq, Repr

def Side.peer : Side → Side
  | .X => .Y
  | .Y => .X

@[simp] theorem Side.peer_peer (p : Side) : p.peer.peer = p := by
  cases p <;> rfl

theorem Side.peer_ne (p : Side) : p.peer ≠ p := by
  cases p <;> decide

theorem Side.eq_peer_of_ne {p q : Side} (h : p ≠ q) : q = p.peer := by
  cases p <;> cases q <;> simp_all [Side.peer]

/-- One side performs an operation.  A delivery is the operation `segmentReceived`. -/
structure Event where
  side : Side
  op : TCPConnection.Op
  deriving DecidableEq

abbrev System : Type :=
  Side → TCPConnection

namespace System

def new (cfg : Side → TCPConfig) (randomDevice : Side → UInt32) : System :=
  fun p => .new (cfg p) (randomDevice p)

/-- One event.  Only segments that the peer has emitted are delivered. -/
def Step (s : System) (e : Event) (t : System) : Prop :=
  (∀ seg, e.op = .segmentReceived seg → seg ∈ (s e.side.peer).segmentsOut) ∧
    ∃ c, (s e.side).Step e.op c ∧ t = Function.update s e.side c

/-- Each stream, with SYN and FIN, takes up at most half of the sequence numbers. -/
def Bounded (s : System) : Prop :=
  ∀ p, (s p).sender.stream.written.length + 2 ≤ 2 ^ 31

/-! ## §2 The invariants of the system -/

/-- Each endpoint by itself. -/
def AllSound (s : System) : Prop :=
  ∀ p, Sound (s p)

/-- Both directions. -/
def Linked (s : System) : Prop :=
  ∀ p, Link (s p) (s p.peer)

section Step

variable {s t : System} {e : Event}

theorem AllSound.step (h : AllSound s) (hstep : Step s e t) : AllSound t := by
  obtain ⟨-, c, hc, rfl⟩ := hstep
  exact (Function.forall_update_iff s fun _ c => TCPConnection.Sound c).mpr
    ⟨(h e.side).step hc, fun p _ => h p⟩

/-- Streams only grow. -/
theorem Bounded.of_step (ht : Bounded t) (h : AllSound s) (hstep : Step s e t) : Bounded s := by
  obtain ⟨-, c, hc, rfl⟩ := hstep
  intro p
  have hp := ht p
  by_cases heq : p = e.side
  · rw [heq, Function.update_self] at hp
    have hadv := (hc.sender_moves.tracked (h e.side).tracked).2
    have hlen := hadv.written.length_le
    rw [heq]
    omega
  · rwa [Function.update_of_ne heq] at hp

/-- **One event, seen from both directions.** -/
theorem Linked.step (h : Linked s) (hsound : AllSound s) (hbound : Bounded t)
    (hstep : Step s e t) : Linked t := by
  have hback := hbound.of_step hsound hstep
  obtain ⟨hnet, c, hc, rfl⟩ := hstep
  intro p
  by_cases hp : p = e.side
  · -- the sending endpoint moves
    subst hp
    have hbound' := hbound e.side
    rw [Function.update_self] at hbound' ⊢
    rw [Function.update_of_ne e.side.peer_ne]
    exact (h e.side).sender_step (hsound e.side) hbound' hc hnet
  · -- the receiving endpoint moves
    have hq := Side.eq_peer_of_ne hp
    rw [Function.update_of_ne hp, ← hq, Function.update_self]
    have hlink := h p
    rw [← hq] at hlink
    refine hlink.receiver_step (hsound p) (hsound e.side) (hback p) hc ?_
    rw [hq, Side.peer_peer] at hnet
    exact hnet

/-- A stream ends only when its owner ends it. -/
theorem ended_step {p : Side} (hsound : AllSound s) (hstep : Step s e t)
    (hended : (t p).sender.stream.inputEnded = true) :
    (s p).sender.stream.inputEnded = true ∨ e = ⟨p, .endInputStream⟩ := by
  obtain ⟨-, c, hc, rfl⟩ := hstep
  by_cases hp : p = e.side
  · subst hp
    rw [Function.update_self] at hended
    -- the sender's stream is ended by the operation of that name only
    obtain ⟨ops, hrun, -, hcauses⟩ := hc.sender_moves
    rw [hrun] at hended
    rcases (hsound e.side).tracked.inputEnded_run hended with hold | hmem
    · exact .inl hold
    · right
      have hop : e.op = .endInputStream := hcauses _ hmem
      rw [← hop]
  · rw [Function.update_of_ne hp] at hended
    exact .inl hended

end Step

section Runs

variable {cfg : Side → TCPConfig} {randomDevice : Side → UInt32} {events : List Event}
  {s : System}

theorem allSound_new (cfg : Side → TCPConfig) (randomDevice : Side → UInt32) :
    AllSound (new cfg randomDevice) :=
  fun p => Sound.new (cfg p) (randomDevice p)

theorem AllSound.of_trace (h : Execution.Trace Step (new cfg randomDevice) events s) :
    AllSound s :=
  h.invariant (fun _ _ _ hs hstep => AllSound.step hs hstep) (allSound_new cfg randomDevice)

/-- The invariant of both directions in every state of a bounded run. -/
theorem Linked.of_trace (h : Execution.Trace Step (new cfg randomDevice) events s)
    (hbound : Bounded s) : Linked s := by
  refine h.invariant_of_bound (fun _ _ _ hs hstep => AllSound.step hs hstep)
    (fun _ _ _ hs hstep ht => Bounded.of_step ht hs hstep)
    (fun _ _ _ hs hlink ht hstep => Linked.step hlink hs ht hstep) (allSound_new cfg randomDevice)
    ?_ hbound
  exact fun p => Link.new (cfg p) (cfg p.peer) (randomDevice p) (randomDevice p.peer)

/-- A stream that has ended has been ended by its owner during the run. -/
theorem ended_by_owner (h : Execution.Trace Step (new cfg randomDevice) events s) {p : Side}
    (hended : (s p).sender.stream.inputEnded = true) : ⟨p, .endInputStream⟩ ∈ events := by
  have hcause := h.exists_cause (P := fun s : System => (s p).sender.stream.inputEnded = true)
    (C := fun e => e = ⟨p, .endInputStream⟩) (fun _ _ _ hs hstep => AllSound.step hs hstep)
    (fun _ _ _ hs hstep => ended_step hs hstep) (allSound_new cfg randomDevice) hended
  rcases hcause with hstart | ⟨e, he, rfl⟩
  · cases hstart
  · exact he

/-! ## §3 A session

X opens, sends two bytes and closes; the FIN overtakes the data.  Y closes in its turn, and is
done with the last acknowledgement. -/

def sessionConfig : Side → TCPConfig
  | .X => { fixedIsn := some ⟨7⟩ }
  | .Y => { fixedIsn := some ⟨100⟩ }

def sessionSyn : TCPSegment :=
  { header := { seqno := ⟨7⟩, syn := true } }

def sessionSynAck : TCPSegment :=
  { header := { seqno := ⟨100⟩, syn := true, ack := true, ackno := ⟨8⟩, win := 64000 } }

def sessionData : TCPSegment :=
  { header := { seqno := ⟨8⟩, ack := true, ackno := ⟨101⟩, win := 64000 }, payload := [1, 2] }

def sessionFin : TCPSegment :=
  { header := { seqno := ⟨10⟩, fin := true, ack := true, ackno := ⟨101⟩, win := 64000 } }

def sessionPeerFin : TCPSegment :=
  { header := { seqno := ⟨101⟩, fin := true, ack := true, ackno := ⟨11⟩, win := 63998 } }

def sessionLastAck : TCPSegment :=
  { header := { seqno := ⟨11⟩, ack := true, ackno := ⟨102⟩, win := 64000 } }

def session : List Event :=
  [⟨.X, .connect⟩, ⟨.Y, .segmentReceived sessionSyn⟩, ⟨.X, .segmentReceived sessionSynAck⟩,
    ⟨.X, .write [1, 2]⟩, ⟨.X, .endInputStream⟩, ⟨.Y, .segmentReceived sessionFin⟩,
    ⟨.Y, .segmentReceived sessionData⟩, ⟨.Y, .endInputStream⟩,
    ⟨.X, .segmentReceived sessionPeerFin⟩, ⟨.Y, .segmentReceived sessionLastAck⟩]

/-- The session is a run, and it leaves Y inactive without an error. -/
theorem session_trace : ∃ s, Execution.Trace Step (new sessionConfig fun _ => 0) session s ∧
    Bounded s ∧ (s .X).sender.stream.written = [1, 2] ∧
    (s .Y).inboundStream.inputEnded = true ∧ (s .Y).isactive = false ∧
    (s .Y).sender.stream.error = false ∧ (s .Y).inboundStream.error = false := by
  refine ⟨_, .cons ⟨?_, _, rfl, rfl⟩ (.cons ⟨?_, _, rfl, rfl⟩ (.cons ⟨?_, _, rfl, rfl⟩
    (.cons ⟨?_, _, rfl, rfl⟩ (.cons ⟨?_, _, rfl, rfl⟩ (.cons ⟨?_, _, rfl, rfl⟩
    (.cons ⟨?_, _, rfl, rfl⟩ (.cons ⟨?_, _, rfl, rfl⟩ (.cons ⟨?_, _, rfl, rfl⟩
    (.cons ⟨?_, _, rfl, rfl⟩ (.nil _)))))))))), ?_, ?_, ?_, ?_, ?_, ?_⟩
  -- the deliveries are of segments that the network holds
  case refine_11 => intro p; cases p <;> decide
  all_goals first
    | decide
    | (intro seg hseg; cases hseg; decide)
    | (intro seg hseg; cases hseg)

/-! ## §4 Integrity -/

/-- **End-to-end integrity.**  In every state of a bounded run, the bytes that have come out at
    one side are a prefix of the bytes accepted at the other side.  If the stream has ended,
    its owner has ended it, and all bytes have come out. -/
theorem end_to_end_integrity (h : Execution.Trace Step (new cfg randomDevice) events s)
    (hbound : Bounded s) (p : Side) :
    (s p.peer).inboundStream.written <+: (s p).sender.stream.written ∧
    ((s p.peer).inboundStream.inputEnded = true →
      ⟨p, .endInputStream⟩ ∈ events ∧
        (s p.peer).inboundStream.written = (s p).sender.stream.written) := by
  have hlink := Linked.of_trace h hbound p
  refine ⟨hlink.tracks.assembled.written, ?_⟩
  intro hended
  obtain ⟨heof, hfull⟩ := hlink.tracks.assembled.ended hended
  exact ⟨ended_by_owner h (hlink.announced heof), hfull⟩

/-- At the end of the session. -/
theorem end_to_end_integrity_session : ∃ s,
    Execution.Trace Step (new sessionConfig fun _ => 0) session s ∧ Bounded s ∧
      (s .X).sender.stream.written = [1, 2] ∧ (s .Y).inboundStream.written = [1, 2] := by
  obtain ⟨s, htrace, hbound, hwritten, hended, -⟩ := session_trace
  exact ⟨s, htrace, hbound, hwritten,
    ((end_to_end_integrity htrace hbound .X).2 hended).2.trans hwritten⟩

/-! ## §5 Acknowledgements -/

/-- **Acknowledgement soundness and agreement.**  In every state of a bounded run, the highest
    acknowledgement that one side has accepted does not exceed what the other side has
    assembled.  When a side is inactive without an error, both streams are complete at their
    destinations. -/
theorem acknowledgement_soundness (h : Execution.Trace Step (new cfg randomDevice) events s)
    (hbound : Bounded s) (p : Side) :
    (s p).sender.lastAckno ≤
      (if (s p.peer).receiver.syn then 1 else 0) + (s p.peer).inboundStream.bytesWritten +
        (if (s p.peer).inboundStream.inputEnded then 1 else 0) ∧
    ((s p).isactive = false → (s p).sender.stream.error = false →
      (s p).inboundStream.error = false →
      (s p.peer).inboundStream.written = (s p).sender.stream.written ∧
      (s p.peer).inboundStream.inputEnded = true ∧
      (s p).inboundStream.written = (s p.peer).sender.stream.written ∧
      (s p).inboundStream.inputEnded = true) := by
  have hlink := Linked.of_trace h hbound p
  have hlink' := Linked.of_trace h hbound p.peer
  rw [Side.peer_peer] at hlink'
  have hsound := AllSound.of_trace h p
  refine ⟨hlink.acked, ?_⟩
  intro hinactive hout hin
  obtain hclosed : (s p).Closed := by
    rcases hsound.closed hinactive with herr | herr | hclosed
    · rw [hout] at herr; cases herr
    · have hin' : (s p).receiver.streamOut.error = false := hin
      rw [hin'] at herr; cases herr
    · exact hclosed
  -- everything up to the FIN is acknowledged, so all of it has arrived
  have hnext := hsound.tracked.segmented.nextSeqno_of_finSent hclosed.finSent
  have hacked := hlink.acked
  -- the number of the FIN is only received when the stream has ended
  have hprefix := hlink.tracks.assembled.written
  have hle := hprefix.length_le
  have hbw : (s p.peer).receiver.streamOut.bytesWritten =
      (s p.peer).receiver.reassembler.output.written.length := ByteStream.bytesWritten_eq _
  rw [hclosed.acked, hnext, ByteStream.bytesWritten_eq, TCPConnection.received, hbw] at hacked
  have hended : (s p.peer).receiver.streamOut.inputEnded = true := by
    by_contra hcon
    rw [if_neg hcon] at hacked
    split at hacked <;> omega
  refine ⟨?_, hended, (hlink'.tracks.assembled.ended hclosed.ended).2, hclosed.ended⟩
  exact (hlink.tracks.assembled.ended hended).2

/-- At the end of the session, seen from the side that is done: both streams are complete, the one
    from X with its two bytes. -/
theorem acknowledgement_soundness_session : ∃ s,
    Execution.Trace Step (new sessionConfig fun _ => 0) session s ∧ Bounded s ∧
      (s .Y).isactive = false ∧
      (s .Y).inboundStream.written = [1, 2] ∧ (s .Y).inboundStream.inputEnded = true ∧
      (s .X).inboundStream.written = (s .Y).sender.stream.written ∧
      (s .X).inboundStream.inputEnded = true := by
  obtain ⟨s, htrace, hbound, hbytes, -, hinactive, hout, hin⟩ := session_trace
  obtain ⟨hwritten, hended, harrived, hcomplete⟩ :=
    (acknowledgement_soundness htrace hbound .Y).2 hinactive hout hin
  exact ⟨s, htrace, hbound, hinactive, harrived.trans hbytes, hcomplete, hwritten, hended⟩

end Runs

end System

end Sponge
