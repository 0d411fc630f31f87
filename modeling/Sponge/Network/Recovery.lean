import Sponge.Connection.Recovery
import Sponge.Connection.Streams
import Sponge.Network.Supply

/-!
# Recovery from Loss

The network has lost everything that was in flight.  Then the two connections can still deliver
both streams and close without an error, by retransmission alone: of the segments emitted so far
none has to be delivered.  This holds in every reachable state in which both sides are active and
have a retransmission left, as long as the sequence numbers do not wrap round.

- `StepSince s`: the events after the network has lost what it held in the state `s`
- `Reached cfg s`: the invariants of all reachable states
- `Underway cfg s t`: what holds on the way from `s` on
- `Underway.deliver`: one delivery, seen from both sides
- `Ready.round`: a retransmission, its answer, and what the answer makes necessary
- `recovers_from_loss`: the way to the end
-/

namespace Sponge

open Execution (Trace exists_trace_of_decreasing)
open TCPConnection (Sound Link Supplied Recoverable Gentle Retransmits Done appended received)
open TCPSender (Tracked)

namespace System

/-! ## §1 Events after a loss -/

/-- One event after the network has lost all that had been emitted in the state `s`. -/
def StepSince (s t : System) (e : Event) (u : System) : Prop :=
  (∀ seg, e.op = .segmentReceived seg → seg ∈ appended (s e.side.peer) (t e.side.peer)) ∧
    ∃ c, (t e.side).Step e.op c ∧ u = Function.update t e.side c

/-- No number of either stream, from the SYN to the one after the FIN, wraps round. -/
def Unwrapped (s : System) : Prop :=
  ∀ p, (s p).sender.isn.rawValue.toNat + (s p).sender.stream.written.length + 2 < 2 ^ 32

section Invariants

variable {cfg : Side → TCPConfig} {randomDevice : Side → UInt32} {events : List Event}
  {s t u : System} {e : Event}

theorem StepSince.step (h : StepSince s t e u) : Step t e u :=
  ⟨fun seg hop => List.mem_of_mem_drop (h.1 seg hop), h.2⟩

theorem Unwrapped.of_step (ht : Unwrapped t) (h : AllSound s) (hstep : Step s e t) :
    Unwrapped s := by
  obtain ⟨-, c, hc, rfl⟩ := hstep
  intro p
  have hp := ht p
  by_cases heq : p = e.side
  · rw [heq, Function.update_self] at hp
    have hadv := (hc.sender_moves.tracked (h e.side).tracked).2
    have hlen := hadv.written.length_le
    rw [hadv.isn] at hp
    rw [heq]
    omega
  · rwa [Function.update_of_ne heq] at hp

/-- What holds of both sides and both directions in every state that can be reached. -/
structure Reached (cfg : Side → TCPConfig) (s : System) : Prop where
  sound : AllSound s
  linked : Linked s
  supplied : ∀ p, Supplied (s p) (s p.peer)
  recoverable : ∀ p, Recoverable (cfg p) (s p)

theorem supplied_step (h : ∀ p, Supplied (s p) (s p.peer)) (hsound : AllSound s)
    (hlinked : Linked t) (hbound : Bounded s) (hstep : Step s e t) :
    ∀ p, Supplied (t p) (t p.peer) := by
  obtain ⟨hnet, c, hc, rfl⟩ := hstep
  intro p
  have hlink := hlinked p
  by_cases hp : p = e.side
  · -- the sending endpoint moves
    subst hp
    rw [Function.update_self, Function.update_of_ne e.side.peer_ne] at hlink ⊢
    exact (h e.side).sender_step (hsound e.side) hlink hc
  · have hq := Side.eq_peer_of_ne hp
    rw [Function.update_of_ne hp, ← hq, Function.update_self]
    have hsupplied := h p
    rw [← hq] at hsupplied
    refine hsupplied.receiver_step (hsound p) (hsound e.side) (hbound p) hc ?_
    rw [hq, Side.peer_peer] at hnet
    exact hnet

theorem recoverable_step (h : ∀ p, Recoverable (cfg p) (s p)) (hraw : Unwrapped t)
    (hstep : Step s e t) : ∀ p, Recoverable (cfg p) (t p) := by
  obtain ⟨-, c, hc, rfl⟩ := hstep
  intro p
  by_cases hp : p = e.side
  · have hside := hraw e.side
    rw [hp, Function.update_self]
    rw [Function.update_self] at hside
    refine (h e.side).step hc ?_
    have hle := (hc.sender_moves.tracked (h e.side).regular.tracked).1.segmented.nextSeqno_le
    unfold TCPSender.Unwrapped
    omega
  · rw [Function.update_of_ne hp]
    exact h p

theorem Reached.step (h : Reached cfg s) (hstep : Step s e t) (hbound : Bounded t)
    (hraw : Unwrapped t) : Reached cfg t := by
  have hlinked := h.linked.step h.sound hbound hstep
  exact ⟨h.sound.step hstep, hlinked,
    supplied_step h.supplied h.sound hlinked (hbound.of_step h.sound hstep) hstep,
    recoverable_step h.recoverable hraw hstep⟩

theorem Reached.of_trace (h : Trace Step (new cfg randomDevice) events s) (hbound : Bounded s)
    (hraw : Unwrapped s) : Reached cfg s := by
  refine h.invariant_of_bound (J := AllSound) (B := fun s => Bounded s ∧ Unwrapped s)
    (fun _ _ _ hs hstep => AllSound.step hs hstep)
    (fun _ _ _ hs hstep ht => ⟨ht.1.of_step hs hstep, ht.2.of_step hs hstep⟩)
    (fun _ _ _ _ hr ht hstep => Reached.step hr hstep ht.1 ht.2) (allSound_new cfg randomDevice)
    ?_ ⟨hbound, hraw⟩
  refine ⟨allSound_new cfg randomDevice, ?_, ?_, fun p => Recoverable.new (cfg p) _⟩
  · exact fun p => Link.new (cfg p) (cfg p.peer) (randomDevice p) (randomDevice p.peer)
  · exact fun p => Supplied.new (cfg p) (cfg p.peer) (randomDevice p) (randomDevice p.peer)

end Invariants

/-! ## §2 On the way -/

/-- Everything including the FIN has been sent and acknowledged. -/
def Complete (s : TCPSender) : Prop :=
  s.lastAckno = s.stream.written.length + 2

/-- From `s` to `t` nothing has been written and nothing has gone wrong. -/
structure Afloat (cfg : Side → TCPConfig) (s t : System) : Prop where
  bounded : Bounded s
  unwrapped : Unwrapped s
  reached : Reached cfg t
  isn : ∀ p, (t p).sender.isn = (s p).sender.isn
  written : ∀ p, (t p).sender.stream.written = (s p).sender.stream.written
  emitted : ∀ p, (s p).segmentsOut <+: (t p).segmentsOut
  healthy : ∀ p, (t p).sender.stream.error = false ∧ (t p).inboundStream.error = false

/-- On the way from `s` to the end of both streams: the owners have nothing more to write. -/
structure Underway (cfg : Side → TCPConfig) (s t : System) : Prop extends Afloat cfg s t where
  ended : ∀ p, (t p).sender.stream.inputEnded = true

section Underway

variable {cfg : Side → TCPConfig} {s t u : System} {p q : Side} {op : TCPConnection.Op}
  {c : TCPConnection} {seg : TCPSegment}

/-- **One side acts**, and the other one does not move. -/
theorem Afloat.act (h : Afloat cfg s t) (hc : (t p).Step op c) (hop : Gentle (t p) op)
    (hnet : ∀ seg, op = .segmentReceived seg → seg ∈ appended (s p.peer) (t p.peer)) :
    ∃ u, StepSince s t ⟨p, op⟩ u ∧ Afloat cfg s u ∧ u p = c ∧ u p.peer = t p.peer := by
  have hside := h.reached.recoverable p
  have ht := hside.regular.tracked
  have hadv := (hc.sender_moves.tracked ht).2
  have hwritten := hc.outbound ht fun data hdata => by rw [hdata] at hop; exact hop
  obtain ⟨hout, hin⟩ := hc.errors hside.regular hop
  obtain ⟨new, hnew, -⟩ := hc.emits ht
  have hstep : StepSince s t ⟨p, op⟩ (Function.update t p c) := ⟨hnet, c, hc, rfl⟩
  have hisn : ∀ q, (Function.update t p c q).sender.isn = (s q).sender.isn :=
    (Function.forall_update_iff t fun q d => d.sender.isn = (s q).sender.isn).mpr
      ⟨hadv.isn.trans (h.isn p), fun q _ => h.isn q⟩
  have hsame : ∀ q, (Function.update t p c q).sender.stream.written =
      (s q).sender.stream.written :=
    (Function.forall_update_iff t fun q d =>
      d.sender.stream.written = (s q).sender.stream.written).mpr
      ⟨hwritten.trans (h.written p), fun q _ => h.written q⟩
  refine ⟨_, hstep, ⟨h.bounded, h.unwrapped, ?_, hisn, hsame, ?_, ?_⟩,
    Function.update_self .., Function.update_of_ne p.peer_ne ..⟩
  · refine h.reached.step hstep.step (fun q => ?_) fun q => ?_
    · rw [hsame q]
      exact h.bounded q
    · rw [hsame q, hisn q]
      exact h.unwrapped q
  · refine (Function.forall_update_iff t fun q d => (s q).segmentsOut <+: d.segmentsOut).mpr
      ⟨?_, fun q _ => h.emitted q⟩
    rw [hnew]
    exact (h.emitted p).trans (List.prefix_append _ _)
  · exact (Function.forall_update_iff t fun _ d =>
      d.sender.stream.error = false ∧ d.inboundStream.error = false).mpr
      ⟨⟨hout.trans (h.healthy p).1, hin.trans (h.healthy p).2⟩, fun q _ => h.healthy q⟩

/-- What holds of a side and of its peer holds of both. -/
theorem forall_sides {P : Side → Prop} (hpq : q.peer = p) (hp : P p) (hq : P q) :
    ∀ side, P side := by
  intro side
  by_cases heq : side = q
  · rw [heq]
    exact hq
  · rw [← Side.peer_peer side, ← Side.eq_peer_of_ne heq, hpq]
    exact hp

theorem Underway.act (h : Underway cfg s t) (hc : (t p).Step op c) (hop : Gentle (t p) op)
    (hnet : ∀ seg, op = .segmentReceived seg → seg ∈ appended (s p.peer) (t p.peer)) :
    ∃ u, StepSince s t ⟨p, op⟩ u ∧ Underway cfg s u ∧ u p = c ∧ u p.peer = t p.peer := by
  obtain ⟨u, hstep, hu, hself, hother⟩ := h.toAfloat.act hc hop hnet
  have hadv := (hc.sender_moves.tracked (h.reached.sound p).tracked).2
  refine ⟨u, hstep, ⟨hu, forall_sides (Side.peer_peer p) ?_ ?_⟩, hself, hother⟩
  · rw [hself]
    exact hadv.inputEnded (h.ended p)
  · rw [hother]
    exact h.ended p.peer

/-- The numbers of a stream are small. -/
theorem Underway.full_le (h : Underway cfg s t) (p : Side) :
    (t p).sender.stream.written.length + 2 ≤ 2 ^ 31 := by
  rw [h.written p]
  exact h.bounded p

/-- What has been emitted on the way is not lost. -/
theorem Underway.mem_appended (h : Underway cfg s t) {d : TCPConnection}
    (hemits : (t p).segmentsOut <+: d.segmentsOut) (hseg : seg ∈ appended (t p) d) :
    seg ∈ appended (s p) d := by
  obtain ⟨old, hold⟩ := h.emitted p
  obtain ⟨new, hnew⟩ := hemits
  rw [TCPConnection.appended_eq hnew.symm] at hseg
  rw [appended, ← hnew, ← hold, List.append_assoc, List.drop_left]
  exact List.mem_append_right _ hseg

/-- A side that is inactive has closed without an error. -/
theorem Underway.closed (h : Underway cfg s t) (hp : (t p).isactive = false) : (t p).Closed := by
  obtain ⟨hout, hin⟩ := h.healthy p
  rcases (h.reached.sound p).closed hp with herror | herror | hclosed
  · rw [hout] at herror
    cases herror
  · rw [show (t p).receiver.streamOut.error = false from hin] at herror
    cases herror
  · exact hclosed

theorem Underway.complete_of_inactive (h : Underway cfg s t) (hp : (t p).isactive = false) :
    Complete (t p).sender := by
  have hclosed := h.closed hp
  have hnext := (h.reached.sound p).tracked.segmented.nextSeqno_of_finSent hclosed.finSent
  rw [Complete, hclosed.acked, hnext, ByteStream.bytesWritten_eq]

/-- An inactive side has received everything. -/
theorem Underway.received_of_inactive (h : Underway cfg s t) (hp : (t p.peer).isactive = false) :
    received (t p.peer) = (t p).sender.stream.written.length + 2 :=
  (h.reached.linked p).tracks.received_of_ended (h.closed hp).syn (h.closed hp).ended

/-- The acknowledgements of one side are between what it has accepted and what it has sent. -/
theorem Underway.received_between (h : Underway cfg s t) (p : Side) :
    (t p).sender.lastAckno ≤ received (t p.peer) ∧
      received (t p.peer) ≤ (t p).sender.nextSeqno ∧
      (t p).sender.nextSeqno ≤ (t p).sender.stream.written.length + 2 :=
  ⟨(h.reached.linked p).acked, (h.reached.supplied p).received_le (h.reached.sound p).tracked,
    (h.reached.sound p).tracked.segmented.nextSeqno_le⟩

theorem Underway.begun (h : Underway cfg s t) (p : Side) : 0 < (t p).sender.nextSeqno :=
  (h.reached.recoverable p).orderly.begun (h.ended p)

/-- **What is not complete has something in flight.** -/
theorem Underway.in_flight (h : Underway cfg s t) (hp : ¬ Complete (t p).sender) :
    (t p).sender.lastAckno < (t p).sender.nextSeqno := by
  have ht := (h.reached.sound p).tracked
  have hbegun := h.begun p
  by_contra hge
  have hack := ht.ack_le
  rcases (h.reached.recoverable p).settled (by omega) with hfull | ⟨-, hfin⟩
  · -- a window is never full with nothing in it
    have := TCPSender.le_bytesInFlight_of_remainingWin hfull
    unfold TCPSender.bytesInFlight at this
    omega
  · have hnext := hfin (h.ended p)
    have hle := ht.segmented.nextSeqno_le
    rw [ByteStream.bytesWritten_eq] at hnext
    exact hp (by unfold Complete; omega)

/-! ## §3 Deliveries -/

/-- The segment acknowledges all that `c` has received. -/
structure Current (isn : WrappingInt32) (c : TCPConnection) (seg : TCPSegment) : Prop where
  rst : seg.header.rst = false
  ack : seg.header.ack = true
  ackno : seg.header.ackno = wrap (received c) isn

/-- The number that a receiver acknowledges. -/
theorem Reached.ackno_eq (h : Reached cfg t) {a : WrappingInt32}
    (ha : (t p.peer).receiver.ackno = some a) :
    a = wrap (received (t p.peer)) (t p).sender.isn := by
  have hvalue := (h.linked p).tracks.delivers.ackno a ha
  have hsyn := (TCPConnection.absAckno_of_ackno ha).1
  rw [hvalue, received, hsyn]
  rfl

theorem ackno_of_syn {r : TCPReceiver} (h : r.syn = true) : ∃ a, r.ackno = some a :=
  ⟨_, by rw [TCPReceiver.ackno, h]; rfl⟩

/-- A segment of the peer is taken by the receiver. -/
theorem Underway.exists_received (h : Underway cfg s t) (hseg : seg ∈ (t p).segmentsOut) :
    ∃ r, (t p.peer).receiver.segmentReceived seg = .ok r := by
  obtain ⟨⟨v, n, hgenuine⟩, hflags, -⟩ := (h.reached.sound p).genuine hseg
  have htracks := (h.reached.linked p).tracks
  have hfits := hgenuine.fits
  have hfull := h.full_le p
  have hfu := TCPReceiver.firstUnassembled_le htracks
  obtain ⟨r, hr, -⟩ := htracks.segmentReceived (by omega) hgenuine (by omega) (by omega)
    (fun _ _ hsyn hfin => by rw [hflags hsyn] at hfin; cases hfin)
  exact ⟨r, hr⟩

/-- What the delivery of `seg` from the side `p` to the side `q` does. -/
structure Delivered (s t : System) (p q : Side) (seg : TCPSegment) (u : System) : Prop where
  other : u p = t p
  receiver : (t q).receiver.segmentReceived seg = .ok (u q).receiver
  advances : (t q).sender.lastAckno ≤ (u q).sender.lastAckno
  count : (u q).sender.retransmissionCount =
    if (t q).sender.lastAckno < (u q).sender.lastAckno then 0
    else (t q).sender.retransmissionCount
  acked : Current (t q).sender.isn (t p) seg → (u q).sender.lastAckno = received (t p)
  answer : 0 < seg.lengthInSequenceSpace → (u q).receiver.syn = true →
    ∃ out ∈ appended (s q) (u q), Current (u p).sender.isn (u q) out

/-- **A delivery**, seen from both sides. -/
theorem Underway.deliver (h : Underway cfg s t) (hpq : q.peer = p) (hq : (t q).isactive = true)
    (hseg : seg ∈ appended (s p) (t p)) (hrst : seg.header.rst = false) :
    ∃ u, StepSince s t ⟨q, .segmentReceived seg⟩ u ∧ Underway cfg s u ∧
      Delivered s t p q seg u := by
  subst hpq
  have hside := h.reached.recoverable q
  have ht := hside.regular.tracked
  obtain ⟨r, hr⟩ : ∃ r, (t q).receiver.segmentReceived seg = .ok r := by
    have := h.exists_received (List.mem_of_mem_drop hseg)
    rwa [Side.peer_peer] at this
  obtain ⟨c, hc, hreceiver, hsender, hanswer⟩ :=
    TCPConnection.answers hside.regular hq (h.begun q) hrst hr
  obtain ⟨u, hstep, hu, hself, hother⟩ := h.act hc hrst fun seg' hop => by cases hop; exact hseg
  have hadv := (hc.sender_moves.tracked ht).2
  refine ⟨u, hstep, hu, ⟨hother, ?_, ?_, ?_, ?_, ?_⟩⟩
  · rw [hself, hreceiver]
    exact hr
  · rw [hself]
    exact hadv.lastAckno
  · rw [hself]
    exact hc.retransmissionCount hside.regular rfl
  · intro hcurrent
    obtain ⟨hlow, hhigh, hnear⟩ := h.received_between q
    have hfull := h.full_le q
    rw [hself, hsender]
    exact TCPConnection.lastAckno_of_acknowledged ht hcurrent.ack hcurrent.ackno hlow hhigh
      (by omega)
  · intro hcontent hsyn
    rw [hself, hreceiver] at hsyn
    obtain ⟨a, ha⟩ := ackno_of_syn hsyn
    obtain ⟨out, hmem, hfree, hack, hackno⟩ := hanswer hcontent a ha
    obtain ⟨new, hnew, -⟩ := hc.emits ht
    refine ⟨out, ?_, hfree, hack, ?_⟩
    · rw [hself]
      exact h.mem_appended ⟨new, hnew.symm⟩ hmem
    · have hvalue := hu.reached.ackno_eq (p := q.peer) (a := a)
      rw [Side.peer_peer] at hvalue
      rw [hackno]
      exact hvalue (by rw [hself, hreceiver]; exact ha)

/-! ## §4 A round -/

/-- Both receivers can take at least one byte, and no `size_t` overflows. -/
def Roomy (cfg : Side → TCPConfig) : Prop :=
  ∀ p, 0 < (cfg p).recvCapacity.toNat ∧ (cfg p).recvCapacity.toNat + 2 ^ 31 ≤ 2 ^ 64

/-- A receiver has room when its owner has read everything. -/
theorem roomy_readInbound {capacity : UInt64} (hsized : TCPConnection.Sized capacity c.receiver)
    (hpos : 0 < capacity.toNat)
    (hfits : c.receiver.reassembler.firstUnassembled + capacity.toNat < 2 ^ 64) :
    (c.readInbound c.inboundStream.bufferSize).receiver.Roomy := by
  have hbuff : (c.receiver.streamOut.popOutput c.inboundStream.bufferSize).buff = [] := by
    simp [TCPConnection.inboundStream, ByteStream.bufferSize]
  have hcapacity : c.receiver.streamOut.capacity.toNat = capacity.toNat := by rw [hsized.1]
  have hread : (c.receiver.streamOut.popOutput c.inboundStream.bufferSize).bytesRead =
      c.receiver.reassembler.firstUnassembled := by
    have := (c.receiver.streamOut.popOutput c.inboundStream.bufferSize).bytesWritten_eq_add
    rw [hbuff] at this
    exact this.symm
  constructor
  · show c.receiver.reassembler.firstUnassembled <
      sizeT ((c.receiver.streamOut.popOutput c.inboundStream.bufferSize).bytesRead +
        c.receiver.reassembler.capacity.toNat)
    rw [hread, hsized.2, sizeT, Nat.mod_eq_of_lt hfits]
    omega
  · show 0 < c.receiver.streamOut.capacity.toNat -
      (c.receiver.streamOut.popOutput c.inboundStream.bufferSize).buff.length
    rw [hbuff, hcapacity]
    exact hpos

/-- Before a round: every side has a retransmission left, and a side that has closed leaves
    nothing undone at the other one. -/
structure Ready (cfg : Side → TCPConfig) (s t : System) : Prop extends Underway cfg s t where
  spare : ∀ p, (t p).sender.retransmissionCount < TCPConfig.maxRetxAttempts
  bridged : ∀ p, (t p).isactive = false → Complete (t p.peer).sender

/-- The side `p` has sent the missing segment again, and the side `q` is ready to take it. -/
structure Resent (s t : System) (p q : Side) (b : ℕ) (seg : TCPSegment) (u : System) : Prop where
  resent : Retransmits (t p) (u p) b seg
  fresh : seg ∈ appended (s p) (u p)
  receiving : (u q).isactive = true
  roomy : (u q).receiver.Roomy
  sender : (u q).sender = (t q).sender
  current : (u p).receiver.syn = true → Current (u q).sender.isn (u p) seg

/-- **The first half of a round.**  The owner of one side reads, and the other side retransmits. -/
theorem Ready.resend (h : Ready cfg s t) (hroom : Roomy cfg) (hpq : q.peer = p)
    (hp : ¬ Complete (t p).sender) : ∃ events u b seg, Trace (StepSince s) t events u ∧
      Underway cfg s u ∧ Resent s t p q b seg u := by
  -- both sides are active, or the direction would be complete
  have hactive : (t p).isactive = true := by
    by_contra hinactive
    exact hp (h.complete_of_inactive (by simpa using hinactive))
  have hqactive : (t q).isactive = true := by
    by_contra hinactive
    have := h.bridged q (by simpa using hinactive)
    rw [hpq] at this
    exact hp this
  subst hpq
  obtain ⟨hpos, hcapacity⟩ := hroom q
  have hread : (t q).Step (.readInbound (t q).inboundStream.bufferSize) _ := rfl
  obtain ⟨t₁, hstep₁, h₁, hself₁, hother₁⟩ := h.act hread trivial nofun
  -- the other side sends the front of its queue
  have hside := h₁.reached.recoverable q.peer
  rw [hother₁] at hside
  obtain ⟨ms, c, b, seg, hc, hresent⟩ := TCPConnection.retransmits hside.regular hside.orderly
    hside.exact hactive (h.in_flight hp) (h.spare q.peer)
  have hgentle : Gentle (t q.peer) (.tick ms) :=
    TCPConnection.not_lastAttempt (h.spare q.peer) ms
  rw [← hother₁] at hc hgentle
  obtain ⟨u, hstep₂, hu, hself₂, hother₂⟩ := h₁.act hc hgentle nofun
  rw [Side.peer_peer] at hother₂
  have hfu := TCPReceiver.firstUnassembled_le (h.reached.linked q.peer).tracks
  have hfull := h.full_le q.peer
  rw [Side.peer_peer] at hfu
  refine ⟨_, u, b, seg, .cons hstep₁ (.cons hstep₂ (.nil u)), hu, ?_⟩
  have hemits := hresent.emits
  have hfresh : seg ∈ appended (s q.peer) (u q.peer) := by
    obtain ⟨new, hnew, -⟩ := hc.emits (h₁.reached.sound q.peer).tracked
    rw [hself₂]
    refine h₁.mem_appended ⟨new, hnew.symm⟩ ?_
    rw [hother₁, hemits]
    exact List.mem_singleton_self seg
  refine ⟨hself₂.symm ▸ hresent, hfresh, ?_, ?_, ?_, ?_⟩
  · rw [hother₂, hself₁]
    exact hqactive
  · rw [hother₂, hself₁]
    exact roomy_readInbound (h.reached.recoverable q).sized hpos (by omega)
  · rw [hother₂, hself₁]
    rfl
  · intro hsyn
    obtain ⟨a, ha⟩ := ackno_of_syn hsyn
    have hvalue := hu.reached.ackno_eq ha
    rw [hself₂, hresent.receiver] at ha
    obtain ⟨hack, hackno⟩ := hresent.ack a ha
    exact ⟨hresent.rst, hack, hackno.trans hvalue⟩

/-- The missing segment takes the other side past what it has acknowledged. -/
theorem Underway.lt_received (h : Underway cfg s t) {b : ℕ} (hseg : seg ∈ (t p).segmentsOut)
    (hseqno : seg.header.seqno = wrap b (t p).sender.isn) (hlow : b ≤ (t p).sender.lastAckno)
    (hhigh : (t p).sender.lastAckno < b + seg.lengthInSequenceSpace)
    (hsyn : b = 0 → seg.lengthInSequenceSpace ≤ 1) (hroom : (t p.peer).receiver.Roomy)
    {r : TCPReceiver} (hr : (t p.peer).receiver.segmentReceived seg = .ok r) :
    (t p).sender.lastAckno < r.received := by
  obtain ⟨⟨v, n, hgenuine⟩, -, -⟩ := (h.reached.sound p).genuine hseg
  have htracks := (h.reached.linked p).tracks
  have hfits := hgenuine.fits
  have hfull := h.full_le p
  have hfu := TCPReceiver.firstUnassembled_le htracks
  obtain ⟨hacked, hsent, hnext⟩ := h.received_between p
  have hreceived : received (t p.peer) = (t p.peer).receiver.received := rfl
  have hv : v = b := by
    have hraw := congrArg (·.rawValue.toNat) (hgenuine.seqno.symm.trans hseqno)
    simp only [wrap_toNat] at hraw
    omega
  rw [hgenuine.length_eq] at hhigh hsyn
  rw [← hv] at hlow hhigh hsyn
  rcases Nat.lt_or_ge (t p.peer).receiver.received (v + n) with hmissing | hknown
  · have := htracks.received_lt (by omega) hgenuine hroom (by omega) hmissing hsyn (by omega)
      (by omega) hr
    omega
  · -- the other side had it already
    have hmono : received (t p.peer) ≤ received { t p.peer with receiver := r } :=
      TCPConnection.received_mono (TCPReceiver.Forward.received hr).toAdvances
    have hafter : received { t p.peer with receiver := r } = r.received := rfl
    omega

/-- The count after a delivery. -/
theorem Delivered.spare (h : Delivered s t p q seg u)
    (hspare : (t q).sender.retransmissionCount < TCPConfig.maxRetxAttempts) :
    (u q).sender.retransmissionCount < TCPConfig.maxRetxAttempts := by
  rw [h.count]
  split
  · decide
  · exact hspare

/-- **The end of a round.**  A side that closes has told the other one before, or does so now. -/
theorem Underway.bridge (h : Underway cfg s t) (hpq : q.peer = p) (hp : (t p).isactive = false)
    (hnews : (t q).sender.lastAckno = received (t p) ∨
      ∃ out ∈ appended (s p) (t p), Current (t q).sender.isn (t p) out)
    (hspare : ∀ side, (t side).sender.retransmissionCount < TCPConfig.maxRetxAttempts) :
    ∃ events u, Trace (StepSince s) t events u ∧ Ready cfg s u ∧ u p = t p ∧
      (t q).sender.lastAckno ≤ (u q).sender.lastAckno := by
  have hqp : p.peer = q := by rw [← hpq, Side.peer_peer]
  have hcomplete := h.complete_of_inactive hp
  have hall : received (t p) = (t q).sender.stream.written.length + 2 := by
    rw [← hpq] at hp ⊢
    exact h.received_of_inactive hp
  by_cases hdone : Complete (t q).sender
  · refine ⟨[], t, .nil t, ⟨h, hspare, ?_⟩, rfl, Nat.le_refl _⟩
    exact forall_sides hpq (fun _ => hqp ▸ hdone) (fun _ => hpq ▸ hcomplete)
  · -- the other side is active and has not been told
    obtain ⟨out, hout, hcurrent⟩ := hnews.resolve_left fun hacked => hdone (hacked.trans hall)
    have hactive : (t q).isactive = true := by
      by_contra hinactive
      exact hdone (h.complete_of_inactive (by simpa using hinactive))
    obtain ⟨u, hstep, hu, hdelivered⟩ := h.deliver hpq hactive hout hcurrent.rst
    refine ⟨_, u, .cons hstep (.nil u), ⟨hu, ?_, ?_⟩, hdelivered.other, hdelivered.advances⟩
    · exact forall_sides hpq (by rw [hdelivered.other]; exact hspare p)
        (hdelivered.spare (hspare q))
    · refine forall_sides hpq (fun _ => ?_) fun _ => ?_
      · rw [hqp, Complete, hdelivered.acked hcurrent, hall, hu.written q, h.written q]
      · rw [hpq, hdelivered.other]
        exact hcomplete

/-- **A round.**  The side whose stream is not complete gets at least one more number
    acknowledged. -/
theorem Ready.round (h : Ready cfg s t) (hroom : Roomy cfg) (hpq : q.peer = p)
    (hp : ¬ Complete (t p).sender) : ∃ events u, Trace (StepSince s) t events u ∧
      Ready cfg s u ∧ (t p).sender.lastAckno < (u p).sender.lastAckno ∧
      (t q).sender.lastAckno ≤ (u q).sender.lastAckno := by
  have hqp : p.peer = q := by rw [← hpq, Side.peer_peer]
  obtain ⟨events, t₁, b, seg, htrace, h₁, hresent⟩ := h.resend hroom hpq hp
  have hre := hresent.resent
  have hisn : (t p).sender.isn = (t₁ p).sender.isn := by rw [h.isn p, h₁.isn p]
  have hback := hre.lastAckno
  -- the segment arrives
  obtain ⟨t₂, hstep₂, h₂, hd₂⟩ := h₁.deliver hpq hresent.receiving hresent.fresh hre.rst
  have hmore : (t p).sender.lastAckno < received (t₂ q) := by
    rw [← hback]
    refine h₁.lt_received (r := (t₂ q).receiver) (List.mem_of_mem_drop hresent.fresh)
      (hisn ▸ hre.seqno) (hback ▸ hre.low) (hback ▸ hre.high) hre.syn ?_ ?_
    · rw [hqp]
      exact hresent.roomy
    · rw [hqp]
      exact hd₂.receiver
  have hsyn : (t₂ q).receiver.syn = true := by
    have htracks := (h₂.reached.linked p).tracks
    rw [hqp] at htracks
    by_contra hclosed
    have hnone : received (t₂ q) = 0 := htracks.received_of_closed (by simpa using hclosed)
    omega
  -- the answer arrives
  have hpos : 0 < seg.lengthInSequenceSpace := by
    have := hre.low
    have := hre.high
    omega
  obtain ⟨out, hout, hcurrent⟩ := hd₂.answer hpos hsyn
  have hactive : (t₂ p).isactive = true := by
    rw [hd₂.other]
    exact hre.active
  obtain ⟨t₃, hstep₃, h₃, hd₃⟩ := h₂.deliver hqp hactive hout hcurrent.rst
  have hacked := hd₃.acked hcurrent
  have hbefore : (t₂ p).sender.lastAckno = (t p).sender.lastAckno := by rw [hd₂.other, hback]
  have hgrown : (t p).sender.lastAckno < (t₃ p).sender.lastAckno := by omega
  have hkept : (t q).sender.lastAckno ≤ (t₃ q).sender.lastAckno := by
    rw [hd₃.other, ← hresent.sender]
    exact hd₂.advances
  have hspare : ∀ side, (t₃ side).sender.retransmissionCount < TCPConfig.maxRetxAttempts := by
    refine forall_sides hpq ?_ ?_
    · rw [hd₃.count, if_pos (by omega)]
      decide
    · rw [hd₃.other]
      exact hd₂.spare (hresent.sender ▸ h.spare q)
  have hrun : Trace (StepSince s) t _ t₃ := htrace.append (.cons hstep₂ (.cons hstep₃ (.nil t₃)))
  by_cases hclosed : (t₃ p).isactive = false
  · -- the side has closed, and the other one must know it
    have hnews : (t₃ q).sender.lastAckno = received (t₃ p) ∨
        ∃ out ∈ appended (s p) (t₃ p), Current (t₃ q).sender.isn (t₃ p) out := by
      rcases Nat.eq_zero_or_pos out.lengthInSequenceSpace with hempty | hcontent
      · -- nothing has changed since the retransmission, which has told everything
        left
        have htracks := (h₂.reached.linked q).tracks
        rw [hpq] at htracks
        have hsame : received (t₃ p) = received (t₂ p) := TCPReceiver.received_of_empty htracks
          (h₂.reached.recoverable p).shut hempty hd₃.receiver
        have hopen : (t₁ p).receiver.syn = true := by
          rw [← hd₂.other]
          by_contra hno
          have hnone : received (t₂ p) = 0 := htracks.received_of_closed (by simpa using hno)
          rw [← hpq] at hclosed hsame hnone
          have := h₃.received_of_inactive hclosed
          omega
        rw [hd₃.other, hsame, hd₂.other]
        exact hd₂.acked (hresent.current hopen)
      · exact .inr (hd₃.answer hcontent (h₃.closed hclosed).syn)
    obtain ⟨more, u, hmoreTrace, hu, hsame, hlater⟩ := h₃.bridge hpq hclosed hnews hspare
    refine ⟨_, u, hrun.append hmoreTrace, hu, ?_, hkept.trans hlater⟩
    rw [hsame]
    exact hgrown
  · refine ⟨_, t₃, hrun, ⟨h₃, hspare, ?_⟩, hgrown, hkept⟩
    refine forall_sides hpq (fun hinactive => absurd hinactive hclosed) fun hinactive => ?_
    -- the other side has closed, so it has acknowledged everything
    rw [← hqp] at hinactive
    have hall := h₃.received_of_inactive hinactive
    rw [hqp, hd₃.other] at hall
    rw [hpq, Complete, hacked, hall]

/-! ## §5 The way to the end -/

/-- The numbers of a stream that are not acknowledged. -/
def missing (c : TCPConnection) : ℕ :=
  c.sender.stream.written.length + 2 - c.sender.lastAckno

theorem Underway.missing_eq_zero_iff (h : Underway cfg s t) (p : Side) :
    missing (t p) = 0 ↔ Complete (t p).sender := by
  obtain ⟨hlow, hhigh, hnear⟩ := h.received_between p
  unfold missing Complete
  omega

/-- A round leaves less to be acknowledged. -/
theorem Ready.missing_lt (h : Ready cfg s t) (hroom : Roomy cfg) (hpq : q.peer = p)
    (hp : missing (t p) ≠ 0) : ∃ events u, Trace (StepSince s) t events u ∧ Ready cfg s u ∧
      missing (u p) + missing (u q) < missing (t p) + missing (t q) := by
  obtain ⟨events, u, htrace, hu, hmore, hkept⟩ :=
    h.round hroom hpq (mt (h.missing_eq_zero_iff p).mpr hp)
  refine ⟨events, u, htrace, hu, ?_⟩
  unfold missing at hp ⊢
  rw [hu.written p, hu.written q, ← h.written p, ← h.written q]
  omega

/-- **Both streams can be completed.** -/
theorem Ready.completes (h : Ready cfg s t) (hroom : Roomy cfg) : ∃ events u,
    Trace (StepSince s) t events u ∧ Ready cfg s u ∧ ∀ p, Complete (u p).sender := by
  have hround : ∀ t, Ready cfg s t → missing (t .X) + missing (t .Y) ≠ 0 → ∃ events u,
      Trace (StepSince s) t events u ∧ Ready cfg s u ∧
        missing (u .X) + missing (u .Y) < missing (t .X) + missing (t .Y) := by
    intro t ht hleft
    by_cases hX : missing (t .X) = 0
    · obtain ⟨events, u, htrace, hu, hless⟩ :=
        ht.missing_lt hroom (p := .Y) (q := .X) rfl (by omega)
      exact ⟨events, u, htrace, hu, by omega⟩
    · exact ht.missing_lt hroom (p := .X) (q := .Y) rfl hX
  obtain ⟨events, u, htrace, hu, hdone⟩ := exists_trace_of_decreasing _ hround h
  refine ⟨events, u, htrace, hu, forall_sides (p := .X) (q := .Y) rfl ?_ ?_⟩
  · exact (hu.missing_eq_zero_iff .X).mp (by omega)
  · exact (hu.missing_eq_zero_iff .Y).mp (by omega)

/-- A stream that is complete has arrived. -/
theorem Underway.ended_of_complete (h : Underway cfg s t) (hp : Complete (t p).sender) :
    (t p.peer).inboundStream.inputEnded = true := by
  have hacked := (h.reached.linked p).acked
  have hle := TCPReceiver.firstUnassembled_le (h.reached.linked p).tracks
  have hcount : (t p.peer).receiver.streamOut.bytesWritten =
      (t p.peer).receiver.reassembler.firstUnassembled := rfl
  rw [show (t p).sender.lastAckno = _ from hp, received, hcount] at hacked
  by_contra hopen
  rw [if_neg (show ¬ (t p.peer).receiver.streamOut.inputEnded = true from hopen)] at hacked
  split at hacked <;> omega

/-- What is complete stays so. -/
theorem Complete.step (h : Complete (t p).sender) (ht : Underway cfg s t) (hu : Underway cfg s u)
    (hstep : (t p).Step op (u p)) : Complete (u p).sender := by
  have hadv := (hstep.sender_moves.tracked (ht.reached.sound p).tracked).2.lastAckno
  obtain ⟨hlow, hhigh, hnear⟩ := hu.received_between p
  have hwritten := (hu.written p).trans (ht.written p).symm
  unfold Complete at h ⊢
  rw [hwritten] at hnear ⊢
  omega

/-- A side whose streams are complete waits until it is closed. -/
theorem Underway.close (h : Underway cfg s t) (hall : ∀ side, Complete (t side).sender)
    (p : Side) : ∃ events u, Trace (StepSince s) t events u ∧ Underway cfg s u ∧
      (∀ side, Complete (u side).sender) ∧ (u p).isactive = false ∧ u p.peer = t p.peer := by
  by_cases hactive : (t p).isactive = false
  · exact ⟨[], t, .nil t, h, hall, hactive, rfl⟩
  · rw [Bool.not_eq_false] at hactive
    have hside := h.reached.recoverable p
    have hdone : Done (t p) := by
      have hended := h.ended_of_complete (hall p.peer)
      rw [Side.peer_peer] at hended
      obtain ⟨hlow, hhigh, hnear⟩ := h.received_between p
      have hcomplete : (t p).sender.lastAckno = _ := hall p
      rw [← ByteStream.bytesWritten_eq] at hcomplete hnear
      exact ⟨hended, h.ended p, by omega, hcomplete⟩
    obtain ⟨ms, c, hc, hlast, hclosed⟩ :=
      TCPConnection.closes_of_done hside.regular hside.orderly hside.exact hactive hdone
    obtain ⟨u, hstep, hu, hself, hother⟩ := h.act hc hlast nofun
    refine ⟨_, u, .cons hstep (.nil u), hu, forall_sides (Side.peer_peer p) ?_ ?_, ?_, hother⟩
    · exact (hall p).step h hu (hself.symm ▸ hc)
    · rw [hother]
      exact hall p.peer
    · rw [hself]
      exact hclosed

/-- The owner of a side reads what is left. -/
theorem Underway.read (h : Underway cfg s t) (hall : ∀ side, Complete (t side).sender)
    (p : Side) : ∃ u, StepSince s t ⟨p, .readInbound (t p).inboundStream.bufferSize⟩ u ∧
      Underway cfg s u ∧ (∀ side, Complete (u side).sender) ∧
      (u p).isactive = (t p).isactive ∧ (u p).inboundStream.eof = true ∧
      u p.peer = t p.peer := by
  have hread : (t p).Step (.readInbound (t p).inboundStream.bufferSize) _ := rfl
  obtain ⟨u, hstep, hu, hself, hother⟩ := h.act hread trivial nofun
  refine ⟨u, hstep, hu, forall_sides (Side.peer_peer p) ?_ ?_, ?_, ?_, hother⟩
  · exact (hall p).step h hu (hself.symm ▸ hread)
  · rw [hother]
    exact hall p.peer
  · rw [hself]
    rfl
  · have hended := hu.ended_of_complete (p := p.peer) (by rw [hother]; exact hall p.peer)
    rw [Side.peer_peer] at hended
    refine (ByteStream.eof_iff _).mpr ⟨hended, ?_⟩
    rw [hself]
    show ((t p).receiver.streamOut.popOutput (t p).inboundStream.bufferSize).buff = []
    simp [TCPConnection.inboundStream, ByteStream.bufferSize]

/-- The owner of a side ends its stream. -/
theorem Afloat.endInput (h : Afloat cfg s t) (p : Side) : ∃ u,
    StepSince s t ⟨p, .endInputStream⟩ u ∧ Afloat cfg s u ∧ u p.peer = t p.peer ∧
      (u p).sender.stream.inputEnded = true ∧ (u p).isactive = (t p).isactive ∧
      ((t p).sender.retransmissionCount < TCPConfig.maxRetxAttempts →
        (u p).sender.retransmissionCount < TCPConfig.maxRetxAttempts) := by
  have hside := h.reached.recoverable p
  have hc : (t p).Step .endInputStream (t p).endInputStream := rfl
  obtain ⟨u, hstep, hu, hself, hother⟩ := h.act hc trivial nofun
  refine ⟨u, hstep, hu, hother, ?_, ?_, ?_⟩
  · obtain ⟨new, hsends⟩ := (hside.regular.tracked.apply .endInput).fillWindow_sends
    rw [hself]
    exact hsends.inputEnded
  · rw [hself]
    rfl
  · intro hspare
    rw [hself, hc.retransmissionCount hside.regular rfl]
    split
    · decide
    · exact hspare

end Underway

section Recovery

variable {cfg : Side → TCPConfig} {randomDevice : Side → UInt32} {events : List Event}
  {s : System}

/-- The owners end their streams. -/
theorem exists_ready (hreached : Reached cfg s) (hbound : Bounded s) (hraw : Unwrapped s)
    (hactive : ∀ p, (s p).isactive = true)
    (hspare : ∀ p, (s p).sender.retransmissionCount < TCPConfig.maxRetxAttempts) :
    ∃ events t, Trace (StepSince s) s events t ∧ Ready cfg s t := by
  have hstart : Afloat cfg s s := ⟨hbound, hraw, hreached, fun _ => rfl, fun _ => rfl,
    fun _ => List.prefix_rfl, fun p => (hreached.recoverable p).regular.healthy (hactive p)⟩
  obtain ⟨t, hstep₁, ht, hother₁, hended₁, hactive₁, hspare₁⟩ := hstart.endInput .X
  obtain ⟨u, hstep₂, hu, hother₂, hended₂, hactive₂, hspare₂⟩ := ht.endInput .Y
  have hX : u .X = t .X := hother₂
  have hY : t .Y = s .Y := hother₁
  refine ⟨_, u, .cons hstep₁ (.cons hstep₂ (.nil u)),
    ⟨⟨hu, forall_sides (p := .X) (q := .Y) rfl ?_ hended₂⟩,
      forall_sides (p := .X) (q := .Y) rfl ?_ ?_, ?_⟩⟩
  · rw [hX]
    exact hended₁
  · rw [hX]
    exact hspare₁ (hspare .X)
  · exact hspare₂ (by rw [hY]; exact hspare .Y)
  · -- nobody has closed yet
    refine forall_sides (p := .X) (q := .Y) rfl (fun hinactive => ?_) fun hinactive => ?_
    · rw [hX, hactive₁, hactive .X] at hinactive
      cases hinactive
    · rw [hactive₂, hY, hactive .Y] at hinactive
      cases hinactive

/-- **Recovery from loss.**  Take any reachable state in which both sides are active and have a
    retransmission left.  Even if nothing that has been emitted so far is delivered any more,
    there is a way on from it after which both sides are closed without an error, and the owner of
    each side has read all that was written at the other one. -/
theorem recovers_from_loss (h : Trace Step (new cfg randomDevice) events s) (hbound : Bounded s)
    (hraw : Unwrapped s) (hroom : Roomy cfg) (hactive : ∀ p, (s p).isactive = true)
    (hspare : ∀ p, (s p).sender.retransmissionCount < TCPConfig.maxRetxAttempts) :
    ∃ more t, Trace (StepSince s) s more t ∧ ∀ p,
      (t p).isactive = false ∧
      (t p).sender.stream.error = false ∧ (t p).inboundStream.error = false ∧
      (t p).inboundStream.eof = true ∧
      (t p).inboundStream.written = (s p.peer).sender.stream.written := by
  obtain ⟨ev₁, t₁, htrace₁, h₁⟩ :=
    exists_ready (Reached.of_trace h hbound hraw) hbound hraw hactive hspare
  obtain ⟨ev₂, t₂, htrace₂, h₂, hall₂⟩ := h₁.completes hroom
  obtain ⟨ev₃, t₃, htrace₃, h₃, hall₃, hclosed₃, -⟩ := h₂.toUnderway.close hall₂ .X
  obtain ⟨ev₄, t₄, htrace₄, h₄, hall₄, hclosed₄, hother₄⟩ := h₃.close hall₃ .Y
  obtain ⟨t₅, hstep₅, h₅, hall₅, hsame₅, heof₅, hother₅⟩ := h₄.read hall₄ .X
  obtain ⟨t₆, hstep₆, h₆, hall₆, hsame₆, heof₆, hother₆⟩ := h₅.read hall₅ .Y
  refine ⟨_, t₆, htrace₁.append (htrace₂.append (htrace₃.append (htrace₄.append
    (.cons hstep₅ (.cons hstep₆ (.nil t₆)))))), ?_⟩
  have hX : t₆ .X = t₅ .X := hother₆
  have hY : t₅ .Y = t₄ .Y := hother₅
  have hinactive : ∀ p, (t₆ p).isactive = false := by
    refine forall_sides (p := .X) (q := .Y) rfl ?_ ?_
    · rw [hX, hsame₅, show t₄ .X = t₃ .X from hother₄]
      exact hclosed₃
    · rw [hsame₆, hY]
      exact hclosed₄
  have heof : ∀ p, (t₆ p).inboundStream.eof = true :=
    forall_sides (p := .X) (q := .Y) rfl (by rw [hX]; exact heof₅) heof₆
  intro p
  refine ⟨hinactive p, (h₆.healthy p).1, (h₆.healthy p).2, heof p, ?_⟩
  have hlink := h₆.reached.linked p.peer
  rw [Side.peer_peer] at hlink
  have hended := ((ByteStream.eof_iff _).mp (heof p)).1
  exact (hlink.tracks.assembled.ended hended).2.trans (h₆.written p.peer)

/-- X has called and has written two bytes, and its SYN is lost. -/
def unanswered : List Event :=
  [⟨.X, .connect⟩, ⟨.X, .write [1, 2]⟩]

theorem unanswered_trace : ∃ s, Trace Step (new sessionConfig fun _ => 0) unanswered s ∧
    Bounded s ∧ Unwrapped s ∧ (∀ p, (s p).isactive = true) ∧
    (∀ p, (s p).sender.retransmissionCount < TCPConfig.maxRetxAttempts) ∧
    (s .X).sender.stream.written = [1, 2] := by
  refine ⟨_, .cons ⟨?_, _, rfl, rfl⟩ (.cons ⟨?_, _, rfl, rfl⟩ (.nil _)), ?_, ?_, ?_, ?_, rfl⟩
  · exact fun seg hseg => by cases hseg
  · exact fun seg hseg => by cases hseg
  all_goals
    intro p
    cases p <;> decide

/-- The two bytes can still be delivered. -/
theorem recovers_from_loss_syn : ∃ s more t,
    Trace Step (new sessionConfig fun _ => 0) unanswered s ∧ Trace (StepSince s) s more t ∧
      (t .Y).isactive = false ∧ (t .Y).inboundStream.written = [1, 2] := by
  obtain ⟨s, htrace, hbound, hraw, hactive, hspare, hwritten⟩ := unanswered_trace
  have hroom : Roomy sessionConfig := fun p => by cases p <;> decide
  obtain ⟨more, t, hmore, hend⟩ := recovers_from_loss htrace hbound hraw hroom hactive hspare
  obtain ⟨hclosed, -, -, -, hread⟩ := hend .Y
  exact ⟨s, more, t, htrace, hmore, hclosed, hread.trans hwritten⟩

end Recovery

end System

end Sponge
