import Sponge.Network.Endpoints
import Sponge.Socket.Looping

/-!
# What a Clean End Guarantees

The thread of one endpoint ends by itself, and the stream to its application has not failed.
Then both applications have closed, both streams are complete at the other end, and the
application at this end has got all that the other one has written.

* **Both directions** (`Link.ended_of_closed`): a connection that is closed knows that everything
  has arrived.
* **Both endpoints** (`Calm`, `AllAttached`): in a calm run, neither stream is ended before its
  application ends it.
* **The guarantee** (`clean_exit_delivers`).
-/

namespace Sponge

open Endpoint (Opening Standing)
open EventLoop (Poll)
open Execution (Trace Guarded performIf)
open TCPSpongeSocket (Attached)

/-- Everything up to the FIN is acknowledged, so all of it has arrived. -/
theorem TCPConnection.Link.ended_of_closed {x y : TCPConnection} (h : Link x y) (hx : Sound x)
    (hclosed : Closed x) : y.receiver.streamOut.inputEnded = true := by
  have hnext := hx.tracked.segmented.nextSeqno_of_finSent hclosed.finSent
  have hacked := h.acked
  have hle := h.tracks.assembled.written.length_le
  have hcount : y.receiver.streamOut.bytesWritten = y.receiver.reassembler.output.written.length :=
    ByteStream.bytesWritten_eq _
  rw [hclosed.acked, hnext, ByteStream.bytesWritten_eq, received, hcount] at hacked
  -- the number of the FIN is only received when the stream has ended
  by_contra hopen
  rw [if_neg hopen] at hacked
  split at hacked <;> omega

namespace Network

variable {α δ : Type} [FdAdapter α δ]

/-- The event is calm at its endpoint. -/
def Calm (n : Network α δ) (e : Event δ) : Prop :=
  (n e.side).Calm e.event

instance (n : Network α δ) : DecidablePred n.Calm :=
  fun e => inferInstanceAs (Decidable ((n e.side).Calm e.event))

/-- What holds of both endpoints while their descriptors stay open. -/
def AllAttached (n : Network α δ) : Prop :=
  ∀ p, Standing (n p).rules ∧ Attached (n p).endpoint.socket

section Step

variable {n m : Network α δ} {e : Event δ} {events : List (Event δ)}
  {openings : Side → Opening α} {poll : Poll (SystemAnswer δ)} {p : Side}

theorem AllAttached.step (h : AllAttached n) (hs : AllRelayed n) (hcalm : n.Calm e)
    (hstep : Step n e m) : AllAttached m := by
  obtain ⟨r, hr, rfl, -⟩ := hstep
  exact (Function.forall_update_iff n fun _ r =>
    Standing r.rules ∧ Attached r.endpoint.socket).mpr
    ⟨hr.stands hcalm (h e.side).1 (h e.side).2 (hs e.side).2, fun p _ => h p⟩

theorem AllAttached.of_trace (h : Trace (Guarded Step Calm) (start openings) events n) :
    AllAttached n := by
  refine (h.invariant (I := fun n => AllRelayed n ∧ AllAttached n) ?_ ?_).2
  · rintro n e m ⟨hs, ha⟩ ⟨hcalm, hstep⟩
    exact ⟨hs.step hstep, ha.step hs hcalm hstep⟩
  · refine ⟨allRelayed_start openings, fun p => ?_⟩
    exact ⟨.inl (openings p).rules_start, (openings p).attached_start⟩

/-- The loop of one side ends, and not by a signal. -/
structure Exits (n : Network α δ) (p : Side) (poll : Poll (SystemAnswer δ)) (m : Network α δ) :
    Prop where
  step : Step n ⟨p, .waitNextEvent poll⟩ m
  exit : EventLoop.waitNextEvent (n p).rules (n p).endpoint poll =
    .ok (.Exit, (m p).rules, (m p).endpoint)
  poll : poll ≠ .interrupted

/-- **A clean end.**  If in a calm run the thread of one endpoint ends by itself and its inbound
    stream has not failed, then this application has got everything that the other one has
    written, the connection at the other end holds everything that this one has written, and both
    applications have closed. -/
theorem clean_exit_delivers [LawfulFdAdapter α δ]
    (h : Trace (Guarded Step Calm) (start openings) events n) (hexit : Exits n p poll m)
    (hbound : Bounded m) (hclean : (m p).endpoint.socket.tcp.inboundStream.error = false) :
    ((m p).endpoint.inbox = (m p.peer).endpoint.outbox ∧
      (m p.peer).endpoint.outboxClosed = true) ∧
    (m p.peer).endpoint.socket.tcp.inboundStream.written = (m p).endpoint.outbox ∧
      (m p.peer).endpoint.socket.tcp.inboundStream.inputEnded = true ∧
      (m p).endpoint.outboxClosed = true := by
  have hattached := AllAttached.of_trace h
  have hrelayed := (matched_of_trace h.of_guarded).1
  -- the connections, after the last pass
  obtain ⟨hrelayed', events', htrace⟩ :=
    matched_of_trace (h.of_guarded.append (.cons hexit.step (.nil m)))
  have hsmall := hbound.of_relayed hrelayed'
  have hlink := System.Linked.of_trace htrace hsmall p
  have hback := System.Linked.of_trace htrace hsmall p.peer
  rw [Side.peer_peer] at hback
  have hsound := System.AllSound.of_trace htrace p
  -- this side is closed
  obtain ⟨-, hinbox, hend⟩ := Endpoint.done_of_exit hexit.poll (hattached p).1 (hattached p).2
    (hrelayed p).2 hexit.exit
  obtain ⟨hclosed, houtbox, hwritten⟩ := hend.resolve_left fun hfailed => by
    rw [show (m p).endpoint.socket.tcp.inboundStream.error = true from hfailed.2] at hclean
    cases hclean
  -- the other side has not moved, and its application has ended its stream
  have hpeer : m p.peer = n p.peer := by
    obtain ⟨r, -, rfl, -⟩ := hexit.step
    exact Function.update_of_ne p.peer_ne _ _
  obtain ⟨hannounced, hall⟩ := hback.tracks.assembled.ended hclosed.ended
  have hshutdown := (hrelayed' p.peer).2.settled.shutdown (hback.announced hannounced)
  have heof := (hattached p.peer).2.shutdown (by rw [← hpeer]; exact hshutdown)
  obtain ⟨hpeerClosed, htaken⟩ := (hrelayed p.peer).2.atEof heof
  rw [← hpeer] at hpeerClosed htaken
  have houtbound : (connections m p.peer).sender.stream.written = _ :=
    (hrelayed' p.peer).2.outbound
  have hended := hlink.ended_of_closed hsound hclosed
  refine ⟨⟨?_, hpeerClosed⟩, ?_, hended, houtbox⟩
  · calc (m p).endpoint.inbox
        = (connections m p).receiver.reassembler.output.written := hinbox
      _ = (connections m p.peer).sender.stream.written := hall
      _ = (m p.peer).endpoint.outbox := by rw [houtbound, htaken, List.take_length]
  · exact (hlink.tracks.assembled.ended hended).2.trans hwritten

end Step

/-- Perform the pass that ends the loop of one side, if it does and the network does not forge. -/
def exitOf [DecidableEq δ] (n : Network α δ) (p : Side) (poll : Poll (SystemAnswer δ)) :
    Option (Network α δ) :=
  match EventLoop.waitNextEvent (n p).rules (n p).endpoint poll with
  | .ok (.Exit, rules, endpoint) =>
    if ∀ d ∈ endpoint.passed, d ∈ (n p.peer).endpoint.wire then
      some (Function.update n p ⟨rules, endpoint⟩)
    else none
  | _ => none

omit [FdAdapter α δ] in
theorem exits_of_exitOf [DecidableEq δ] {n m : Network α δ} {p : Side}
    {poll : Poll (SystemAnswer δ)} (h : exitOf n p poll = some m) (hpoll : poll ≠ .interrupted) :
    Exits n p poll m := by
  unfold exitOf at h
  split at h
  · rename_i rules endpoint hpass
    split at h
    · rename_i hgenuine
      cases h
      refine ⟨⟨⟨rules, endpoint⟩, ⟨.Exit, hpass⟩, rfl, hgenuine⟩, ?_, hpoll⟩
      rw [Function.update_self]
      exact hpass
    · cases h
  · cases h

/-! ## A session to its end

Y closes in its turn, and is done with the last acknowledgement.  By then both ends of its socket
pair are shut down, and the poll tells of a hang-up. -/

def sessionPeerFin : Bytes :=
  [69, 0, 0, 40, 0, 0, 64, 0, 128, 6, 250, 205, 0, 0, 0, 2, 0, 0, 0, 1,
    0, 80, 3, 232, 0, 0, 0, 101, 0, 0, 0, 11, 80, 17, 250, 0, 177, 40, 0, 0]

def sessionLastAck : Bytes :=
  [69, 0, 0, 40, 0, 0, 64, 0, 128, 6, 250, 205, 0, 0, 0, 1, 0, 0, 0, 2,
    3, 232, 0, 80, 0, 0, 0, 11, 0, 0, 0, 102, 80, 16, 250, 0, 177, 40, 0, 0]

def sessionToTheEnd : List (Event Bytes) :=
  session ++ [⟨.Y, .shutdown⟩, pass .Y 1, pass .Y 2, pass .X 0 sessionPeerFin, pass .X 2,
    ⟨.Y, .waitNextEvent (.reported (fun i => { event := i == 0, hup := i == 1 })
      fun _ => { datagram := sessionLastAck })⟩]

/-- At the end of the session, for the side that is done. -/
theorem clean_exit_delivers_session : ∃ n m : Network TCPOverIPv4OverTunFdAdapter Bytes,
    Trace (Guarded Step Calm) (start sessionOpenings) sessionToTheEnd n ∧ Exits n .Y .timeout m ∧
      (m .Y).endpoint.inbox = (m .X).endpoint.outbox ∧ (m .X).endpoint.outbox = [42, 43] := by
  have hrun : (((sessionToTheEnd.foldlM (performIf Calm perform) (start sessionOpenings)).bind
      fun n => exitOf n .Y .timeout).map fun m => ((m .X).endpoint.outbox, (m .Y).endpoint.outbox,
        (m .Y).endpoint.socket.tcp.inboundStream.error)) = some ([42, 43], [], false) := by
    decide +kernel
  obtain ⟨m, hm, hend⟩ := Option.map_eq_some_iff.mp hrun
  obtain ⟨n, hn, hexit⟩ := Option.bind_eq_some_iff.mp hm
  simp only [Prod.mk.injEq] at hend
  obtain ⟨hX, hY, hclean⟩ := hend
  have hbound : Bounded m := by
    intro p
    cases p
    · rw [hX]
      decide
    · rw [hY]
      decide
  have htrace : Trace (Guarded Step Calm) _ _ n :=
    .of_performIf (fun _ _ _ => step_of_perform) hn
  have hdone := exits_of_exitOf hexit (by simp)
  exact ⟨n, m, htrace, hdone, (clean_exit_delivers htrace hdone hbound hclean).1.1, hX⟩

end Network

end Sponge
