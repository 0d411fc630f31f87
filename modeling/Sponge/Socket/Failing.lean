import Sponge.Codec.Carriage
import Sponge.Connection.Advertising
import Sponge.Reassembler.Capacity
import Sponge.Socket.Relaying

/-!
# Why a Pass of the Thread Fails

An exception in a pass of the event loop ends the thread of a socket, and with it the process.
Whatever arrives from the network, and whatever the application does, there are few causes, and
all but one lie outside of the program.

* **The connection** (`segmentReceived_returns`): it takes every segment, as long as the stream
  positions are numbers of 63 bits.
* **The rules** (`readSegment_fails` and the like): what makes a callback throw.
* **The pass** (`Cause`, `failures_accounted`): the exceptions of a pass.  Among them are no
  busy wait, no exception of the reassembler and none of the codecs.
-/

namespace Sponge

open EventLoop (Rule Poll Revents Action LoopException)
open Execution (Trace)
open StreamReassembler (Bounded)

/-! ## §1 A connection takes every segment -/

/-- The stream positions are numbers of 63 bits. -/
def TCPReceiver.Small (r : TCPReceiver) : Prop :=
  r.reassembler.windowEnd < 2 ^ 63

theorem TCPReceiver.segmentReceived_returns {r : TCPReceiver} (h : Bounded r.reassembler)
    (hsmall : r.Small) {seg : TCPSegment} (hseg : seg.payload.length < 2 ^ 63) :
    ∃ r', r.segmentReceived seg = .ok r' ∧ Bounded r'.reassembler ∧
      r'.reassembler.windowEnd = r.reassembler.windowEnd := by
  unfold TCPReceiver.segmentReceived
  split
  · split
    · exact ⟨r, rfl, h, rfl⟩
    · obtain ⟨-, reassembler, -, hpush, hbounded, hend⟩ := h.push hsmall hseg 0 seg.header.fin
      exact ⟨_, by rw [hpush]; rfl, hbounded, hend⟩
  · obtain ⟨-, reassembler, -, hpush, hbounded, hend⟩ := h.push hsmall hseg
      (UInt64.ofNat (unwrap seg.header.seqno r.isn r.reassembler.firstUnassembled) - 1)
      seg.header.fin
    dsimp only
    rw [hpush]
    exact ⟨{ r with reassembler }, rfl, hbounded, hend⟩

namespace TCPConnection

variable {c d : TCPConnection} {op : Op}

theorem segmentReceived_returns (h : Bounded c.receiver.reassembler) (hsmall : c.receiver.Small)
    {seg : TCPSegment} (hseg : seg.payload.length < 2 ^ 63) :
    ∃ d, c.segmentReceived seg = .ok d := by
  cases hactive : c.isactive with
  | false => exact ⟨c, by simp [segmentReceived, hactive]⟩
  | true =>
    cases hrst : seg.header.rst with
    | true => exact ⟨_, by simp [segmentReceived, hactive, hrst]; rfl⟩
    | false =>
      obtain ⟨r, hr, -⟩ := TCPReceiver.segmentReceived_returns h hsmall hseg
      exact ⟨_, segmentReceived_eq hactive hrst hr⟩

/-- Stream positions only grow. -/
theorem Step.small (h : c.Step op d) (hsmall : d.receiver.Small) : c.receiver.Small := by
  have hforward := h.receiver_forward
  unfold TCPReceiver.Small StreamReassembler.windowEnd at hsmall ⊢
  rw [show d.receiver.reassembler.output.capacity = _ from hforward.outputCapacity] at hsmall
  exact (Nat.add_le_add_right hforward.bytesRead _).trans_lt hsmall

/-- The invariant of the reassembler, over one operation. -/
theorem Step.bounded (h : c.Step op d)
    (hop : ∀ seg, op = .segmentReceived seg → seg.payload.length < 2 ^ 63)
    (hc : Bounded c.receiver.reassembler) (hsmall : c.receiver.Small) :
    Bounded d.receiver.reassembler := by
  rcases h.receiver_moves with hr | hr | ⟨len, hr⟩ | ⟨seg, rfl, -, -, hr⟩
  · rw [hr]
    exact hc
  · rw [hr]
    exact ⟨hc.separated, hc.nonempty, hc.gap, hc.inside, hc.count, hc.capacity⟩
  · rw [hr]
    exact hc.read len
  · obtain ⟨r, hreturns, hbounded, -⟩ :=
      TCPReceiver.segmentReceived_returns hc hsmall (hop seg rfl)
    cases hreturns.symm.trans hr
    exact hbounded

/-- The invariant of the reassembler, over a run. -/
theorem bounded_of_trace {ops : List Op} (h : Trace Step c ops d)
    (hops : ∀ seg, .segmentReceived seg ∈ ops → seg.payload.length < 2 ^ 63)
    (hc : c.receiver.Small → Bounded c.receiver.reassembler) (hsmall : d.receiver.Small) :
    Bounded d.receiver.reassembler := by
  induction h with
  | nil => exact hc hsmall
  | cons hstep _ ih =>
    refine ih (fun seg hmem => hops seg (List.mem_cons_of_mem _ hmem)) (fun hnext => ?_) hsmall
    have hfirst := hstep.small hnext
    refine hstep.bounded ?_ (hc hfirst) hfirst
    rintro seg rfl
    exact hops seg List.mem_cons_self

end TCPConnection

/-! ## §2 The callbacks of the socket -/

namespace TCPSpongeSocket

variable {s t : TCPSpongeSocket} {a : Answer} {err : SocketException}

/-- Rule 1 has read. -/
theorem readCount_readSegment (h : readSegment a s = .ok t) :
    t.datagramAdapter.readCount = s.datagramAdapter.readCount + 1 := by
  unfold readSegment at h
  split at h
  · cases h
  · dsimp only at h
    split at h
    · cases h
    · split at h <;> cases h <;> rfl

/-- Rule 2 has read. -/
theorem readCount_readData (h : readData a s = .ok t) :
    t.threadData.readCount = s.threadData.readCount + 1 := by
  have hread := s.threadData.readCount_read s.tcp.remainingOutboundCapacity a.available
  obtain ⟨-, rfl | ⟨-, rfl⟩⟩ := readData_cases h
  · exact hread
  · exact hread

/-- Rule 3 has written, and may have shut down the socket. -/
theorem writeCount_writeData (h : writeData a s = .ok t) :
    t.threadData.writeCount = s.threadData.writeCount + 1 ∨
      t.threadData.writeCount = s.threadData.writeCount + 1 + 1 := by
  unfold writeData at h
  dsimp only at h
  split_ifs at h <;> cases h
  · exact .inr rfl
  · exact .inl rfl

/-- Rule 4 leaves nothing queued. -/
theorem segmentsOut_writeSegments (h : writeSegments a s = .ok t) : t.segmentsOut = [] := by
  unfold writeSegments at h
  split at h
  · cases h
  · cases h
    exact List.drop_length

/-- Rule 1 only fails by a system call or by an exception of the connection. -/
theorem readSegment_error (h : readSegment a s = .error err) :
    (err = .unixError ∧ a.fails = true) ∨
      ∃ seg e, a.segment = some seg ∧ err = .std e ∧ s.tcp.segmentReceived seg = .error e := by
  unfold readSegment at h
  split at h
  · rename_i hfails
    cases h
    exact .inl ⟨rfl, hfails⟩
  · dsimp only at h
    split at h
    · rename_i e hreceived
      cases h
      split at hreceived
      · cases hreceived
      · rename_i seg hseg
        exact .inr ⟨seg, e, hseg, rfl, hreceived⟩
    · split at h <;> cases h

/-- Rule 3 only fails by its system call. -/
theorem writeData_error (h : writeData a s = .error err) :
    (err = .unixError ∧ a.fails = true) ∨ (err = .wroteNothing ∧ a.taken = 0) := by
  unfold writeData at h
  dsimp only at h
  split_ifs at h with hfails hnothing
  · cases h
    exact .inl ⟨rfl, hfails⟩
  · cases h
    refine .inr ⟨rfl, ?_⟩
    obtain ⟨hzero, hnonempty⟩ := hnothing
    omega

end TCPSpongeSocket

namespace Endpoint

variable {α δ : Type} [FdAdapter α δ]

/-! ## §3 The callbacks of an endpoint -/

section Callbacks

variable {e e' : Endpoint α δ} {a : SystemAnswer δ} {err : EndpointException}

/-- Rule 1: no datagram of the layer below makes it throw. -/
theorem readSegment_fails [SafeFdAdapter α δ] (h : readSegment a e = .error err)
    (hbounded : Bounded e.socket.tcp.receiver.reassembler) (hsmall : e.socket.tcp.receiver.Small) :
    (err = .socket .unixError ∧ a.fails = true) ∨
      ∃ x, err = .adapter x ∧ ¬ SafeFdAdapter.Fits α a.datagram := by
  unfold readSegment at h
  split at h
  · rename_i hfails
    cases h
    exact .inl ⟨rfl, hfails⟩
  · split at h
    · rename_i x hread
      cases h
      refine .inr ⟨x, rfl, fun hfits => ?_⟩
      obtain ⟨result, hreturns⟩ := SafeFdAdapter.read_returns e.adapter (a.random 0) hfits
      cases hreturns.symm.trans hread
    · rename_i segment adapter hread
      split at h
      · rename_i x hsocket
        exfalso
        rcases TCPSpongeSocket.readSegment_error hsocket with
          ⟨-, hfails⟩ | ⟨seg, y, hseg, -, hthrown⟩
        · cases hfails
        · dsimp only at hseg
          subst hseg
          have hsize : seg.payload.length < 2 ^ 63 := by
            have hle := SafeFdAdapter.payload_le hread
            omega
          obtain ⟨d, hreturns⟩ := TCPConnection.segmentReceived_returns hbounded hsmall hsize
          cases hreturns.symm.trans hthrown
      · cases h

omit [FdAdapter α δ] in
/-- Rule 2: it throws when there is nothing to read, or when the connection takes nothing. -/
theorem readData_fails (h : readData a e = .error err) :
    (err = .socket .unixError ∧
      (a.fails = true ∨ (e.pending = [] ∧ e.outboxClosed = false))) ∨
    (err = .socket .acceptedLess ∧ e.pending ≠ [] ∧
      (e.socket.tcp.isactive = false ∨ e.socket.tcp.sender.stream.inputEnded = true)) := by
  unfold readData at h
  split at h
  · rename_i hfails
    cases h
    refine .inl ⟨rfl, ?_⟩
    simpa using hfails
  · dsimp only at h
    split at h
    · rename_i x hsocket
      cases h
      have hless : x = .acceptedLess := by
        rw [TCPSpongeSocket.readData_eq, if_neg (by simp)] at hsocket
        split_ifs at hsocket
        cases hsocket
        rfl
      subst hless
      rw [TCPSpongeSocket.readData_eq_acceptedLess_iff] at hsocket
      refine .inr ⟨rfl, fun hempty => hsocket.2.1 ?_, hsocket.2.2⟩
      unfold TCPSpongeSocket.dataRead FileDescriptor.read available
      rw [hempty]
      simp
    · cases h

omit [FdAdapter α δ] in
/-- Rule 3: only its system call fails. -/
theorem writeData_fails (h : writeData a e = .error err) :
    (err = .socket .unixError ∧ a.fails = true) ∨ (err = .socket .wroteNothing ∧ a.amount = 0) := by
  unfold writeData at h
  dsimp only at h
  split at h
  · rename_i x hsocket
    cases h
    rcases TCPSpongeSocket.writeData_error hsocket with ⟨rfl, hfails⟩ | ⟨rfl, hzero⟩
    · exact .inl ⟨rfl, hfails⟩
    · exact .inr ⟨rfl, hzero⟩
  · cases h

/-- Every emitted segment can be written. -/
theorem writeAll_returns [SafeFdAdapter α δ] (adapter : α) (random : ℕ → UInt32) (i : ℕ)
    {segs : List TCPSegment} (h : ∀ seg ∈ segs, seg.Sendable) :
    ∃ datagrams, writeAll adapter random i segs = .ok datagrams := by
  induction segs generalizing i with
  | nil => exact ⟨[], rfl⟩
  | cons seg segs ih =>
    obtain ⟨hseg, hsegs⟩ := List.forall_mem_cons.mp h
    obtain ⟨sent, hwrite⟩ := SafeFdAdapter.write_returns adapter (random i) hseg
    obtain ⟨datagrams, hrest⟩ := ih (i + 1) hsegs
    rw [writeAll, hwrite, Loop.ok_bind, hrest]
    exact ⟨sent.toList ++ datagrams, rfl⟩

/-- Rule 4: only its system calls fail. -/
theorem writeSegments_fails [SafeFdAdapter α δ] (hs : Relayed e)
    (h : writeSegments a e = .error err) : err = .socket .unixError ∧ a.fails = true := by
  have hsendable : ∀ seg ∈ e.socket.segmentsOut, seg.Sendable :=
    fun seg hmem => hs.sendable seg (List.mem_of_mem_drop hmem)
  obtain ⟨datagrams, hwritten⟩ := writeAll_returns e.adapter a.random 0 hsendable
  unfold writeSegments at h
  rw [hwritten] at h
  dsimp only at h
  split at h
  · rename_i x hsocket
    cases h
    unfold TCPSpongeSocket.writeSegments at hsocket
    split at hsocket
    · rename_i hfails
      cases hsocket
      rw [Bool.and_eq_true] at hfails
      exact ⟨rfl, hfails.1⟩
    · cases hsocket
  · cases h

/-- Rule 4 leaves nothing queued. -/
theorem segmentsOut_writeSegments (h : writeSegments a e = .ok e') :
    e'.socket.segmentsOut = [] := by
  obtain ⟨_, socket, -, hsocket, -, -, -, -, rfl⟩ := writeSegments_cases h
  exact TCPSpongeSocket.segmentsOut_writeSegments hsocket

/-- A callback that returns has used its descriptor, or has nothing more to do. -/
theorem served_of_rule {rule : Rule (Endpoint α δ) (SystemAnswer δ) EndpointException}
    (hrule : rule ∈ rules α δ) (h : rule.callback a e = .ok e')
    (hcount : rule.serviceCount e = rule.serviceCount e') : rule.interest e' = false := by
  simp only [rules, List.mem_cons, List.not_mem_nil, or_false] at hrule
  rcases hrule with rfl | rfl | rfl | rfl
  · obtain ⟨_, _, socket, -, hsocket, rfl⟩ := readSegment_cases h
    have hread := TCPSpongeSocket.readCount_readSegment hsocket
    have hsame : e.socket.datagramAdapter.readCount = socket.datagramAdapter.readCount := hcount
    rw [hread] at hsame
    simp at hsame
  · obtain ⟨-, socket, hsocket, rfl⟩ := readData_cases h
    have hread := TCPSpongeSocket.readCount_readData hsocket
    have hsame : e.socket.threadData.readCount = socket.threadData.readCount := hcount
    rw [hread] at hsame
    simp at hsame
  · obtain ⟨socket, hsocket, rfl⟩ := writeData_cases h
    have hsame : e.socket.threadData.writeCount = socket.threadData.writeCount := hcount
    rcases TCPSpongeSocket.writeCount_writeData hsocket with hwritten | hwritten
    · rw [hwritten] at hsame
      simp at hsame
    · rw [hwritten, add_assoc] at hsame
      simp at hsame
  · have hempty := segmentsOut_writeSegments h
    simp [rule4, ruleOf, TCPSpongeSocket.rule4, hempty]

end Callbacks

/-! ## §4 A pass -/

/-- What makes a pass fail, and with which exception. -/
inductive Cause [SafeFdAdapter α δ] (e : Endpoint α δ) (revents : ℕ → Revents)
    (answers : ℕ → SystemAnswer δ) : LoopException EndpointException → Prop where
  /-- `poll` reports an error -/
  | polledError (i : ℕ) (h : (revents i).error = true) : Cause e revents answers .polledError
  /-- a system call fails -/
  | failed (i : ℕ) (h : (answers i).fails = true) :
      Cause e revents answers (.thrown (.socket .unixError))
  /-- `poll` reports bytes of the application, but there are none and there may be more -/
  | nothingToRead (i : ℕ) (h : (revents i).event = true) (hempty : e.pending = [])
      (hopen : e.outboxClosed = false) : Cause e revents answers (.thrown (.socket .unixError))
  /-- the kernel takes no byte for the application -/
  | wroteNothing (i : ℕ) (h : (answers i).amount = 0) :
      Cause e revents answers (.thrown (.socket .wroteNothing))
  /-- a reset arrives in the pass that reads bytes of the application -/
  | reset (i : ℕ) (a a' : α) (seg : TCPSegment) (random : UInt32)
      (h : FdAdapter.read a (answers i).datagram random = .ok (some seg, a'))
      (hrst : seg.header.rst = true) (hpending : e.pending ≠ []) :
      Cause e revents answers (.thrown (.socket .acceptedLess))
  /-- a datagram that the layer below cannot carry -/
  | oversized (i : ℕ) (x : RuntimeError) (h : ¬ SafeFdAdapter.Fits α (answers i).datagram) :
      Cause e revents answers (.thrown (.adapter x))

section Pass

variable {e u v w : Endpoint α δ}

/-- Cancelling a rule leaves the application's side alone, and the inbound stream. -/
theorem cancel_frame {rule : Rule (Endpoint α δ) (SystemAnswer δ) EndpointException}
    (hrule : rule ∈ rules α δ) (e : Endpoint α δ) :
    (rule.cancel e).inbox = e.inbox ∧
      (rule.cancel e).socket.tcp.receiver = e.socket.tcp.receiver := by
  simp only [rules, List.mem_cons, List.not_mem_nil, or_false] at hrule
  rcases hrule with rfl | rfl | rfl | rfl <;> exact ⟨rfl, rfl⟩

/-- Only rule 2 does anything when it is cancelled. -/
theorem cancelled_eq {few : List (Rule (Endpoint α δ) (SystemAnswer δ) EndpointException)}
    (h : EventLoop.Cancelled few e v)
    (hsub : ∀ rule ∈ few, rule = rule1 α δ ∨
      rule = rule3 α δ ∨
      rule = rule4 α δ) : v = e := by
  refine h.invariant (I := (· = e)) (fun rule hrule e' he' => ?_) rfl
  subst he'
  rcases hsub rule hrule with rfl | rfl | rfl <;> rfl

/-- Before rule 2 is handled the connection takes what the application writes, unless a reset has
    arrived since the poll. -/
theorem open_of_actions
    {actions : List (Action (Endpoint α δ) (SystemAnswer δ) EndpointException)}
    {poll : Poll (SystemAnswer δ)} (h : Trace Action.Step e actions u)
    (hactions : ∀ a ∈ actions, a.rule = rule1 α δ ∧
      a.Answered poll)
    (hs : Relayed e) (hactive : e.socket.tcp.isactive = true)
    (hopen : e.socket.tcp.sender.stream.inputEnded = false) :
    (u.socket.tcp.isactive = true ∧ u.socket.tcp.sender.stream.inputEnded = false) ∨
      ∃ revents answers i, ∃ a a' : α, ∃ seg random, poll = .reported revents answers ∧
        FdAdapter.read a (answers i).datagram random = .ok (some seg, a') ∧
        seg.header.rst = true := by
  induction h with
  | nil => exact .inl ⟨hactive, hopen⟩
  | @cons e e' u action actions hstep _ ih =>
    obtain ⟨⟨hrule, hanswered⟩, hrest⟩ := List.forall_mem_cons.mp hactions
    cases action with
    | cancel rule =>
      cases hstep
      cases hrule
      exact ih hrest hs hactive hopen
    | call rule answer =>
      cases hrule
      obtain ⟨segment, adapter, socket, hread, hsocket, rfl⟩ := readSegment_cases hstep
      obtain ⟨-, -, ⟨-, htcp⟩ | ⟨seg, hseg, hreceived⟩⟩ :=
        TCPSpongeSocket.readSegment_cases hsocket
      · exact ih hrest (hs.readSegment hstep) (by rw [htcp]; exact hactive)
          (by rw [htcp]; exact hopen)
      · dsimp only at hseg
        subst hseg
        cases hrst : seg.header.rst with
        | true =>
          obtain ⟨revents, answers, i, hpoll, rfl⟩ := hanswered
          exact .inr ⟨revents, answers, i, _, _, seg, _, hpoll, hread, hrst⟩
        | false =>
          have ht := hs.settled.tracked
          have hop : e.socket.tcp.Step (.segmentReceived seg) socket.tcp := hreceived
          refine ih hrest (hs.readSegment hstep)
            (TCPConnection.segmentReceived_active hreceived ht hopen hactive hrst) ?_
          by_contra hended
          rw [hop.inputEnded ht (by simp) (by simpa using hended)] at hopen
          cases hopen

/-- Rule 1 leaves the application's bytes alone. -/
theorem pending_of_actions
    {actions : List (Action (Endpoint α δ) (SystemAnswer δ) EndpointException)}
    (h : Trace Action.Step e actions u)
    (hactions : ∀ a ∈ actions, a.rule = rule1 α δ) :
    u.pending = e.pending ∧ u.outboxClosed = e.outboxClosed := by
  induction h with
  | nil => exact ⟨rfl, rfl⟩
  | @cons e e' u action actions hstep _ ih =>
    obtain ⟨hrule, hrest⟩ := List.forall_mem_cons.mp hactions
    obtain ⟨hpending, hclosed⟩ := ih hrest
    cases action with
    | cancel rule =>
      cases hstep
      cases hrule
      exact ⟨hpending, hclosed⟩
    | call rule answer =>
      cases hrule
      obtain ⟨_, _, _, -, -, rfl⟩ := readSegment_cases hstep
      exact ⟨hpending, hclosed⟩

/-- The rules in their order: which one fails, and which ones come before and after it. -/
theorem rules_split {before after : List (Rule (Endpoint α δ) (SystemAnswer δ) EndpointException)}
    {rule : Rule (Endpoint α δ) (SystemAnswer δ) EndpointException}
    (h : (before ++ rule :: after).Sublist (rules α δ)) :
    (rule = rule1 α δ ∧ before = []) ∨
    (rule = rule2 α δ ∧
      (∀ r ∈ before, r = rule1 α δ) ∧
      ∀ r ∈ after, r = rule3 α δ ∨
        r = rule4 α δ) ∨
    rule = rule3 α δ ∨
    rule = rule4 α δ := by
  obtain ⟨front, back, hl, hbefore, hback⟩ := List.append_sublist_iff.mp h
  obtain ⟨middle, last, rfl, hrule, hafter⟩ := List.cons_sublist_iff.mp hback
  obtain ⟨skipped, more, rfl⟩ := List.append_of_mem hrule
  -- the rules before the failing one are among the first ones of the list
  have hfront : before.Sublist (front ++ skipped) := hbefore.trans (List.sublist_append_left _ _)
  have hlast : after.Sublist (more ++ last) := hafter.trans (List.sublist_append_right _ _)
  have hsplit : rules α δ = (front ++ skipped) ++ rule :: (more ++ last) := by
    rw [hl]
    simp
  generalize front ++ skipped = q at hfront hsplit
  generalize more ++ last = q' at hlast hsplit
  rw [rules] at hsplit
  rcases q with _ | ⟨r₁, _ | ⟨r₂, q⟩⟩
  · obtain ⟨rfl, -⟩ := List.cons.inj hsplit
    exact .inl ⟨rfl, List.sublist_nil.mp hfront⟩
  · obtain ⟨rfl, hrest⟩ := List.cons.inj hsplit
    obtain ⟨rfl, rfl⟩ := List.cons.inj hrest
    refine .inr (.inl ⟨rfl, fun r hr => by simpa using hfront.subset hr, fun r hr => ?_⟩)
    simpa using hlast.subset hr
  · obtain ⟨-, hrest⟩ := List.cons.inj hsplit
    obtain ⟨-, htwo⟩ := List.cons.inj hrest
    have hmem : rule ∈ q ++ rule :: q' := by simp
    rw [← show _ = q ++ rule :: q' from htwo] at hmem
    exact .inr (.inr (by simpa using hmem))

/-- **Why a pass fails**, in any state that the invariants hold of. -/
theorem cause_of_error [SafeFdAdapter α δ] {r : Running α δ} {poll : Poll (SystemAnswer δ)}
    {err : LoopException EndpointException} (hrules : r.rules.Sublist (rules α δ))
    (hs : Relayed r.endpoint) (hbounded : Bounded r.endpoint.socket.tcp.receiver.reassembler)
    (hsmall : r.endpoint.socket.tcp.receiver.Small)
    (h : EventLoop.waitNextEvent r.rules r.endpoint poll = .error err) :
    ∃ revents answers, poll = .reported revents answers ∧ Cause r.endpoint revents answers err := by
  obtain ⟨revents, answers, rfl, before, rule, after, hsplit, v, hv, w, hw, actions, u, hu,
    hactions, i, hfails⟩ := EventLoop.waitNextEvent_error h
  refine ⟨revents, answers, rfl, ?_⟩
  rw [hsplit] at hrules
  have hbefore : ∀ r ∈ before, r ∈ rules α δ := fun r hr => hrules.subset (by simp [hr])
  have hafter : ∀ r ∈ after, r ∈ rules α δ := fun r hr => hrules.subset (by simp [hr])
  have hrule : rule ∈ rules α δ := hrules.subset (by simp)
  rcases EventLoop.handle_error hfails with
    ⟨rfl, herror⟩ | ⟨hinterest, hevent, ⟨x, rfl, hcall⟩ | ⟨rfl, t, hcall, hcount, hbusy⟩⟩
  · exact .polledError i herror
  · -- the invariant holds up to the rule that fails
    have hrelayed : Relayed u := by
      obtain ⟨actions₁, htrace₁, hactions₁⟩ := hv.actions
      obtain ⟨actions₂, htrace₂, hactions₂⟩ := hw.actions
      have h₁ := (relays_of_actions (fun a ha => hbefore _ (hactions₁ a ha)) htrace₁).2 hs
      have h₂ := (relays_of_actions (fun a ha => hafter _ (hactions₂ a ha)) htrace₂).2 h₁
      exact (relays_of_actions (fun a ha => hbefore _ (hactions a ha).1) hu).2 h₂
    rcases rules_split hrules with ⟨rfl, rfl⟩ | ⟨rfl, hfirst, hlast⟩ | rfl | rfl
    · -- rule 1 comes first: the inbound stream is as it was before the pass
      have hreceiver : u.socket.tcp.receiver = r.endpoint.socket.tcp.receiver := by
        cases hu with
        | nil =>
          have hkeeps : ∀ few : List (Rule (Endpoint α δ) (SystemAnswer δ) EndpointException),
              (∀ rule ∈ few, rule ∈ rules α δ) → ∀ rule ∈ few, ∀ e' : Endpoint α δ,
                e'.socket.tcp.receiver = r.endpoint.socket.tcp.receiver →
                (rule.cancel e').socket.tcp.receiver = r.endpoint.socket.tcp.receiver :=
            fun few hfew rule hmem e' he' => (cancel_frame (hfew rule hmem) e').2.trans he'
          exact hw.invariant (hkeeps after hafter) (hv.invariant (hkeeps [] hbefore) rfl)
        | cons _ _ => cases (hactions _ List.mem_cons_self).1
      rcases readSegment_fails hcall (by rw [hreceiver]; exact hbounded)
        (by rw [hreceiver]; exact hsmall) with ⟨rfl, hfailed⟩ | ⟨x, rfl, hlong⟩
      · exact .failed i hfailed
      · exact .oversized i x hlong
    · -- rule 2: only rule 1 has run before it
      have hsame : v = r.endpoint := cancelled_eq hv fun rule hmem => .inl (hfirst rule hmem)
      have hstill : w = v := cancelled_eq hw fun rule hmem => .inr (hlast rule hmem)
      subst hstill hsame
      obtain ⟨hpending, hclosed⟩ := pending_of_actions hu fun a ha => hfirst _ (hactions a ha).1
      rcases readData_fails hcall with ⟨rfl, hfailed | ⟨hempty, hopen⟩⟩ | ⟨rfl, hsome, htakes⟩
      · exact .failed i hfailed
      · exact .nothingToRead i hevent (hpending ▸ hempty) (hclosed ▸ hopen)
      · obtain ⟨hactive, hshutdown, -⟩ := TCPSpongeSocket.interest_rule2_iff.mp hinterest
        rcases open_of_actions hu (fun a ha => ⟨hfirst _ (hactions a ha).1, (hactions a ha).2⟩) hs
          hactive (hs.settled.inputEnded hshutdown) with
          ⟨hstill, hopen⟩ | ⟨_, _, j, a, a', seg, random, hpoll, hread, hrst⟩
        · exfalso
          rcases htakes with hgone | hended
          · rw [hstill] at hgone
            cases hgone
          · rw [hopen] at hended
            cases hended
        · cases hpoll
          exact .reset j a a' seg random hread hrst (hpending ▸ hsome)
    · rcases writeData_fails hcall with ⟨rfl, hfailed⟩ | ⟨rfl, hzero⟩
      · exact .failed i hfailed
      · exact .wroteNothing i hzero
    · obtain ⟨rfl, hfailed⟩ := writeSegments_fails hrelayed hcall
      exact .failed i hfailed
  · exfalso
    rw [served_of_rule hrule hcall hcount] at hbusy
    cases hbusy

end Pass

/-! ## §5 Runs -/

section Runs

variable {o : Opening α} {events : List (Event δ)} {r : Running α δ}

/-- The end of the window, in terms of what the application has got. -/
theorem Relayed.windowEnd_eq {e : Endpoint α δ} (h : Relayed e) :
    e.socket.tcp.receiver.reassembler.windowEnd =
      e.inbox.length + e.socket.tcp.inboundStream.capacity.toNat := by
  have hread := e.socket.tcp.receiver.streamOut.bytesRead_le
  rw [h.inbound, TCPReceiver.readOut, List.length_take, Nat.min_eq_left hread]
  rfl

/-- The invariant of the reassembler, in every reachable state with small stream positions. -/
theorem bounded_of_run [SafeFdAdapter α δ] (h : Trace Running.Step o.start events r)
    (hsmall : r.endpoint.inbox.length + o.config.recvCapacity.toNat < 2 ^ 63) :
    Bounded r.endpoint.socket.tcp.receiver.reassembler ∧
      r.endpoint.socket.tcp.receiver.Small := by
  obtain ⟨-, hadvances, hrelayed⟩ := relays_of_trace h
  obtain ⟨ops, htrace, hfound⟩ := hadvances.ops
  obtain ⟨first, hfirst, hstart⟩ := o.trace_start (δ := δ)
  have hwhole := hstart.append htrace
  have hcapacity : r.endpoint.socket.tcp.inboundStream.capacity = o.config.recvCapacity :=
    hwhole.invariant (I := fun c => c.inboundStream.capacity = o.config.recvCapacity)
      (fun c op d hc hstep => hstep.receiver_forward.outputCapacity.trans hc) rfl
  have hend : r.endpoint.socket.tcp.receiver.Small := by
    unfold TCPReceiver.Small
    rw [hrelayed.windowEnd_eq, hcapacity]
    exact hsmall
  refine ⟨TCPConnection.bounded_of_trace hwhole (fun seg hmem => ?_) (fun _ => .new _) hend, hend⟩
  rcases List.mem_append.mp hmem with hopened | hlater
  · cases hfirst _ hopened
  · obtain ⟨a, a', datagram, -, random, hread⟩ := hfound seg hlater
    have hsize := SafeFdAdapter.payload_le hread
    omega

end Runs

/-- A socket that connects over UDP. -/
def clientOpening : Opening TCPOverUDPSocketAdapter where
  adapter := { source := ⟨1, 1⟩, destination := ⟨2, 2⟩, localAddress := ⟨1, 1⟩ }
  connects := true

/-- The peer resets the connection. -/
def serverReset : UDPDatagram where
  sourceAddress := ⟨2, 2⟩
  destination := ⟨1, 1⟩
  payload := [0, 2, 0, 1, 0, 0, 0, 0, 0, 0, 0, 0, 80, 4, 0, 0, 175, 248, 0, 0]

/-- The reset and a byte of the application are there in one pass. -/
def racingPoll : Poll (SystemAnswer UDPDatagram) :=
  .reported (fun i => { event := i < 2 }) fun _ => { datagram := serverReset, amount := 1 }

/-- The socket when the application has written a byte. -/
def racing : Running TCPOverUDPSocketAdapter UDPDatagram :=
  { clientOpening.start with endpoint := { clientOpening.start.endpoint with outbox := [7] } }

end Endpoint

end Sponge
