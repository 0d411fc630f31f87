import Sponge.Network.Link
import Sponge.Socket.Failing

/-!
# When the Thread of a Socket Ends

The loop of a socket's thread ends when no rule is interested.  In an environment that keeps the
descriptors open, this is the case exactly when there is nothing left to do.

* **The connection** (`Over`): an inactive connection has failed, or is closed for good.
* **The rules** (`Running.Calm`, `Attached`, `Standing`): as long as no rule that is polled for its
  event is told of a hang-up instead, rules 1, 3 and 4 stay, and rule 2 goes at the end of what the
  application writes.
* **The end** (`Quiet`, `ends_only_when_done`): the thread ends exactly when the connection is
  inactive, all segments have been sent, and the application has got all there is.
-/

namespace Sponge

open EventLoop (Rule Poll Revents prepare dispatch)
open Execution (Trace Guarded performIf)
open TCPSender (Tracked)

/-! ## §1 How a connection ends -/

namespace TCPConnection

variable {c d : TCPConnection} {op : Op}

/-- An inactive connection has failed, or is closed for good. -/
def Over (c : TCPConnection) : Prop :=
  c.isactive = false → Failed c ∨ Closed c

theorem Over.step (h : Over c) (ht : Tracked c.sender) (hstep : c.Step op d) : Over d := by
  intro hd
  obtain ⟨htd, hadv⟩ := hstep.sender_moves.tracked ht
  rcases hstep.inactive hd with hc | hfailed | hfinished
  · rcases h hc with ⟨hout, hin⟩ | hclosed
    · exact .inl ⟨hadv.error hout, hstep.receiver_error hc hin⟩
    · exact .inr (hclosed.step ht hstep hc)
  · exact .inl hfailed
  · exact .inr (hfinished.closed htd)

/-- The inbound stream of an inactive connection is over, once its buffer is empty. -/
theorem Over.done (h : Over c) (hinactive : c.isactive = false)
    (hempty : c.inboundStream.bufferEmpty = true) :
    (c.inboundStream.eof || c.inboundStream.error) = true := by
  rcases h hinactive with hfailed | hclosed
  · rw [show c.inboundStream.error = true from hfailed.2, Bool.or_true]
  · have heof : c.inboundStream.eof = true := by
      rw [ByteStream.eof, hempty, Bool.and_true]
      exact hclosed.ended
    rw [heof, Bool.true_or]

end TCPConnection

/-! ## §2 The descriptors of a socket -/

namespace TCPSpongeSocket

/-- What holds of a socket whose descriptors stay open. -/
structure Attached (s : TCPSpongeSocket) : Prop where
  adapter : s.datagramAdapter.eof = false ∧ s.datagramAdapter.closed = false
  thread : s.threadData.closed = false
  -- the outbound stream is ended only where the application ends it
  shutdown : s.outboundShutdown = true → s.threadData.eof = true
  ended : s.tcp.Over

section Callbacks

variable {s t : TCPSpongeSocket} {a : Answer}

theorem Attached.readSegment (h : Attached s) (ht : Tracked s.tcp.sender)
    (hrun : readSegment a s = .ok t) (heof : a.adapterEof = false) : Attached t := by
  obtain ⟨hthread, -, hfile, hclosed⟩ := readSegment_frame hrun
  obtain ⟨-, hout, htcp⟩ := readSegment_cases hrun
  refine ⟨⟨?_, hclosed.trans h.adapter.2⟩, ?_, ?_, ?_⟩
  · rw [hfile, h.adapter.1, heof]
    rfl
  · rw [hthread]
    exact h.thread
  · rw [hthread, hout]
    exact h.shutdown
  · rcases htcp with ⟨-, htcp⟩ | ⟨seg, -, hreceived⟩
    · rw [htcp]
      exact h.ended
    · have hop : s.tcp.Step (.segmentReceived seg) t.tcp := hreceived
      exact h.ended.step ht hop

/-- Ending the outbound stream at the end of what the application writes. -/
theorem Attached.cancelData (h : Attached s) (ht : Tracked s.tcp.sender)
    (heof : s.threadData.eof = true) : Attached s.cancelData := by
  have hop : s.tcp.Step .endInputStream s.cancelData.tcp := rfl
  exact ⟨h.adapter, h.thread, fun _ => heof, h.ended.step ht hop⟩

theorem Attached.readData (h : Attached s) (ht : Tracked s.tcp.sender)
    (hrun : readData a s = .ok t) : Attached t := by
  have hop : s.tcp.Step (.write (dataRead a s)) (dataWritten a s).tcp := rfl
  -- the bytes are written first
  have hwritten : Attached (dataWritten a s) := by
    refine ⟨h.adapter, ?_, fun hout => ?_, h.ended.step ht hop⟩
    · rw [← h.thread]
      exact FileDescriptor.closed_read _ _ _
    · exact (FileDescriptor.eof_read_iff _ _ _).mpr (.inl (h.shutdown hout))
  obtain ⟨-, rfl | ⟨heof, rfl⟩⟩ := readData_cases hrun
  · exact hwritten
  · exact hwritten.cancelData (hop.sender_moves.tracked ht).1 heof

theorem Attached.writeData (h : Attached s) (ht : Tracked s.tcp.sender)
    (hrun : writeData a s = .ok t) : Attached t := by
  have htcp := (writeData_cases hrun).1
  have hop : s.tcp.Step (.readInbound _) t.tcp := congrArg Except.ok htcp.symm
  have hover := h.ended.step ht hop
  unfold TCPSpongeSocket.writeData at hrun
  dsimp only at hrun
  split_ifs at hrun <;> cases hrun <;> exact ⟨h.adapter, h.thread, h.shutdown, hover⟩

theorem Attached.writeSegments (h : Attached s) (hrun : writeSegments a s = .ok t) :
    Attached t := by
  unfold TCPSpongeSocket.writeSegments at hrun
  split at hrun <;> cases hrun
  exact ⟨h.adapter, h.thread, h.shutdown, h.ended⟩

theorem Attached.tick (h : Attached s) (ht : Tracked s.tcp.sender) (ms : UInt64) :
    Attached (s.tick ms) := by
  unfold TCPSpongeSocket.tick
  split
  · have hop : s.tcp.Step (.tick ms) (s.tcp.tick ms) := rfl
    exact ⟨h.adapter, h.thread, h.shutdown, h.ended.step ht hop⟩
  · exact h

end Callbacks

/-- Nothing is left to do. -/
structure Quiet (s : TCPSpongeSocket) : Prop where
  inactive : s.tcp.isactive = false
  sent : s.segmentsOut = []
  handedOver : s.tcp.inboundStream.bufferEmpty = true
  closed : s.inboundShutdown = true

/-- **The rules are interested while there is something to do.** -/
theorem Attached.quiet_iff {s : TCPSpongeSocket} (h : Attached s) :
    (rule1.interest s = false ∧ rule3.interest s = false ∧ rule4.interest s = false) ↔ Quiet s := by
  simp only [rule1, rule3, rule4, Bool.or_eq_false_iff, Bool.and_eq_false_iff, Bool.not_eq_false']
  constructor
  · rintro ⟨hinactive, ⟨hempty, hclosed⟩, hsent⟩
    refine ⟨hinactive, List.isEmpty_iff.mp hsent, hempty, ?_⟩
    -- the inbound stream of an inactive connection is over
    have hdone := h.ended.done hinactive hempty
    rcases hclosed with hopen | hclosed
    · rw [Bool.or_eq_true, hopen.1, hopen.2] at hdone
      simp at hdone
    · exact hclosed
  · rintro ⟨hinactive, hsent, hempty, hclosed⟩
    exact ⟨hinactive, ⟨hempty, .inr hclosed⟩, List.isEmpty_iff.mpr hsent⟩

end TCPSpongeSocket

namespace Endpoint

open TCPSpongeSocket (Attached Quiet)

variable {α δ : Type} [FdAdapter α δ]

/-! ## §3 The rules that stay -/

/-- No read of a ready rule meets the end of the file below the adapter. -/
def Unended (revents : ℕ → Revents) (answers : ℕ → SystemAnswer δ)
    (polled : List (Rule (Endpoint α δ) (SystemAnswer δ) EndpointException × Bool)) : Prop :=
  ∀ p ∈ polled.zipIdx, p.1.2 = true → (revents p.2).event = true →
    FdAdapter.meetsEof α (answers p.2).datagram = false

instance (revents : ℕ → Revents) (answers : ℕ → SystemAnswer δ)
    (polled : List (Rule (Endpoint α δ) (SystemAnswer δ) EndpointException × Bool)) :
    Decidable (Unended revents answers polled) :=
  inferInstanceAs (Decidable (∀ p ∈ polled.zipIdx, _))

/-- No rule that is polled for its event is told of a hang-up instead, and no read meets the end of
    the file below the adapter. -/
def Running.Calm (r : Running α δ) : Event δ → Prop
  | .waitNextEvent (.reported revents answers) =>
    EventLoop.Unhung revents (prepare r.rules r.endpoint).1 0 ∧
      Unended revents answers (prepare r.rules r.endpoint).1
  | _ => True

instance (r : Running α δ) : DecidablePred r.Calm
  | .waitNextEvent (.reported _ _) => inferInstanceAs (Decidable (_ ∧ _))
  | .waitNextEvent .timeout => .isTrue trivial
  | .waitNextEvent .interrupted => .isTrue trivial
  | .tick _ => .isTrue trivial
  | .write _ => .isTrue trivial
  | .shutdown => .isTrue trivial

/-- All rules are there, with or without rule 2. -/
def Standing (rules : List (Rule (Endpoint α δ) (SystemAnswer δ) EndpointException)) : Prop :=
  rules = Endpoint.rules α δ ∨ rules = [rule1 α δ, rule3 α δ, rule4 α δ]

/-- The endpoint when `poll` is called: the outbound stream has been ended if rule 2 is
    cancelled. -/
def Running.prepared (r : Running α δ) : Endpoint α δ :=
  (prepare r.rules r.endpoint).2

section Pass

variable {r r' : Running α δ} {e e' : Endpoint α δ} {a : SystemAnswer δ}

/-- The descriptors are of use, that of rule 2 while the application may write. -/
theorem defunct_of_attached (h : Attached e.socket) :
    ¬ (rule1 α δ).Defunct e ∧ ((rule2 α δ).Defunct e ↔ e.socket.threadData.eof = true) ∧
      ¬ (rule3 α δ).Defunct e ∧ ¬ (rule4 α δ).Defunct e := by
  obtain ⟨hfile, hclosed⟩ := h.adapter
  have hthread := h.thread
  simp [Rule.Defunct, rule1, rule2, rule3, rule4, ruleOf, TCPSpongeSocket.rule1,
    TCPSpongeSocket.rule2, TCPSpongeSocket.rule3, TCPSpongeSocket.rule4, hfile, hclosed, hthread]

/-- What is polled after rule 2. -/
theorem prepare_last (h : Attached e.socket) :
    prepare [rule3 α δ, rule4 α δ] e =
      ([(rule3 α δ, TCPSpongeSocket.rule3.interest e.socket),
        (rule4 α δ, TCPSpongeSocket.rule4.interest e.socket)], e) := by
  obtain ⟨-, -, h₃, h₄⟩ := defunct_of_attached h
  rw [EventLoop.prepare_of_not_defunct h₃, EventLoop.prepare_of_not_defunct h₄]
  rfl

/-- What is polled, and in which state: rule 2 is cancelled at the end of what the application
    writes. -/
theorem prepare_standing (hrules : Standing r.rules) (h : Attached r.endpoint.socket)
    (hs : Relayed r.endpoint) :
    Attached r.prepared.socket ∧ Relayed r.prepared ∧
      r.prepared.socket.tcp.isactive = r.endpoint.socket.tcp.isactive ∧
      ∃ middle, (prepare r.rules r.endpoint).1 =
          (rule1 α δ, r.endpoint.socket.tcp.isactive) :: (middle ++
            [(rule3 α δ, TCPSpongeSocket.rule3.interest r.prepared.socket),
              (rule4 α δ, TCPSpongeSocket.rule4.interest r.prepared.socket)]) ∧
        (middle = [] ∨
          middle = [(rule2 α δ, TCPSpongeSocket.rule2.interest r.endpoint.socket)]) := by
  obtain ⟨h₁, h₂, -⟩ := defunct_of_attached h
  have hfirst := EventLoop.prepare_of_not_defunct h₁
  unfold Running.prepared
  rcases hrules with hall | hfew
  · rw [hall, rules, hfirst]
    by_cases heof : r.endpoint.socket.threadData.eof = true
    · -- rule 2 is cancelled
      have hcancel := h.cancelData hs.settled.tracked heof
      have hrest : prepare [rule2 α δ, rule3 α δ, rule4 α δ] r.endpoint =
          prepare [rule3 α δ, rule4 α δ]
            { r.endpoint with socket := r.endpoint.socket.cancelData } :=
        EventLoop.prepare_of_defunct (h₂.mpr heof) _
      rw [hrest, prepare_last hcancel]
      exact ⟨hcancel, hs.cancelData, rfl, [], rfl, .inl rfl⟩
    · have hrest := EventLoop.prepare_of_not_defunct (fun hdefunct => heof (h₂.mp hdefunct))
        [rule3 α δ, rule4 α δ]
      rw [hrest, prepare_last h]
      exact ⟨h, hs, rfl, _, rfl, .inr rfl⟩
  · rw [hfew, hfirst, prepare_last h]
    exact ⟨h, hs, rfl, [], rfl, .inl rfl⟩

/-- **The loop goes on while there is something to do.** -/
theorem interested_iff (hrules : Standing r.rules) (h : Attached r.endpoint.socket)
    (hs : Relayed r.endpoint) :
    (prepare r.rules r.endpoint).1.any Prod.snd = false ↔ Quiet r.prepared.socket := by
  obtain ⟨hattached, -, hactive, middle, hpolled, hmiddle⟩ := prepare_standing hrules h hs
  -- rule 2 is not interested in an inactive connection
  have hsecond : r.endpoint.socket.tcp.isactive = false → middle.any Prod.snd = false := by
    intro hinactive
    rcases hmiddle with rfl | rfl
    · rfl
    · simp [TCPSpongeSocket.rule2, hinactive]
  rw [← hattached.quiet_iff, hpolled]
  have hone : TCPSpongeSocket.rule1.interest r.prepared.socket = _ := hactive
  simp only [List.any_cons, List.any_append, List.any_nil, Bool.or_false, Bool.or_eq_false_iff,
    hone]
  constructor
  · rintro ⟨h₁, -, h₃, h₄⟩
    exact ⟨h₁, h₃, h₄⟩
  · rintro ⟨h₁, h₃, h₄⟩
    exact ⟨h₁, hsecond h₁, h₃, h₄⟩

/-- The callbacks keep what holds of the socket. -/
theorem attached_of_callback {rule : Rule (Endpoint α δ) (SystemAnswer δ) EndpointException}
    (hrule : rule ∈ rules α δ) (heof : FdAdapter.meetsEof α a.datagram = false)
    (h : Attached e.socket) (hs : Relayed e) (hrun : rule.callback a e = .ok e') :
    Attached e'.socket ∧ Relayed e' := by
  have ht := hs.settled.tracked
  simp only [rules, List.mem_cons, List.not_mem_nil, or_false] at hrule
  rcases hrule with rfl | rfl | rfl | rfl
  · refine ⟨?_, hs.readSegment hrun⟩
    obtain ⟨_, _, socket, -, hsocket, rfl⟩ := readSegment_cases hrun
    exact h.readSegment ht hsocket heof
  · refine ⟨?_, hs.readData hrun⟩
    obtain ⟨-, socket, hsocket, rfl⟩ := readData_cases hrun
    exact h.readData ht hsocket
  · refine ⟨?_, hs.writeData hrun⟩
    obtain ⟨socket, hsocket, rfl⟩ := writeData_cases hrun
    exact h.writeData ht hsocket
  · refine ⟨?_, hs.writeSegments hrun⟩
    obtain ⟨_, socket, -, hsocket, -, -, -, -, rfl⟩ := writeSegments_cases hrun
    exact h.writeSegments hsocket

/-- One pass with a calm poll. -/
theorem attached_of_pass {poll : Poll (SystemAnswer δ)} {result : EventLoop.Result}
    (hcalm : r.Calm (.waitNextEvent poll))
    (hpass : EventLoop.waitNextEvent r.rules r.endpoint poll = .ok (result, r'.rules, r'.endpoint))
    (hrules : Standing r.rules) (h : Attached r.endpoint.socket) (hs : Relayed r.endpoint) :
    Standing r'.rules ∧ Attached r'.endpoint.socket := by
  obtain ⟨hattached, hrelayed, -, middle, hpolled, hmiddle⟩ := prepare_standing hrules h hs
  have hstanding : Standing ((prepare r.rules r.endpoint).1.map Prod.fst) := by
    rw [hpolled]
    rcases hmiddle with rfl | rfl
    · exact .inr rfl
    · exact .inl rfl
  rcases EventLoop.waitNextEvent_cases hpass with
    ⟨hsame, hstate, -⟩ | ⟨revents, answers, rfl, -, hdispatch⟩
  · rw [hsame, hstate]
    exact ⟨hstanding, hattached⟩
  · obtain ⟨hhup, heof⟩ := hcalm
    have hinstalled : ∀ p ∈ (prepare r.rules r.endpoint).1, p.1 ∈ rules α δ := by
      intro p hp
      have hmem := List.mem_map_of_mem (f := Prod.fst) hp
      rcases hstanding with hall | hfew
      · rwa [hall] at hmem
      · rw [hfew] at hmem
        simp only [List.mem_cons, List.not_mem_nil, or_false] at hmem
        simp only [rules, List.mem_cons, List.not_mem_nil, or_false]
        tauto
    obtain ⟨hstay, hkept, -⟩ := EventLoop.dispatch_calls
      (I := fun e => Attached e.socket ∧ Relayed e) hhup
      (fun p hp hpolled hready e e' hI hrun =>
        attached_of_callback (hinstalled p.1 (List.fst_mem_of_mem_zipIdx hp))
          (heof p hp hpolled hready) hI.1 hI.2 hrun)
      hdispatch ⟨hattached, hrelayed⟩
    rw [hstay]
    exact ⟨hstanding, hkept⟩

end Pass

/-! ## §4 Runs -/

section Runs

variable {o : Opening α} {events : List (Event δ)} {r r' : Running α δ}

theorem Running.Step.stands {event : Event δ} (h : r.Step event r') (hcalm : r.Calm event)
    (hrules : Standing r.rules) (ha : Attached r.endpoint.socket) (hs : Relayed r.endpoint) :
    Standing r'.rules ∧ Attached r'.endpoint.socket := by
  cases event with
  | waitNextEvent poll =>
    obtain ⟨result, hpass⟩ := h
    exact attached_of_pass hcalm hpass hrules ha hs
  | tick ms =>
    cases h
    exact ⟨hrules, ha.tick hs.settled.tracked ms⟩
  | write data =>
    obtain ⟨-, rfl⟩ := h
    exact ⟨hrules, ha⟩
  | shutdown =>
    cases h
    exact ⟨hrules, ha⟩

theorem Opening.attached_start (o : Opening α) :
    Attached (o.start : Running α δ).endpoint.socket := by
  have hover : (TCPConnection.new o.config o.randomDevice).Over := by
    simp [TCPConnection.Over, TCPConnection.new]
  unfold Opening.start
  split
  · have hstep : (TCPConnection.new o.config o.randomDevice).Step .connect _ := rfl
    exact ⟨⟨rfl, rfl⟩, rfl, by rintro ⟨⟩, hover.step (Tracked.new _ _ _ _) hstep⟩
  · exact ⟨⟨rfl, rfl⟩, rfl, by rintro ⟨⟩, hover⟩

/-- The rules and the descriptors in every state of a calm run. -/
theorem stands_of_trace (h : Trace (Guarded Running.Step Running.Calm) o.start events r) :
    Standing r.rules ∧ Attached r.endpoint.socket := by
  refine (h.invariant (I := fun r => (r.rules.Sublist (rules α δ) ∧ Relayed r.endpoint) ∧
    Standing r.rules ∧ Attached r.endpoint.socket) ?_ ?_).2
  · rintro r event r' ⟨⟨hsub, hs⟩, hrules, ha⟩ ⟨hcalm, hstep⟩
    obtain ⟨hsub', -, hs'⟩ := hstep.relays hsub
    exact ⟨⟨hsub', hs' hs⟩, hstep.stands hcalm hrules ha hs⟩
  · refine ⟨⟨?_, o.relayed_start⟩, .inl o.rules_start, o.attached_start⟩
    rw [o.rules_start]

/-- A pass that ends the loop leaves nothing to do. -/
theorem done_of_exit {poll : Poll (SystemAnswer δ)} (hpoll : poll ≠ .interrupted)
    (hrules : Standing r.rules) (hattached : Attached r.endpoint.socket) (hs : Relayed r.endpoint)
    {rules' : List (Rule (Endpoint α δ) (SystemAnswer δ) EndpointException)} {e' : Endpoint α δ}
    (hpass : EventLoop.waitNextEvent r.rules r.endpoint poll = .ok (.Exit, rules', e')) :
    Quiet r.prepared.socket ∧ e'.inbox = e'.socket.tcp.inboundStream.written ∧
      (e'.socket.tcp.Failed ∨ (e'.socket.tcp.Closed ∧ e'.outboxClosed = true ∧
        e'.socket.tcp.sender.stream.written = e'.outbox)) := by
  obtain ⟨ha, hrelayed, -⟩ := prepare_standing hrules hattached hs
  -- nothing has been polled
  obtain ⟨rfl, hq⟩ : e' = r.prepared ∧ Quiet r.prepared.socket := by
    rcases EventLoop.waitNextEvent_cases hpass with ⟨-, hstate, hnone⟩ | ⟨_, _, -, hresult, -⟩
    · exact ⟨hstate, (interested_iff hrules hattached hs).mp (hnone rfl hpoll)⟩
    · cases hresult
  refine ⟨hq, ?_, ?_⟩
  · -- nothing is left in the buffer
    rw [hrelayed.inbound, TCPReceiver.readOut]
    refine List.take_of_length_le ?_
    have hcount := ByteStream.bytesWritten_eq_add r.prepared.socket.tcp.inboundStream
    rw [List.isEmpty_iff.mp hq.handedOver, ByteStream.bytesWritten_eq] at hcount
    exact hcount.le
  · rcases ha.ended hq.inactive with hfailed | hclosed
    · exact .inl hfailed
    · -- the FIN has been sent, so the application has ended its stream
      have ht := hrelayed.settled.tracked
      have hended := (ByteStream.eof_iff _).mp (ht.segmented.fin_done hclosed.finSent)
      obtain ⟨hclosing, htaken⟩ :=
        hrelayed.atEof (ha.shutdown (hrelayed.settled.shutdown hended.1))
      refine .inr ⟨hclosed, hclosing, ?_⟩
      rw [hrelayed.outbound, htaken, List.take_length]

/-- **The thread ends exactly when it is done.**  In every state of a calm run, a pass that no
    signal interrupts ends the loop exactly when the connection is inactive, everything queued has
    been sent, and the application has been given what has arrived and has seen its end.  Then
    the connection has failed in both directions; or both streams are complete, and what the
    application has written is all in the outbound stream. -/
theorem ends_only_when_done (h : Trace (Guarded Running.Step Running.Calm) o.start events r)
    {poll : Poll (SystemAnswer δ)} (hpoll : poll ≠ .interrupted) :
    ((∃ rules' e', EventLoop.waitNextEvent r.rules r.endpoint poll = .ok (.Exit, rules', e')) ↔
      Quiet r.prepared.socket) ∧
    ∀ rules' e', EventLoop.waitNextEvent r.rules r.endpoint poll = .ok (.Exit, rules', e') →
      e'.inbox = e'.socket.tcp.inboundStream.written ∧
      (e'.socket.tcp.Failed ∨ (e'.socket.tcp.Closed ∧ e'.outboxClosed = true ∧
        e'.socket.tcp.sender.stream.written = e'.outbox)) := by
  obtain ⟨-, -, hs⟩ := relays_of_trace h.of_guarded
  obtain ⟨hrules, ha⟩ := stands_of_trace h
  refine ⟨⟨?_, fun hquiet => ?_⟩, fun rules' e' hpass => (done_of_exit hpoll hrules ha hs hpass).2⟩
  · rintro ⟨rules', e', hpass⟩
    exact (done_of_exit hpoll hrules ha hs hpass).1
  · refine ⟨(prepare r.rules r.endpoint).1.map Prod.fst, r.prepared, ?_⟩
    unfold EventLoop.waitNextEvent
    dsimp only
    rw [(interested_iff hrules ha hs).mpr hquiet]
    rfl

end Runs

/-- A pass in which one rule is ready, and others may be told of a hang-up. -/
def udpPass (rule : ℕ) (hung : List ℕ := []) : Event UDPDatagram :=
  .waitNextEvent (.reported (fun i => { event := i == rule, hup := hung.contains i }) fun _ =>
    { datagram := serverReset, amount := 1 })

/-- The SYN is sent, a reset arrives, and the application, which has hung up, is told. -/
def refused : List (Event UDPDatagram) :=
  [udpPass 3, udpPass 0, udpPass 2 [1]]

/-- A client that is refused. -/
theorem ends_only_when_done_refused : ∃ r : Running TCPOverUDPSocketAdapter UDPDatagram,
    Trace (Guarded Running.Step Running.Calm) clientOpening.start refused r ∧
      Quiet r.prepared.socket ∧
      ∃ rules' e', EventLoop.waitNextEvent r.rules r.endpoint .timeout = .ok (.Exit, rules', e') ∧
        e'.inbox = e'.socket.tcp.inboundStream.written := by
  have hrun : ((refused.foldlM (performIf Running.Calm Running.perform)
      (clientOpening.start : Running TCPOverUDPSocketAdapter UDPDatagram)).map fun r =>
        (r.prepared.socket.tcp.isactive, r.prepared.socket.segmentsOut,
          r.prepared.socket.tcp.inboundStream.bufferEmpty, r.prepared.socket.inboundShutdown)) =
      some (false, [], true, true) := by
    decide +kernel
  obtain ⟨r, hperform, hend⟩ := Option.map_eq_some_iff.mp hrun
  have htrace : Trace (Guarded Running.Step Running.Calm) _ _ r :=
    .of_performIf (fun _ _ _ => Running.step_of_perform) hperform
  simp only [Prod.mk.injEq] at hend
  have hquiet : Quiet r.prepared.socket := ⟨hend.1, hend.2.1, hend.2.2.1, hend.2.2.2⟩
  have hpoll : (.timeout : Poll (SystemAnswer UDPDatagram)) ≠ .interrupted := by simp
  obtain ⟨hiff, hdone⟩ := ends_only_when_done htrace hpoll
  obtain ⟨rules', e', hpass⟩ := hiff.mpr hquiet
  exact ⟨r, htrace, hquiet, rules', e', hpass, (hdone rules' e' hpass).1⟩

end Endpoint

end Sponge
