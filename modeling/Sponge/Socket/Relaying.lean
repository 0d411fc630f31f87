import Sponge.Connection.Streams
import Sponge.Endpoint
import Sponge.Socket.Passes
import Sponge.Socket.Writing

/-!
# Between the Application and the Wire

What the thread of an endpoint does to the bytes that pass through it, in both directions.

* **One callback** (`Advances`): it performs operations of the connection, and a segment that it
  hands to the connection was found by the adapter in a datagram.
* **The relay** (`Relayed`): the outbound stream holds what was taken from the application, the
  application has got what was read from the inbound stream, and every datagram on the wire was
  made of an emitted segment.
* **Runs** (`Running.Step.relays`): both hold over every event of an endpoint.
-/

namespace Sponge

open EventLoop (Rule Action)
open Execution (Trace)
open TCPSender (Tracked)

/-! ## §1 The callbacks of the socket -/

namespace TCPSpongeSocket

variable {s t : TCPSpongeSocket} {a : Answer}

/-- Rule 1 leaves the application's side alone. -/
theorem readSegment_frame (h : s.readSegment a = .ok t) :
    t.threadData = s.threadData ∧ t.inboundShutdown = s.inboundShutdown ∧
      t.datagramAdapter.eof = (s.datagramAdapter.eof || a.adapterEof) ∧
      t.datagramAdapter.closed = s.datagramAdapter.closed := by
  unfold readSegment at h
  split at h
  · cases h
  · dsimp only at h
    split at h
    · cases h
    · split at h <;> cases h <;> exact ⟨rfl, rfl, rfl, rfl⟩

/-- Rule 2 hands to the connection what it reads, and ends the stream at the end of the file. -/
theorem readData_cases (h : readData a s = .ok t) :
    (s.tcp.write (dataRead a s)).2 = (dataRead a s).length ∧
      (t = dataWritten a s ∨
        ((dataWritten a s).threadData.eof = true ∧ t = (dataWritten a s).cancelData)) := by
  rw [readData_eq] at h
  split_ifs at h with _ haccepted heof <;> cases h <;> rw [ne_eq, not_not] at haccepted
  · exact ⟨haccepted, .inr ⟨heof, rfl⟩⟩
  · exact ⟨haccepted, .inl rfl⟩

/-- Rule 3 reads from the inbound stream what the kernel takes, and shuts down when the stream
    is over. -/
theorem writeData_cases (h : writeData a s = .ok t) :
    t.tcp = s.tcp.readInbound (min a.taken
      (s.tcp.inboundStream.peekOutput (min 65536 s.tcp.inboundStream.bufferSize)).length) ∧
      t.threadData.eof = s.threadData.eof ∧
      (t.inboundShutdown = true → s.inboundShutdown = true ∨ t.tcp.receiver.Done) := by
  unfold writeData at h
  dsimp only at h
  split_ifs at h with _ _ hdone <;> cases h
  · exact ⟨rfl, rfl, fun _ => .inr ((Bool.or_eq_true _ _).mp hdone)⟩
  · exact ⟨rfl, rfl, fun hshutdown => .inl hshutdown⟩

end TCPSpongeSocket

namespace Endpoint

variable {α δ : Type} [FdAdapter α δ]

/-! ## §2 What an event does to the connection -/

/-- From `e` to `e'` the connection has performed operations.  A segment that it was given has
    been found in a datagram by the adapter. -/
structure Advances (e e' : Endpoint α δ) : Prop where
  ops : ∃ ops, Trace TCPConnection.Step e.socket.tcp ops e'.socket.tcp ∧
    ∀ seg, .segmentReceived seg ∈ ops → ∃ a a' : α, ∃ datagram ∈ e'.passed, ∃ random,
      FdAdapter.read a datagram random = .ok (some seg, a')
  passed : e.passed <+: e'.passed
  wire : e.wire <+: e'.wire
  outbox : e.outbox <+: e'.outbox

section Advances

variable {e e' e'' : Endpoint α δ}

theorem Advances.refl (e : Endpoint α δ) : Advances e e :=
  ⟨⟨[], .nil _, by simp⟩, List.prefix_rfl, List.prefix_rfl, List.prefix_rfl⟩

theorem Advances.trans (h₁ : Advances e e') (h₂ : Advances e' e'') : Advances e e'' := by
  obtain ⟨ops₁, htrace₁, hfound₁⟩ := h₁.ops
  obtain ⟨ops₂, htrace₂, hfound₂⟩ := h₂.ops
  refine ⟨⟨ops₁ ++ ops₂, htrace₁.append htrace₂, fun seg hmem => ?_⟩, h₁.passed.trans h₂.passed,
    h₁.wire.trans h₂.wire, h₁.outbox.trans h₂.outbox⟩
  rcases List.mem_append.mp hmem with hmem | hmem
  · obtain ⟨a, a', datagram, hpassed, hread⟩ := hfound₁ seg hmem
    exact ⟨a, a', datagram, h₂.passed.subset hpassed, hread⟩
  · exact hfound₂ seg hmem

/-- An event that gives the connection no segment. -/
theorem Advances.of_ops (ops : List TCPConnection.Op)
    (htrace : Trace TCPConnection.Step e.socket.tcp ops e'.socket.tcp)
    (hops : ∀ seg, .segmentReceived seg ∉ ops) (hpassed : e'.passed = e.passed)
    (hwire : e.wire <+: e'.wire) (houtbox : e'.outbox = e.outbox) : Advances e e' :=
  ⟨⟨ops, htrace, fun seg hmem => absurd hmem (hops seg)⟩, by rw [hpassed], hwire, by rw [houtbox]⟩

end Advances

section Callbacks

variable {e e' : Endpoint α δ} {a : SystemAnswer δ}

/-- The ways through the callback of rule 1. -/
theorem readSegment_cases (h : readSegment a e = .ok e') :
    (∃ segment adapter socket,
      FdAdapter.read e.adapter a.datagram (a.random 0) = .ok (segment, adapter) ∧
      e.socket.readSegment { segment, adapterEof := FdAdapter.meetsEof α a.datagram } =
        .ok socket ∧
      e' = { e with
        socket, adapter
        passed := if segment.isSome then e.passed ++ [a.datagram] else e.passed }) := by
  unfold readSegment at h
  split at h
  · cases h
  · split at h
    · cases h
    · rename_i segment adapter hread
      split at h
      · cases h
      · rename_i socket hsocket
        cases h
        exact ⟨segment, adapter, socket, hread, hsocket, rfl⟩

omit [FdAdapter α δ] in
/-- The ways through the callback of rule 2. -/
theorem readData_cases (h : readData a e = .ok e') :
    (e.pending = [] → e.outboxClosed = true) ∧ ∃ socket,
      e.socket.readData { available := available a e } = .ok socket ∧
      e' = { e with
        socket
        taken := e.taken +
          (TCPSpongeSocket.dataRead { available := available a e } e.socket).length } := by
  unfold readData at h
  split at h
  · cases h
  · rename_i hreadable
    simp only [Bool.or_eq_true, Bool.and_eq_true, List.isEmpty_iff, Bool.not_eq_true', not_or,
      not_and, Bool.not_eq_false] at hreadable
    dsimp only at h
    split at h
    · cases h
    · rename_i socket hsocket
      cases h
      exact ⟨hreadable.2, socket, hsocket, rfl⟩

omit [FdAdapter α δ] in
/-- The ways through the callback of rule 3. -/
theorem writeData_cases (h : writeData a e = .ok e') : ∃ socket,
    e.socket.writeData { fails := a.fails, taken := a.amount } = .ok socket ∧
    e' = { e with
      socket
      inbox := e.inbox ++ (e.socket.tcp.inboundStream.peekOutput
        (min 65536 e.socket.tcp.inboundStream.bufferSize)).take a.amount } := by
  unfold writeData at h
  dsimp only at h
  split at h
  · cases h
  · rename_i socket hsocket
    cases h
    exact ⟨socket, hsocket, rfl⟩

/-- The ways through the callback of rule 4. -/
theorem writeSegments_cases (h : writeSegments a e = .ok e') : ∃ datagrams socket,
    writeAll e.adapter a.random 0 e.socket.segmentsOut = .ok datagrams ∧
    e.socket.writeSegments { fails := a.fails, sent := UInt32.ofNat datagrams.length } =
      .ok socket ∧
    socket.tcp = e.socket.tcp ∧ socket.threadData = e.socket.threadData ∧
    socket.inboundShutdown = e.socket.inboundShutdown ∧
    socket.outboundShutdown = e.socket.outboundShutdown ∧
    e' = { e with socket, wire := e.wire ++ datagrams } := by
  unfold writeSegments at h
  split at h
  · cases h
  · rename_i datagrams hdatagrams
    split at h
    · cases h
    · rename_i socket hsocket
      cases h
      refine ⟨datagrams, socket, hdatagrams, hsocket, ?_⟩
      unfold TCPSpongeSocket.writeSegments at hsocket
      split at hsocket <;> cases hsocket
      exact ⟨rfl, rfl, rfl, rfl, rfl⟩

/-- Every datagram that rule 4 writes is made of a queued segment. -/
theorem mem_writeAll {adapter : α} {random : ℕ → UInt32} {i : ℕ} {segs : List TCPSegment}
    {datagrams : List δ} (h : writeAll adapter random i segs = .ok datagrams) :
    ∀ d ∈ datagrams, ∃ seg ∈ segs, ∃ r, FdAdapter.write adapter seg r = .ok (some d) := by
  induction segs generalizing i datagrams with
  | nil =>
    cases h
    simp
  | cons seg segs ih =>
    rw [writeAll] at h
    cases hwrite : FdAdapter.write adapter seg (random i) with
    | error err =>
      rw [hwrite] at h
      cases h
    | ok datagram =>
      rw [hwrite, Loop.ok_bind] at h
      cases hrest : writeAll adapter random (i + 1) segs with
      | error err =>
        rw [hrest] at h
        cases h
      | ok rest =>
        rw [hrest] at h
        cases h
        intro d hd
        rcases List.mem_append.mp hd with hfirst | hlater
        · rw [Option.mem_toList] at hfirst
          exact ⟨seg, List.mem_cons_self, random i, by rw [hwrite, hfirst]⟩
        · obtain ⟨seg', hmem, hwritten⟩ := ih hrest d hlater
          exact ⟨seg', List.mem_cons_of_mem _ hmem, hwritten⟩

theorem Advances.readSegment (h : readSegment a e = .ok e') : Advances e e' := by
  obtain ⟨segment, adapter, socket, hread, hsocket, rfl⟩ := readSegment_cases h
  obtain ⟨-, -, ⟨hnone, htcp⟩ | ⟨seg, hsome, hstep⟩⟩ := TCPSpongeSocket.readSegment_cases hsocket
  · dsimp only at hnone
    subst hnone
    refine .of_ops [] ?_ (by simp) rfl List.prefix_rfl rfl
    rw [htcp]
    exact .nil _
  · dsimp only at hsome
    subst hsome
    refine ⟨⟨[.segmentReceived seg], .cons hstep (.nil _), fun seg' hmem => ?_⟩,
      List.prefix_append _ _, List.prefix_rfl, List.prefix_rfl⟩
    cases List.mem_singleton.mp hmem
    exact ⟨e.adapter, adapter, a.datagram, List.mem_append_right _ List.mem_cons_self, _, hread⟩

theorem Advances.readData (h : readData a e = .ok e') : Advances e e' := by
  obtain ⟨-, socket, hsocket, rfl⟩ := readData_cases h
  obtain ⟨-, rfl | ⟨-, rfl⟩⟩ := TCPSpongeSocket.readData_cases hsocket
  · exact .of_ops [.write _] (.cons rfl (.nil _)) (by simp) rfl List.prefix_rfl rfl
  · exact .of_ops [.write _, .endInputStream] (.cons rfl (.cons rfl (.nil _))) (by simp)
      rfl List.prefix_rfl rfl

theorem Advances.writeData (h : writeData a e = .ok e') : Advances e e' := by
  obtain ⟨socket, hsocket, rfl⟩ := writeData_cases h
  obtain ⟨htcp, -⟩ := TCPSpongeSocket.writeData_cases hsocket
  have hread : e.socket.tcp.Step (.readInbound _) socket.tcp := congrArg Except.ok htcp.symm
  exact .of_ops [.readInbound _] (.cons hread (.nil _)) (by simp) rfl List.prefix_rfl rfl

theorem Advances.writeSegments (h : writeSegments a e = .ok e') : Advances e e' := by
  obtain ⟨datagrams, socket, -, -, htcp, -, -, -, rfl⟩ := writeSegments_cases h
  refine .of_ops [] ?_ (by simp) rfl (List.prefix_append _ _) rfl
  dsimp only
  rw [htcp]
  exact .nil _

/-- A rule that is cancelled at most ends the outbound stream. -/
theorem Advances.cancel (rule : Rule TCPSpongeSocket Answer SocketException)
    (hrule : rule ∈ [TCPSpongeSocket.rule1, TCPSpongeSocket.rule2, TCPSpongeSocket.rule3,
      TCPSpongeSocket.rule4]) :
    Advances e { e with socket := rule.cancel e.socket } := by
  simp only [List.mem_cons, List.not_mem_nil, or_false] at hrule
  rcases hrule with rfl | rfl | rfl | rfl
  · exact .refl e
  · exact .of_ops [.endInputStream] (.cons rfl (.nil _)) (by simp) rfl List.prefix_rfl rfl
  · exact .refl e
  · exact .refl e

end Callbacks

/-! ## §3 The relay -/

/-- What holds of an endpoint between two callbacks. -/
structure Relayed (e : Endpoint α δ) : Prop where
  settled : e.socket.Settled
  sendable : e.socket.tcp.AllSendable
  -- from the application to the connection
  outbound : e.socket.tcp.sender.stream.written = e.outbox.take e.taken
  taken_le : e.taken ≤ e.outbox.length
  atEof : e.socket.threadData.eof = true → e.outboxClosed = true ∧ e.taken = e.outbox.length
  -- from the connection to the application
  inbound : e.inbox = e.socket.tcp.receiver.readOut
  done : e.socket.inboundShutdown = true → e.socket.tcp.receiver.Done
  -- from the connection to the network
  wire : ∀ d ∈ e.wire, ∃ (a : α) (seg : TCPSegment) (random : UInt32),
    seg ∈ e.socket.tcp.segmentsOut ∧ FdAdapter.write a seg random = .ok (some d)

section Relayed

variable {e e' : Endpoint α δ} {a : SystemAnswer δ}

/-- What is on the wire stays accounted for when the connection goes on. -/
theorem Relayed.wire_mono (h : Relayed e) {op : TCPConnection.Op} {tcp : TCPConnection}
    (hstep : e.socket.tcp.Step op tcp) : ∀ d ∈ e.wire, ∃ (a : α) (seg : TCPSegment)
      (random : UInt32), seg ∈ tcp.segmentsOut ∧ FdAdapter.write a seg random = .ok (some d) := by
  obtain ⟨new, hout, -⟩ := hstep.emits h.settled.tracked
  intro d hd
  obtain ⟨a, seg, random, hmem, hwrite⟩ := h.wire d hd
  exact ⟨a, seg, random, by rw [hout]; exact List.mem_append_left _ hmem, hwrite⟩

/-- An operation of the connection that moves no byte of the application. -/
theorem Relayed.of_step (h : Relayed e) {op : TCPConnection.Op}
    {socket : TCPSpongeSocket} (hstep : e.socket.tcp.Step op socket.tcp)
    (hwrite : ∀ data, op ≠ .write data) (hread : ∀ len, op ≠ .readInbound len)
    (hsettled : socket.Settled) (hthread : socket.threadData = e.socket.threadData)
    (hshutdown : socket.inboundShutdown = e.socket.inboundShutdown) (adapter : α)
    (passed : List δ) : Relayed { e with socket, adapter, passed } where
  settled := hsettled
  sendable := hstep.sendable h.settled.tracked h.sendable
  outbound := (hstep.outbound h.settled.tracked hwrite).trans h.outbound
  taken_le := h.taken_le
  atEof heof := h.atEof (by rw [← hthread]; exact heof)
  inbound := h.inbound.trans (hstep.inbound.1 hread).symm
  done hdone := hstep.inbound.2 (h.done (by rw [← hshutdown]; exact hdone))
  wire := h.wire_mono hstep

/-- An event that leaves the connection alone. -/
theorem Relayed.of_same (h : Relayed e) {socket : TCPSpongeSocket}
    (htcp : socket.tcp = e.socket.tcp) (hthread : socket.threadData = e.socket.threadData)
    (hin : socket.inboundShutdown = e.socket.inboundShutdown)
    (hout : socket.outboundShutdown = e.socket.outboundShutdown) (adapter : α)
    (passed : List δ) : Relayed { e with socket, adapter, passed } := by
  constructor <;> dsimp only
  · exact ⟨by rw [htcp]; exact h.settled.tracked, by rw [htcp, hout]; exact h.settled.shutdown⟩
  · rw [htcp]; exact h.sendable
  · rw [htcp]; exact h.outbound
  · exact h.taken_le
  · rw [hthread]; exact h.atEof
  · rw [htcp]; exact h.inbound
  · rw [htcp, hin]; exact h.done
  · rw [htcp]; exact h.wire

theorem Relayed.readSegment (h : Relayed e) (hrun : readSegment a e = .ok e') : Relayed e' := by
  obtain ⟨segment, adapter, socket, -, hsocket, rfl⟩ := readSegment_cases hrun
  obtain ⟨hthread, hin, -⟩ := TCPSpongeSocket.readSegment_frame hsocket
  obtain ⟨-, hout, ⟨-, htcp⟩ | ⟨seg, -, hstep⟩⟩ := TCPSpongeSocket.readSegment_cases hsocket
  · exact h.of_same htcp hthread hin hout adapter _
  · have hop : e.socket.tcp.Step (.segmentReceived seg) socket.tcp := hstep
    exact h.of_step hop (by simp) (by simp) (h.settled.readSegment hsocket) hthread hin adapter _

omit [FdAdapter α δ] in
/-- What rule 2 reads continues what was taken before. -/
theorem dataRead_prefix : TCPSpongeSocket.dataRead { available := available a e } e.socket <+:
    e.outbox.drop e.taken :=
  (List.take_prefix _ _).trans (List.take_prefix _ _)

/-- The descriptor only reports its end when the application has written all it will write. -/
theorem Relayed.eof_read (h : Relayed e) (hclosed : e.pending = [] → e.outboxClosed = true)
    (heof : (e.socket.threadData.read e.socket.tcp.remainingOutboundCapacity
      (available a e)).2.eof = true) : e.outboxClosed = true ∧ e.taken = e.outbox.length := by
  simp only [FileDescriptor.read, FileDescriptor.registerRead] at heof
  split at heof
  · rename_i hempty
    -- the kernel hands over nothing only if there is nothing
    have hpending : e.pending = [] := by
      obtain ⟨hlimit, hlength⟩ := hempty
      rw [List.length_take] at hlength
      have havailable : (available a e).length = 0 := by omega
      rw [available, List.length_take] at havailable
      exact List.length_eq_zero_iff.mp (by omega)
    refine ⟨hclosed hpending, ?_⟩
    have hle := h.taken_le
    have hlength := congrArg List.length hpending
    rw [pending, List.length_drop, List.length_nil] at hlength
    omega
  · exact h.atEof heof

/-- Ending the outbound stream. -/
theorem Relayed.cancelData (h : Relayed e) : Relayed { e with socket := e.socket.cancelData } := by
  have hstep : e.socket.tcp.Step .endInputStream e.socket.cancelData.tcp := rfl
  exact h.of_step hstep (by simp) (by simp) h.settled.cancelData rfl rfl e.adapter e.passed

theorem Relayed.readData (h : Relayed e) (hrun : readData a e = .ok e') : Relayed e' := by
  obtain ⟨hclosed, socket, hsocket, rfl⟩ := readData_cases hrun
  obtain ⟨haccepted, hcases⟩ := TCPSpongeSocket.readData_cases hsocket
  have hstep : e.socket.tcp.Step (.write _)
    (TCPSpongeSocket.dataWritten { available := available a e } e.socket).tcp := rfl
  have hprefix := dataRead_prefix (a := a) (e := e)
  have hlength := hprefix.length_le
  rw [List.length_drop] at hlength
  have hle := h.taken_le
  -- the bytes are written first
  have hwritten : Relayed { e with
      socket := TCPSpongeSocket.dataWritten { available := available a e } e.socket
      taken := e.taken +
        (TCPSpongeSocket.dataRead { available := available a e } e.socket).length } := by
    constructor
    case settled => exact h.settled.of_step (.write _) hstep (by simp) rfl rfl
    case sendable => exact hstep.sendable h.settled.tracked h.sendable
    case outbound =>
      rw [List.take_add, ← h.outbound, ← List.prefix_iff_eq_take.mp hprefix]
      exact TCPConnection.write_outbound h.settled.tracked haccepted
    case taken_le => dsimp only; omega
    case atEof =>
      intro heof
      obtain ⟨hshut, htaken⟩ := h.eof_read hclosed heof
      exact ⟨hshut, by dsimp only; omega⟩
    case inbound => exact h.inbound.trans (hstep.inbound.1 (by simp)).symm
    case done => exact fun hdone => hstep.inbound.2 (h.done hdone)
    case wire => exact h.wire_mono hstep
  -- and then the stream may be ended
  rcases hcases with rfl | ⟨-, rfl⟩
  · exact hwritten
  · exact hwritten.cancelData

theorem Relayed.writeData (h : Relayed e) (hrun : writeData a e = .ok e') : Relayed e' := by
  obtain ⟨socket, hsocket, rfl⟩ := writeData_cases hrun
  obtain ⟨htcp, heof, hdone⟩ := TCPSpongeSocket.writeData_cases hsocket
  have hstep : e.socket.tcp.Step (.readInbound _) socket.tcp := congrArg Except.ok htcp.symm
  constructor
  case settled => exact h.settled.writeData hsocket
  case sendable => exact hstep.sendable h.settled.tracked h.sendable
  case outbound => exact (hstep.outbound h.settled.tracked (by simp)).trans h.outbound
  case taken_le => exact h.taken_le
  case atEof =>
    intro hend
    exact h.atEof (heof.symm.trans hend)
  case inbound =>
    dsimp only
    rw [htcp, TCPConnection.readOut_readInbound, ← h.inbound]
    -- the kernel takes a part of what it is offered
    simp only [ByteStream.peekOutput, ByteStream.bufferSize, List.take_take, List.length_take]
    congr 2
    omega
  case done =>
    intro hshutdown
    rcases hdone hshutdown with hold | hnow
    · exact hstep.inbound.2 (h.done hold)
    · exact hnow
  case wire => exact h.wire_mono hstep

theorem Relayed.writeSegments (h : Relayed e) (hrun : writeSegments a e = .ok e') :
    Relayed e' := by
  obtain ⟨datagrams, socket, hwritten, -, htcp, hthread, hin, hout, rfl⟩ :=
    writeSegments_cases hrun
  have hsame := h.of_same htcp hthread hin hout e.adapter e.passed
  refine { hsame with wire := fun d hd => ?_ }
  rcases List.mem_append.mp hd with hold | hnew
  · exact hsame.wire d hold
  · obtain ⟨seg, hmem, random, hwrite⟩ := mem_writeAll hwritten d hnew
    refine ⟨e.adapter, seg, random, ?_, hwrite⟩
    dsimp only
    rw [htcp]
    exact List.mem_of_mem_drop hmem

end Relayed

/-! ## §4 Runs -/

section Runs

variable {e e' : Endpoint α δ}

/-- One function of a rule. -/
theorem relays_of_action {action : Action (Endpoint α δ) (SystemAnswer δ) EndpointException}
    (hrule : action.rule ∈ rules α δ) (h : action.Step e e') :
    Advances e e' ∧ (Relayed e → Relayed e') := by
  cases action with
  | cancel rule =>
    simp only [Action.rule, rules, List.mem_cons, List.not_mem_nil, or_false] at hrule
    cases h
    rcases hrule with rfl | rfl | rfl | rfl
    · exact ⟨.cancel TCPSpongeSocket.rule1 (by simp), id⟩
    · exact ⟨.cancel TCPSpongeSocket.rule2 (by simp), Relayed.cancelData⟩
    · exact ⟨.cancel TCPSpongeSocket.rule3 (by simp), id⟩
    · exact ⟨.cancel TCPSpongeSocket.rule4 (by simp), id⟩
  | call rule answer =>
    simp only [Action.rule, rules, List.mem_cons, List.not_mem_nil, or_false] at hrule
    rcases hrule with rfl | rfl | rfl | rfl
    · exact ⟨.readSegment h, fun hs => hs.readSegment h⟩
    · exact ⟨.readData h, fun hs => hs.readData h⟩
    · exact ⟨.writeData h, fun hs => hs.writeData h⟩
    · exact ⟨.writeSegments h, fun hs => hs.writeSegments h⟩

theorem relays_of_actions
    {actions : List (Action (Endpoint α δ) (SystemAnswer δ) EndpointException)}
    (hrules : ∀ action ∈ actions, action.rule ∈ rules α δ) (h : Trace Action.Step e actions e') :
    Advances e e' ∧ (Relayed e → Relayed e') := by
  induction h with
  | nil e => exact ⟨.refl e, id⟩
  | cons hstep _ ih =>
    obtain ⟨hrule, hrest⟩ := List.forall_mem_cons.mp hrules
    obtain ⟨hadv₁, hrel₁⟩ := relays_of_action hrule hstep
    obtain ⟨hadv₂, hrel₂⟩ := ih hrest
    exact ⟨hadv₁.trans hadv₂, hrel₂ ∘ hrel₁⟩

/-- The clock. -/
theorem relays_of_tick (e : Endpoint α δ) (ms : UInt64) :
    Advances e { e with socket := e.socket.tick ms } ∧
      (Relayed e → Relayed { e with socket := e.socket.tick ms }) := by
  unfold TCPSpongeSocket.tick
  split
  · rename_i hactive
    have hstep : e.socket.tcp.Step (.tick ms) (e.socket.tcp.tick ms) := rfl
    refine ⟨.of_ops [.tick ms] (.cons hstep (.nil _)) (by simp) rfl List.prefix_rfl rfl,
      fun hs => ?_⟩
    have hsettled := hs.settled.tick ms
    rw [TCPSpongeSocket.tick, if_pos hactive] at hsettled
    exact hs.of_step hstep (by simp) (by simp) hsettled rfl rfl e.adapter e.passed
  · exact ⟨.refl e, id⟩

/-- The application writes. -/
theorem Relayed.write (h : Relayed e) (hopen : e.outboxClosed = false) (data : Bytes) :
    Relayed { e with outbox := e.outbox ++ data } := by
  have hle := h.taken_le
  refine { h with outbound := ?_, taken_le := ?_, atEof := fun heof => ?_ }
  · rw [h.outbound]
    exact (List.take_append_of_le_length hle).symm
  · dsimp only
    rw [List.length_append]
    omega
  · rw [(h.atEof heof).1] at hopen
    cases hopen

/-- **One event of an endpoint.** -/
theorem Running.Step.relays {r r' : Running α δ} {event : Event δ}
    (h : r.Step event r') (hrules : r.rules.Sublist (Endpoint.rules α δ)) :
    r'.rules.Sublist (Endpoint.rules α δ) ∧ Advances r.endpoint r'.endpoint ∧
      (Relayed r.endpoint → Relayed r'.endpoint) := by
  cases event with
  | waitNextEvent poll =>
    obtain ⟨result, hpass⟩ := h
    obtain ⟨actions, htrace, hactions⟩ := EventLoop.waitNextEvent_actions hpass
    have hsub := (EventLoop.waitNextEvent_invariant (I := fun _ => True)
      (fun _ _ _ _ => trivial) (fun _ _ _ _ _ _ _ => trivial) hpass trivial).1
    exact ⟨hsub.trans hrules,
      relays_of_actions (fun action haction => hrules.subset (hactions action haction).1) htrace⟩
  | tick ms =>
    cases h
    exact ⟨hrules, relays_of_tick r.endpoint ms⟩
  | write data =>
    obtain ⟨hopen, rfl⟩ := h
    exact ⟨hrules, ⟨⟨[], .nil _, by simp⟩, List.prefix_rfl, List.prefix_rfl,
      List.prefix_append _ _⟩, fun hs => hs.write hopen data⟩
  | shutdown =>
    cases h
    exact ⟨hrules, ⟨⟨[], .nil _, by simp⟩, List.prefix_rfl, List.prefix_rfl, List.prefix_rfl⟩,
      fun hs => { hs with atEof := fun heof => ⟨rfl, (hs.atEof heof).2⟩ }⟩

/-- A fresh endpoint. -/
theorem Relayed.new {tcp : TCPConnection} (ht : Tracked tcp.sender) (hsend : tcp.AllSendable)
    (hout : tcp.sender.stream.written = []) (hended : tcp.sender.stream.inputEnded = false)
    (hin : tcp.receiver.readOut = []) (adapter : α) :
    Relayed ({ socket := { tcp }, adapter } : Endpoint α δ) where
  settled := ⟨ht, fun h => by rw [hended] at h; cases h⟩
  sendable := hsend
  outbound := hout
  taken_le := Nat.le_refl _
  atEof := by rintro ⟨⟩
  inbound := hin.symm
  done := by rintro ⟨⟩
  wire := by simp

end Runs

/-! ## §5 Opening -/

namespace Opening

variable (o : Opening α)

theorem rules_start : (o.start : Running α δ).rules = rules α δ := by
  unfold start
  split <;> rfl

/-- Opening a socket performs at most a `connect`. -/
theorem trace_start : ∃ ops, (∀ op ∈ ops, op = .connect) ∧
    Trace TCPConnection.Step (.new o.config o.randomDevice) ops
      (o.start : Running α δ).endpoint.socket.tcp := by
  unfold start
  split
  · exact ⟨[.connect], by simp, .cons rfl (.nil _)⟩
  · exact ⟨[], by simp, .nil _⟩

/-- A fresh connection can be run by a socket, and so can one that has sent its SYN. -/
theorem relayed_start : Relayed (o.start : Running α δ).endpoint := by
  have hnew := Tracked.new o.config.sendCapacity o.config.rtTimeout o.config.fixedIsn o.randomDevice
  have hsend : (TCPConnection.new o.config o.randomDevice).AllSendable := by
    simp [TCPConnection.AllSendable, TCPConnection.new]
  unfold start
  split
  · have hstep : (TCPConnection.new o.config o.randomDevice).Step .connect _ := rfl
    refine .new (hstep.sender_moves.tracked hnew).1 (hstep.sendable hnew hsend) ?_ ?_ ?_ _
    · exact hstep.outbound hnew (by simp)
    · by_contra hended
      have hopen := hstep.inputEnded hnew (by simp) (by simpa using hended)
      cases hopen
    · exact hstep.inbound.1 (by simp)
  · exact .new hnew hsend rfl rfl rfl _

end Opening

/-- **A whole run of an endpoint.** -/
theorem relays_of_trace {o : Opening α} {events : List (Event δ)} {r : Running α δ}
    (h : Trace Running.Step o.start events r) :
    r.rules.Sublist (rules α δ) ∧ Advances (o.start : Running α δ).endpoint r.endpoint ∧
      Relayed r.endpoint := by
  refine h.invariant (I := fun r => r.rules.Sublist (rules α δ) ∧
    Advances (o.start : Running α δ).endpoint r.endpoint ∧ Relayed r.endpoint) ?_ ?_
  · rintro r event r' ⟨hrules, hadvances, hrelayed⟩ hstep
    obtain ⟨hrules', hadvances', hrelayed'⟩ := hstep.relays hrules
    exact ⟨hrules', hadvances.trans hadvances', hrelayed' hrelayed⟩
  · refine ⟨?_, .refl _, o.relayed_start⟩
    rw [o.rules_start]

end Endpoint

end Sponge
