import Sponge.Connection.Silence
import Sponge.Receiver.Window

/-!
# Acknowledgements and Windows over Whole Runs

The segments that a connection emits, in the order of their emission, each with the state of the
connection after the operation that emitted it.  The acknowledged number and the right edge of
the window never go back along this log, whatever arrives and whatever the owner does.

- `appended c d`: the segments emitted between two states
- `Step.receiver_forward`: no operation takes back what the receiver has promised
- `right_edge_iff`: the advertised numbers over whole runs

The value of `window_size()` is always right.  But it is the difference of two numbers of which
the larger one, `first_unread() + capacity`, may overflow, and then the subtraction underflows.
-/

namespace Sponge

namespace TCPConnection

open TCPSender (Tracked)
open TCPReceiver (Forward)

/-! ## §1 The log of a connection -/

/-- The segments put on the outbound queue between two states. -/
def appended (c d : TCPConnection) : List TCPSegment :=
  d.segmentsOut.drop c.segmentsOut.length

theorem appended_eq {c d : TCPConnection} {new : List TCPSegment}
    (h : d.segmentsOut = c.segmentsOut ++ new) : appended c d = new := by
  rw [appended, h, List.drop_left]

@[simp] theorem appended_cleanShutdown (c d : TCPConnection) :
    appended c d.cleanShutdown = appended c d := by
  rw [appended, cleanShutdown_segmentsOut, appended]

/-- The segments with ACK set. -/
def acks (log : List (TCPConnection × TCPSegment)) : List (TCPConnection × TCPSegment) :=
  log.filter fun e => e.2.header.ack

/-- What a log of emitted segments says to the peer, when the receiver has this capacity. -/
structure EdgeAdvances (capacity : UInt64) (log : List (TCPConnection × TCPSegment)) : Prop where
  -- every acknowledgement is the one of the receiver
  ackno : ∀ e ∈ acks log,
    e.2.header.ackno = wrap e.1.receiver.absAckno e.1.receiver.isn
  -- all of them are counted from the same number
  isn : (acks log).Pairwise fun a b => b.1.receiver.isn = a.1.receiver.isn
  ackno_mono : (acks log).Pairwise fun a b => a.1.receiver.absAckno ≤ b.1.receiver.absAckno
  edge_mono : (acks log).Pairwise fun a b =>
    a.1.receiver.absAckno + a.2.header.win.toNat ≤ b.1.receiver.absAckno + b.2.header.win.toNat
  win : ∀ e ∈ acks log,
    e.2.header.win.toNat = min 65535 (capacity.toNat - e.1.inboundStream.bufferSize)

/-! ## §2 One operation -/

section Step

variable {c d : TCPConnection} {op : Op}

/-- **No operation takes back what the receiver has promised.** -/
theorem Step.receiver_forward (h : c.Step op d) : Forward c.receiver d.receiver := by
  cases h.receiver_moves with
  | same h =>
    rw [h]
    exact .refl _
  | failed h =>
    rw [h]
    exact ⟨⟨id, List.prefix_rfl, id⟩, fun _ => rfl, Nat.le_refl _, rfl, rfl⟩
  | read len h =>
    rw [h]
    refine ⟨⟨id, List.prefix_rfl, id⟩, fun _ => rfl, ?_, rfl, rfl⟩
    exact Nat.le_add_right _ _
  | received seg _ _ _ h => exact .received h

/-- Both capacities of the receiver are the configured one. -/
def Sized (capacity : UInt64) (r : TCPReceiver) : Prop :=
  r.streamOut.capacity = capacity ∧ r.reassembler.capacity = capacity

theorem Sized.step {capacity : UInt64} (hc : Sized capacity c.receiver) (h : c.Step op d) :
    Sized capacity d.receiver :=
  ⟨h.receiver_forward.outputCapacity.trans hc.1, h.receiver_forward.capacity.trans hc.2⟩

theorem advertisedWindow_toNat (r : TCPReceiver) :
    (advertisedWindow r).toNat = min 65535 r.windowSize := by
  unfold advertisedWindow
  split
  · rename_i hle
    rw [UInt16.toNat_ofNat', Nat.mod_eq_of_lt (by omega), Nat.min_eq_right hle]
  · rename_i hlt
    rw [Nat.min_eq_left (by omega)]
    rfl

/-- The acknowledgement and the window of an emitted segment. -/
theorem Step.appended_ack {capacity : UInt64} (h : c.Step op d) (ht : Tracked c.sender)
    (hc : Sized capacity c.receiver) : ∀ seg ∈ appended c d, seg.header.ack = true →
      d.receiver.ackno = some seg.header.ackno ∧
        seg.header.win.toNat = min 65535 (capacity.toNat - d.inboundStream.bufferSize) := by
  obtain ⟨new, hout, hnew⟩ := h.emits ht
  obtain ⟨houtput, hreassembler⟩ := hc.step h
  intro seg hmem hack
  rw [appended_eq hout] at hmem
  obtain ⟨base, -, hcompleted⟩ := hnew seg hmem
  refine ⟨hcompleted.ack hack, ?_⟩
  rw [hcompleted.win hack, advertisedWindow_toNat,
    TCPReceiver.windowSize_eq (houtput.trans hreassembler.symm), houtput]
  rfl

end Step

theorem absAckno_of_ackno {r : TCPReceiver} {a : WrappingInt32} (h : r.ackno = some a) :
    r.syn = true ∧ a = wrap r.absAckno r.isn := by
  unfold TCPReceiver.ackno at h
  cases hsyn : r.syn with
  | false => simp [hsyn] at h
  | true =>
    simp only [hsyn, Bool.not_true, Bool.false_eq_true, if_false, Option.some.injEq] at h
    exact ⟨rfl, h.symm⟩

/-! ## §3 Whole runs -/

section Runs

variable {cfg : TCPConfig} {randomDevice : UInt32} {ops : List Op} {c : TCPConnection}
  {log : List (TCPConnection × TCPSegment)}

theorem sized_of_trace (h : Execution.Trace Step (.new cfg randomDevice) ops c) :
    Sized cfg.recvCapacity c.receiver :=
  h.invariant (I := fun c => Sized cfg.recvCapacity c.receiver)
    (fun _ _ _ hs hstep => hs.step hstep) ⟨rfl, rfl⟩

/-- Every acknowledgement of a run. -/
theorem acks_of_logged (h : Execution.Logged Step appended (.new cfg randomDevice) ops c log) :
    ∀ e ∈ acks log, e.1.receiver.ackno = some e.2.header.ackno ∧
      e.1.inboundStream.capacity = cfg.recvCapacity ∧
      e.2.header.win.toNat =
        min 65535 (cfg.recvCapacity.toNat - e.1.inboundStream.bufferSize) := by
  have hall := h.forall_mem (I := fun c => Tracked c.sender ∧ Sized cfg.recvCapacity c.receiver)
    (G := fun _ _ => True)
    (Q := fun d seg => d.inboundStream.capacity = cfg.recvCapacity ∧
      (seg.header.ack = true → d.receiver.ackno = some seg.header.ackno ∧
        seg.header.win.toNat =
          min 65535 (cfg.recvCapacity.toNat - d.inboundStream.bufferSize))) ?_
    ⟨Tracked.new cfg.sendCapacity cfg.rtTimeout cfg.fixedIsn randomDevice, rfl, rfl⟩
    (Execution.along_of_forall (fun _ _ => trivial) ops _)
  · intro e he
    obtain ⟨hmem, hack⟩ := List.mem_filter.mp he
    obtain ⟨hcapacity, hfields⟩ := hall e hmem
    exact ⟨(hfields hack).1, hcapacity, (hfields hack).2⟩
  · rintro c op d ⟨ht, hc⟩ - hstep
    refine ⟨⟨(hstep.sender_moves.tracked ht).1, hc.step hstep⟩, fun seg hmem => ?_⟩
    exact ⟨(hc.step hstep).1, hstep.appended_ack ht hc seg hmem⟩

/-- The log of a run goes forward. -/
theorem edgeAdvances_of_logged
    (h : Execution.Logged Step appended (.new cfg randomDevice) ops c log) :
    EdgeAdvances cfg.recvCapacity log := by
  have hacks := acks_of_logged h
  have hforward : (acks log).Pairwise fun a b => Forward a.1.receiver b.1.receiver :=
    (h.pairwise (R := fun c d => Forward c.receiver d.receiver) (fun c => .refl c.receiver)
      (fun _ _ _ => Forward.trans) (fun _ _ _ hstep => hstep.receiver_forward)).2.filter _
  constructor
  case ackno => exact fun e he => (absAckno_of_ackno (hacks e he).1).2
  case isn =>
    refine hforward.imp_of_mem fun ha _ hab => ?_
    exact hab.isn (absAckno_of_ackno (hacks _ ha).1).1
  case ackno_mono => exact hforward.imp fun hab => hab.absAckno_le
  case edge_mono =>
    refine hforward.imp_of_mem fun {a b} ha hb hab => ?_
    -- the number the peer computes is the right edge of the receiver
    have hedge : ∀ e ∈ acks log,
        e.1.receiver.absAckno + e.2.header.win.toNat = e.1.receiver.rightEdge := by
      intro e he
      obtain ⟨-, hcapacity, hwin⟩ := hacks e he
      rw [hwin, ← hcapacity]
      rfl
    rw [hedge a ha, hedge b hb]
    exact hab.rightEdge_le
  case win => exact fun e he => (hacks e he).2.2

/-- **The advertised right edge never retreats.**  In every run, the acknowledged numbers and
    the right edges go forward and the window is the free room, clamped to 16 bits; the
    subtraction of `window_size()` does not underflow in the state reached if and only if the end
    of the window, `bytes_read + capacity`, is a `size_t`. -/
theorem right_edge_iff
    (h : Execution.Logged Step appended (.new cfg randomDevice) ops c log) :
    (EdgeAdvances cfg.recvCapacity log ∧
      c.receiver.reassembler.firstUnassembled ≤ c.receiver.reassembler.firstUnacceptable) ↔
    c.inboundStream.bytesRead + cfg.recvCapacity.toNat < 2 ^ 64 := by
  obtain ⟨houtput, hreassembler⟩ := sized_of_trace h.trace
  have hiff := TCPReceiver.firstUnassembled_le_firstUnacceptable_iff
    (houtput.trans hreassembler.symm)
  rw [houtput] at hiff
  exact ⟨fun ⟨_, hle⟩ => hiff.mp hle, fun hlt => ⟨edgeAdvances_of_logged h, hiff.mpr hlt⟩⟩

end Runs

/-- A SYN that carries one byte. -/
def synWithByte : TCPSegment :=
  { header := { syn := true }, payload := [7] }

/-- The byte after it. -/
def nextByte : TCPSegment :=
  { header := { seqno := ⟨2⟩ }, payload := [8] }

/-- The first byte arrives with the SYN and is read; then the next one arrives.  The two
    acknowledgements go forward with the same window. -/
theorem right_edge_iff_bytes : ∃ c log,
    Execution.Logged Step appended (.new {} 0)
        [.segmentReceived synWithByte, .readInbound 1, .segmentReceived nextByte] c log ∧
      log.map (fun e => (e.2.header.ackno, e.2.header.win)) = [(⟨2⟩, 63999), (⟨3⟩, 63999)] ∧
      EdgeAdvances 64000 log ∧
      c.receiver.reassembler.firstUnassembled ≤ c.receiver.reassembler.firstUnacceptable := by
  have h : Execution.Logged Step appended (.new {} 0)
      [.segmentReceived synWithByte, .readInbound 1, .segmentReceived nextByte] _ _ :=
    .cons rfl (.cons rfl (.cons rfl (.nil _)))
  exact ⟨_, _, h, rfl, (right_edge_iff h).mpr (by decide)⟩

/-- With the largest capacity, the first byte that is read makes the end of the window overflow.
    The acknowledgement that answers the next byte is computed with a subtraction that underflows;
    and that byte is not taken. -/
theorem right_edge_fails : ∃ c log,
    Execution.Logged Step appended (.new { recvCapacity := UInt64.ofNat (2 ^ 64 - 1) } 0)
        [.segmentReceived synWithByte, .readInbound 1, .segmentReceived nextByte] c log ∧
      log.map (fun e => (e.2.header.ackno, e.2.header.win)) = [(⟨2⟩, 65535), (⟨2⟩, 65535)] ∧
      ¬ c.receiver.reassembler.firstUnassembled ≤
        c.receiver.reassembler.firstUnacceptable := by
  have h : Execution.Logged Step appended
      (.new { recvCapacity := UInt64.ofNat (2 ^ 64 - 1) } 0)
      [.segmentReceived synWithByte, .readInbound 1, .segmentReceived nextByte] _ _ :=
    .cons rfl (.cons rfl (.cons rfl (.nil _)))
  exact ⟨_, _, h, rfl, by decide⟩

end TCPConnection

end Sponge
