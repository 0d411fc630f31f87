import Sponge.Connection.Progress
import Sponge.TCPSpongeSocket

/-!
# Writing What was Advertised

Rule 2 of a socket reads as many bytes from the application as the connection has room for, and
throws when the connection does not take them all.  Whether the connection is active is asked
before the poll.  If rule 1 then delivers a reset in the same pass, the connection takes nothing.

- `Settled s`: the invariant of a socket between two events
- `readData_eq_acceptedLess_iff`: when the callback of rule 2 throws
- `ResetRace r poll`: a reset and bytes of the application in one pass
- `write_accepts_iff`: nothing else makes the callback throw
-/

namespace Sponge

open EventLoop (Rule Poll Revents prepare dispatch)
open TCPSender (Tracked)

/-! ## §1 The outbound stream of a connection -/

namespace TCPConnection

variable {c d : TCPConnection} {op : Op}

/-- Only `end_input_stream` ends the outbound stream. -/
theorem Step.inputEnded (h : c.Step op d) (ht : Tracked c.sender) (hop : op ≠ .endInputStream)
    (hd : d.sender.stream.inputEnded = true) : c.sender.stream.inputEnded = true := by
  obtain ⟨ops, hrun, -, hcauses⟩ := h.sender_moves
  rw [hrun] at hd
  rcases ht.inputEnded_run hd with hc | hmem
  · exact hc
  · exact absurd (hcauses _ hmem) hop

/-- A connection whose outbound stream is open only becomes inactive by a reset. -/
theorem segmentReceived_active {seg : TCPSegment} (h : c.segmentReceived seg = .ok d)
    (ht : Tracked c.sender) (hopen : c.sender.stream.inputEnded = false)
    (hactive : c.isactive = true) (hrst : seg.header.rst = false) : d.isactive = true := by
  have hd : d.sender.stream.inputEnded = false := by
    cases hended : d.sender.stream.inputEnded with
    | false => rfl
    | true =>
      have hstep : c.Step (.segmentReceived seg) d := h
      rw [hstep.inputEnded ht (by simp) hended] at hopen
      cases hopen
  rcases segmentReceived_cases h with
    ⟨hc, -⟩ | ⟨-, hreset, -⟩ | ⟨-, -, r, -, ⟨-, -, rfl⟩ | ⟨-, rfl⟩⟩
  · rw [hc] at hactive
    cases hactive
  · rw [hreset] at hrst
    cases hrst
  · exact hactive
  · -- a clean shutdown needs a FIN, which the end of the stream precedes
    by_contra hinactive
    rcases cleanShutdown_inactive (Bool.eq_false_iff.mpr hinactive) with hc | hfinished
    · rw [show c.isactive = false from hc] at hactive
      cases hactive
    · have heof := TCPSender.eof_of_finAcked hfinished.1
      rw [((ByteStream.eof_iff _).mp heof).1] at hd
      cases hd

/-- A reset makes the connection inactive and leaves the outbound buffer alone. -/
theorem segmentReceived_reset {seg : TCPSegment} (hactive : c.isactive = true)
    (hrst : seg.header.rst = true) : ∃ d, c.segmentReceived seg = .ok d ∧ d.isactive = false ∧
      d.remainingOutboundCapacity = c.remainingOutboundCapacity :=
  ⟨{ c with timeSinceLastSegmentReceived := 0 }.uncleanShutdown,
    by simp [segmentReceived, hactive, hrst], rfl, rfl⟩

/-- How much a write accepts of what there is room for. -/
theorem write_accepts {data : Bytes} (hroom : data.length ≤ c.remainingOutboundCapacity) :
    (c.write data).2 ≠ data.length ↔
      data ≠ [] ∧ (c.isactive = false ∨ c.sender.stream.inputEnded = true) := by
  unfold write
  cases hactive : c.isactive with
  | false => cases data <;> simp
  | true =>
    cases data with
    | nil => simp
    | cons b data =>
      have hsize : c.sender.stream.writeSize (b :: data) = (b :: data).length :=
        Nat.min_eq_left hroom
      cases hended : c.sender.stream.inputEnded with
      | false => simp [ByteStream.write, hended, hsize]
      | true => simp [ByteStream.write, hended]

end TCPConnection

/-! ## §2 The callbacks -/

namespace TCPSpongeSocket

/-- What holds of a socket between two events. -/
structure Settled (s : TCPSpongeSocket) : Prop where
  tracked : Tracked s.tcp.sender
  -- the socket knows when it has ended the outbound stream
  shutdown : s.tcp.sender.stream.inputEnded = true → s.outboundShutdown = true

section Callbacks

variable {s t : TCPSpongeSocket} {a : Answer}

theorem Settled.inputEnded (h : Settled s) (hshutdown : s.outboundShutdown = false) :
    s.tcp.sender.stream.inputEnded = false := by
  by_contra hended
  rw [h.shutdown (by simpa using hended)] at hshutdown
  cases hshutdown

/-- An operation of the connection that does not end the outbound stream. -/
theorem Settled.of_step (h : Settled s) (op : TCPConnection.Op) {tcp : TCPConnection}
    (hstep : s.tcp.Step op tcp) (hop : op ≠ .endInputStream) (htcp : t.tcp = tcp)
    (hshutdown : t.outboundShutdown = s.outboundShutdown) : Settled t := by
  subst htcp
  refine ⟨(hstep.sender_moves.tracked h.tracked).1, fun hended => ?_⟩
  rw [hshutdown]
  exact h.shutdown (hstep.inputEnded h.tracked hop hended)

theorem Settled.endInput (h : Settled s) (htcp : t.tcp = s.tcp.endInputStream)
    (hshutdown : t.outboundShutdown = true) : Settled t := by
  have hstep : s.tcp.Step .endInputStream t.tcp := by
    rw [htcp]
    rfl
  exact ⟨(hstep.sender_moves.tracked h.tracked).1, fun _ => hshutdown⟩

/-- What the callback of rule 1 does to the connection. -/
theorem readSegment_cases (h : readSegment a s = .ok t) :
    a.fails = false ∧ t.outboundShutdown = s.outboundShutdown ∧
      ((a.segment = none ∧ t.tcp = s.tcp) ∨
        ∃ seg, a.segment = some seg ∧ s.tcp.segmentReceived seg = .ok t.tcp) := by
  unfold readSegment at h
  split at h
  · cases h
  · rename_i hfails
    dsimp only at h
    split at h
    · cases h
    · rename_i tcp hreceived
      have ht : t.outboundShutdown = s.outboundShutdown ∧ t.tcp = tcp := by
        split at h <;> cases h <;> exact ⟨rfl, rfl⟩
      refine ⟨by simpa using hfails, ht.1, ?_⟩
      rw [ht.2]
      split at hreceived
      · rename_i hnone
        cases hreceived
        exact .inl ⟨hnone, rfl⟩
      · rename_i seg hseg
        exact .inr ⟨seg, hseg, hreceived⟩

theorem readSegment_ne_acceptedLess : readSegment a s ≠ .error .acceptedLess := by
  unfold readSegment
  dsimp only
  split
  · simp
  · split
    · simp
    · split <;> simp

theorem Settled.readSegment (hs : Settled s) (h : readSegment a s = .ok t) : Settled t := by
  obtain ⟨-, hshutdown, ⟨-, htcp⟩ | ⟨seg, -, hreceived⟩⟩ := readSegment_cases h
  · exact ⟨by rw [htcp]; exact hs.tracked, by rw [htcp, hshutdown]; exact hs.shutdown⟩
  · exact hs.of_step (.segmentReceived seg) hreceived (by simp) rfl hshutdown

/-- The bytes that rule 2 reads. -/
def dataRead (a : Answer) (s : TCPSpongeSocket) : Bytes :=
  (s.threadData.read s.tcp.remainingOutboundCapacity a.available).1

theorem length_dataRead_le : (dataRead a s).length ≤ s.tcp.remainingOutboundCapacity := by
  simp only [dataRead, FileDescriptor.read, List.length_take]
  omega

/-- The socket after the bytes are written. -/
def dataWritten (a : Answer) (s : TCPSpongeSocket) : TCPSpongeSocket :=
  { s with
    threadData := (s.threadData.read s.tcp.remainingOutboundCapacity a.available).2
    tcp := (s.tcp.write (dataRead a s)).1 }

/-- At the end of the application's data, the callback does what `cancel` does. -/
theorem readData_eq : readData a s =
    if a.fails then .error .unixError
    else if (s.tcp.write (dataRead a s)).2 ≠ (dataRead a s).length then .error .acceptedLess
    else if (dataWritten a s).threadData.eof then .ok (cancelData (dataWritten a s))
    else .ok (dataWritten a s) := rfl

/-- **When the callback of rule 2 throws.** -/
theorem readData_eq_acceptedLess_iff : readData a s = .error .acceptedLess ↔
    a.fails = false ∧ dataRead a s ≠ [] ∧
      (s.tcp.isactive = false ∨ s.tcp.sender.stream.inputEnded = true) := by
  rw [← TCPConnection.write_accepts length_dataRead_le, readData_eq]
  cases a.fails with
  | true => simp
  | false =>
    by_cases hless : (s.tcp.write (dataRead a s)).2 ≠ (dataRead a s).length
    · simp [hless]
    · rw [if_neg Bool.false_ne_true, if_neg hless]
      split <;> simp [hless]

theorem Settled.cancelData (hs : Settled s) : Settled s.cancelData :=
  hs.endInput rfl rfl

theorem Settled.readData (hs : Settled s) (h : readData a s = .ok t) : Settled t := by
  have hwritten : Settled (dataWritten a s) :=
    hs.of_step (.write (dataRead a s)) rfl (by simp) rfl rfl
  rw [readData_eq] at h
  split_ifs at h
  · cases h
    exact hwritten.cancelData
  · cases h
    exact hwritten

theorem writeData_ne_acceptedLess : writeData a s ≠ .error .acceptedLess := by
  unfold writeData
  dsimp only
  split_ifs <;> simp

theorem Settled.writeData (hs : Settled s) (h : writeData a s = .ok t) : Settled t := by
  unfold TCPSpongeSocket.writeData at h
  dsimp only at h
  -- whatever is written, it is read from the inbound stream
  have hread : ∃ n, t.tcp = s.tcp.readInbound n ∧ t.outboundShutdown = s.outboundShutdown := by
    split_ifs at h <;> cases h <;> exact ⟨_, rfl, rfl⟩
  obtain ⟨n, htcp, hshutdown⟩ := hread
  exact hs.of_step (.readInbound n) rfl (by simp) htcp hshutdown

theorem writeSegments_ne_acceptedLess : writeSegments a s ≠ .error .acceptedLess := by
  unfold writeSegments
  split <;> simp

theorem Settled.writeSegments (hs : Settled s) (h : writeSegments a s = .ok t) : Settled t := by
  unfold TCPSpongeSocket.writeSegments at h
  split at h
  · cases h
  · cases h
    exact ⟨hs.tracked, hs.shutdown⟩

theorem Settled.tick (hs : Settled s) (ms : UInt64) : Settled (s.tick ms) := by
  unfold TCPSpongeSocket.tick
  split
  · exact hs.of_step (.tick ms) rfl (by simp) rfl rfl
  · exact hs

end Callbacks

/-! ## §3 One pass -/

/-- The rules that have not been erased. -/
def Installed (rules : List (Rule TCPSpongeSocket Answer SocketException)) : Prop :=
  rules.Sublist [rule1, rule2, rule3, rule4]

/-- Every rule keeps the invariant, whether it is called or erased. -/
theorem settled_of_rule {rule : Rule TCPSpongeSocket Answer SocketException}
    (hrule : rule ∈ [rule1, rule2, rule3, rule4]) :
    (∀ s, Settled s → Settled (rule.cancel s)) ∧
      ∀ a s t, Settled s → rule.callback a s = .ok t → Settled t := by
  simp only [List.mem_cons, List.not_mem_nil, or_false] at hrule
  rcases hrule with rfl | rfl | rfl | rfl
  · exact ⟨fun _ hs => hs, fun _ _ _ hs h => hs.readSegment h⟩
  · exact ⟨fun _ hs => hs.cancelData, fun _ _ _ hs h => hs.readData h⟩
  · exact ⟨fun _ hs => hs, fun _ _ _ hs h => hs.writeData h⟩
  · exact ⟨fun _ hs => hs, fun _ _ _ hs h => hs.writeSegments h⟩

/-- **The invariant over one event.** -/
theorem Running.Step.settled {r r' : Running} {event : Event} (h : r.Step event r')
    (hrules : Installed r.rules) (hs : Settled r.socket) :
    Installed r'.rules ∧ Settled r'.socket := by
  cases event with
  | waitNextEvent poll =>
    obtain ⟨result, hpass⟩ := h
    obtain ⟨hsub, hsettled⟩ := EventLoop.waitNextEvent_invariant
      (fun rule hmem => (settled_of_rule (hrules.subset hmem)).1)
      (fun rule hmem => (settled_of_rule (hrules.subset hmem)).2) hpass hs
    exact ⟨hsub.trans hrules, hsettled⟩
  | tick ms =>
    cases h
    exact ⟨hrules, hs.tick ms⟩

section Pass

variable {revents : ℕ → Revents} {answers : ℕ → Answer} {idx : ℕ} {s t : TCPSpongeSocket}
  {rest : List (Rule TCPSpongeSocket Answer SocketException)}

/-- Among the rules, rule 2 is the only one that writes to the connection. -/
theorem dispatch_ne_acceptedLess
    {polled : List (Rule TCPSpongeSocket Answer SocketException × Bool)}
    (hpolled : ∀ p ∈ polled, p.1 ∈ [rule1, rule3, rule4]) :
    dispatch revents answers idx polled s ≠ .error (.thrown .acceptedLess) := by
  apply EventLoop.dispatch_ne_thrown
  intro p hmem a s
  have hrule := hpolled p hmem
  simp only [List.mem_cons, List.not_mem_nil, or_false] at hrule
  rcases hrule with h | h | h <;> rw [h]
  · exact readSegment_ne_acceptedLess
  · exact writeData_ne_acceptedLess
  · exact writeSegments_ne_acceptedLess

/-- What is polled of the rules 3 and 4. -/
theorem mem_prepare_rest (hrest : rest.Sublist [rule3, rule4]) :
    (∀ p ∈ (prepare rest s).1, p.1 ∈ [rule1, rule3, rule4]) ∧ (prepare rest s).2 = s := by
  have hcancel : ∀ rule ∈ rest, ∀ s', s' = s → rule.cancel s' = s := by
    rintro rule hmem s' rfl
    have hrule := hrest.subset hmem
    simp only [List.mem_cons, List.not_mem_nil, or_false] at hrule
    rcases hrule with rfl | rfl <;> rfl
  obtain ⟨hsub, hstate⟩ := EventLoop.prepare_invariant (I := (· = s)) hcancel rfl
  refine ⟨fun p hp => ?_, hstate⟩
  exact List.mem_cons_of_mem _ ((hsub.trans hrest).subset (List.mem_map_of_mem hp))

/-- Rule 2 and those after it, when the state has become `t` since the rules were prepared. -/
theorem dispatch_rule2_iff (hrest : rest.Sublist [rule3, rule4]) :
    dispatch revents answers idx (prepare (rule2 :: rest) s).1 t =
        .error (.thrown .acceptedLess) ↔
      ¬ rule2.Defunct s ∧ rule2.interest s = true ∧ (revents idx).error = false ∧
        (revents idx).event = true ∧ readData (answers idx) t = .error .acceptedLess := by
  by_cases hdefunct : rule2.Defunct s
  · rw [EventLoop.prepare_of_defunct hdefunct]
    simpa [hdefunct] using dispatch_ne_acceptedLess (mem_prepare_rest hrest).1
  · rw [EventLoop.prepare_of_not_defunct hdefunct, EventLoop.dispatch_cons_thrown_iff,
      EventLoop.handle_eq_thrown_iff, or_iff_left]
    · constructor
      · rintro ⟨herror, hinterest, hevent, hthrown⟩
        exact ⟨hdefunct, hinterest, herror, hevent, hthrown⟩
      · rintro ⟨-, hinterest, herror, hevent, hthrown⟩
        exact ⟨herror, hinterest, hevent, hthrown⟩
    · rintro ⟨stays, s', -, hthrown⟩
      exact dispatch_ne_acceptedLess (mem_prepare_rest hrest).1 hthrown

/-- What rule 2 asks for before the poll. -/
theorem interest_rule2_iff : rule2.interest s = true ↔ s.tcp.isactive = true ∧
    s.outboundShutdown = false ∧ 0 < s.tcp.remainingOutboundCapacity := by
  simp [rule2, and_assoc]

/-- The connection takes what rule 2 reads as long as it is as it was before the poll. -/
theorem readData_ne_acceptedLess {a : Answer} (hactive : t.tcp.isactive = true)
    (hopen : t.tcp.sender.stream.inputEnded = false) :
    readData a t ≠ .error .acceptedLess := by
  rw [Ne, readData_eq_acceptedLess_iff, hactive, hopen]
  simp

/-- Before the end of the outbound stream, rule 1 only makes the connection inactive by
    delivering a reset. -/
theorem readSegment_active {a : Answer} (hs : Settled s) (hactive : s.tcp.isactive = true)
    (hshutdown : s.outboundShutdown = false) (h : readSegment a s = .ok t) :
    (t.tcp.isactive = true ∧ t.tcp.sender.stream.inputEnded = false) ∨
      ∃ seg, a.segment = some seg ∧ seg.header.rst = true := by
  have ht := hs.readSegment h
  obtain ⟨-, hsame, hcases⟩ := readSegment_cases h
  have hopen := ht.inputEnded (hsame.trans hshutdown)
  rcases hcases with ⟨-, htcp⟩ | ⟨seg, hseg, hreceived⟩
  · exact .inl ⟨by rw [htcp]; exact hactive, hopen⟩
  · cases hrst : seg.header.rst with
    | true => exact .inr ⟨seg, hseg, hrst⟩
    | false =>
      exact .inl ⟨TCPConnection.segmentReceived_active hreceived hs.tracked
        (hs.inputEnded hshutdown) hactive hrst, hopen⟩

/-- In the state in which the rules were prepared, rule 2 does not throw. -/
theorem dispatch_rule2_ne (hs : Settled s) (hrest : rest.Sublist [rule3, rule4]) :
    dispatch revents answers idx (prepare (rule2 :: rest) s).1 s ≠
      .error (.thrown .acceptedLess) := by
  rw [Ne, dispatch_rule2_iff hrest]
  rintro ⟨-, hinterest, -, -, hthrown⟩
  obtain ⟨hactive, hshutdown, -⟩ := interest_rule2_iff.mp hinterest
  exact readData_ne_acceptedLess hactive (hs.inputEnded hshutdown) hthrown

theorem prepare_rule2_snd (hrest : rest.Sublist [rule3, rule4]) (h : ¬ rule2.Defunct s) :
    (prepare (rule2 :: rest) s).2 = s := by
  rw [EventLoop.prepare_of_not_defunct h]
  exact (mem_prepare_rest hrest).2

end Pass

/-! ## §4 The race -/

/-- In one pass, rule 1 delivers a reset and rule 2 reads bytes of the application. -/
structure ResetRace (r : Running) (revents : ℕ → Revents) (answers : ℕ → Answer) : Prop where
  -- both rules are polled, in the first two positions
  rules : ∃ rest, r.rules = rule1 :: rule2 :: rest
  adapter : ¬ rule1.Defunct r.socket
  threadData : ¬ rule2.Defunct r.socket
  interest : rule2.interest r.socket = true
  -- a reset has arrived
  segmentReady : (revents 0).event = true ∧ (revents 0).error = false
  reset : (answers 0).fails = false ∧
    ∃ seg, (answers 0).segment = some seg ∧ seg.header.rst = true
  -- the application has written
  dataReady : (revents 1).event = true ∧ (revents 1).error = false
  data : (answers 1).fails = false ∧ (answers 1).available ≠ []

section Race

variable {revents : ℕ → Revents} {answers : ℕ → Answer} {s t : TCPSpongeSocket}
  {rest : List (Rule TCPSpongeSocket Answer SocketException)}

/-- The bytes read are not empty if the kernel has any and the connection has room. -/
theorem dataRead_ne_nil_iff {a : Answer} (hroom : 0 < s.tcp.remainingOutboundCapacity) :
    dataRead a s ≠ [] ↔ a.available ≠ [] := by
  simp only [dataRead, FileDescriptor.read, ne_eq, List.take_eq_nil_iff]
  exact not_congr (or_iff_right (by omega))

/-- A reset delivered by rule 1. -/
theorem readSegment_reset {a : Answer} {seg : TCPSegment} (hactive : s.tcp.isactive = true)
    (hfails : a.fails = false) (hseg : a.segment = some seg) (hrst : seg.header.rst = true) :
    ∃ t, readSegment a s = .ok t ∧ t.tcp.isactive = false ∧
      t.tcp.remainingOutboundCapacity = s.tcp.remainingOutboundCapacity := by
  obtain ⟨tcp, hreceived, hinactive, hroom⟩ :=
    TCPConnection.segmentReceived_reset hactive hrst
  unfold readSegment
  simp only [hfails, hseg, hreceived, Bool.false_eq_true, if_false]
  split
  · exact ⟨_, rfl, hinactive, hroom⟩
  · exact ⟨_, rfl, hinactive, hroom⟩

/-- If the callback of rule 2 throws, then rule 1 has just delivered a reset. -/
theorem reset_of_acceptedLess {revents₁ : Revents} {a₁ a₂ : Answer} {stays : Bool}
    (hs : Settled s) (hinterest : rule2.interest s = true)
    (hhandle : rule1.handle (rule1.interest s) revents₁ a₁ s = .ok (stays, t))
    (hdata : readData a₂ t = .error .acceptedLess) :
    revents₁.event = true ∧ a₁.fails = false ∧
      ∃ seg, a₁.segment = some seg ∧ seg.header.rst = true := by
  obtain ⟨hactive, hshutdown, -⟩ := interest_rule2_iff.mp hinterest
  have hsame : readData a₂ s ≠ .error .acceptedLess :=
    readData_ne_acceptedLess hactive (hs.inputEnded hshutdown)
  rcases EventLoop.handle_cases hhandle with ⟨-, rfl⟩ | ⟨-, rfl⟩ | ⟨-, -, hevent, hcallback⟩
  · exact absurd hdata hsame
  · exact absurd hdata hsame
  · rcases readSegment_active hs hactive hshutdown hcallback with ⟨hactive', hopen'⟩ | hreset
    · exact absurd hdata (readData_ne_acceptedLess hactive' hopen')
    · exact ⟨hevent, (readSegment_cases hcallback).1, hreset⟩

/-- Both rules are polled. -/
theorem dispatch_rules_iff (hs : Settled s) (hrest : rest.Sublist [rule3, rule4])
    (hadapter : ¬ rule1.Defunct s) :
    dispatch revents answers 0 (prepare (rule1 :: rule2 :: rest) s).1
        (prepare (rule1 :: rule2 :: rest) s).2 = .error (.thrown .acceptedLess) ↔
      ResetRace ⟨rule1 :: rule2 :: rest, s⟩ revents answers := by
  rw [EventLoop.prepare_of_not_defunct hadapter, EventLoop.dispatch_cons_thrown_iff]
  constructor
  · rintro (hthrown | ⟨stays, t, hhandle, hthrown⟩)
    · exact absurd (EventLoop.handle_eq_thrown_iff.mp hthrown).2.2.2 readSegment_ne_acceptedLess
    · have herror := EventLoop.error_of_handle hhandle
      obtain ⟨hthread, hinterest, herror', hevent', hdata⟩ := (dispatch_rule2_iff hrest).mp hthrown
      rw [prepare_rule2_snd hrest hthread] at hhandle
      obtain ⟨hevent, hfails, hreset⟩ := reset_of_acceptedLess hs hinterest hhandle hdata
      obtain ⟨hfails', hne, -⟩ := readData_eq_acceptedLess_iff.mp hdata
      refine ⟨⟨rest, rfl⟩, hadapter, hthread, hinterest, ⟨hevent, herror⟩, ⟨hfails, hreset⟩,
        ⟨hevent', herror'⟩, hfails', ?_⟩
      intro hnil
      exact hne (by simp [dataRead, FileDescriptor.read, hnil])
  · rintro ⟨-, -, hthread, hinterest, ⟨hevent, herror⟩, ⟨hfails, seg, hseg, hrst⟩,
      ⟨hevent', herror'⟩, hfails', hdata⟩
    obtain ⟨hactive, -, hroom⟩ := interest_rule2_iff.mp hinterest
    obtain ⟨t, hcallback, hinactive, hcapacity⟩ := readSegment_reset hactive hfails hseg hrst
    right
    refine ⟨true, t, ?_, (dispatch_rule2_iff hrest).mpr ⟨hthread, hinterest, herror', hevent', ?_⟩⟩
    · rw [prepare_rule2_snd hrest hthread, show rule1.interest s = true from hactive]
      exact EventLoop.handle_of_ready herror hevent hcallback hinactive
    · rw [readData_eq_acceptedLess_iff, dataRead_ne_nil_iff (by omega)]
      exact ⟨hfails', hdata, .inl hinactive⟩

theorem direction_of_mem {rule : Rule TCPSpongeSocket Answer SocketException}
    (h : rule ∈ [rule3, rule4]) : rule.direction = .Out := by
  simp only [List.mem_cons, List.not_mem_nil, or_false] at h
  rcases h with rfl | rfl <;> rfl

/-- Rules are told apart by their directions and descriptors. -/
theorem rule1_not_mem : rule1 ∉ [rule2, rule3, rule4] := by
  have hfd : rule1 ≠ rule2 := by
    intro h
    have hcount := congrArg (fun rule => (rule.fd
      { tcp := .new {} 0, threadData := { readCount := 1 } }).readCount) h
    exact absurd hcount (by decide)
  rw [List.mem_cons, not_or]
  exact ⟨hfd, fun hmem => absurd (direction_of_mem hmem) (by decide)⟩

theorem rule2_not_mem : rule2 ∉ [rule3, rule4] :=
  fun hmem => absurd (direction_of_mem hmem) (by decide)

/-- Without rule 1, nothing happens between the test of rule 2 and its callback. -/
theorem dispatch_without_rule1 {rules : List (Rule TCPSpongeSocket Answer SocketException)}
    (hs : Settled s) (hrules : rules.Sublist [rule2, rule3, rule4]) :
    dispatch revents answers 0 (prepare rules s).1 (prepare rules s).2 ≠
      .error (.thrown .acceptedLess) := by
  cases hrules with
  | cons _ hrest => exact dispatch_ne_acceptedLess (mem_prepare_rest hrest).1
  | cons_cons _ hrest =>
    by_cases hdefunct : rule2.Defunct s
    · rw [EventLoop.prepare_of_defunct hdefunct]
      exact dispatch_ne_acceptedLess (mem_prepare_rest hrest).1
    · rw [prepare_rule2_snd hrest hdefunct]
      exact dispatch_rule2_ne hs hrest

/-- **One pass.**  The exception leaves the loop over the poll results exactly in a race. -/
theorem dispatch_iff {r : Running} (hrules : Installed r.rules) (hs : Settled r.socket) :
    dispatch revents answers 0 (prepare r.rules r.socket).1 (prepare r.rules r.socket).2 =
        .error (.thrown .acceptedLess) ↔ ResetRace r revents answers := by
  obtain ⟨rules, s⟩ := r
  dsimp only at hrules hs ⊢
  cases hrules with
  | cons _ hsub =>
    refine iff_of_false (dispatch_without_rule1 hs hsub) fun hrace => ?_
    obtain ⟨rest, hrest⟩ := hrace.rules
    have hmem : rule1 ∈ rules := by
      rw [show rules = rule1 :: rule2 :: rest from hrest]
      exact List.mem_cons_self
    exact rule1_not_mem (hsub.subset hmem)
  | @cons_cons rules _ _ hsub =>
    by_cases hdefunct : rule1.Defunct s
    · rw [EventLoop.prepare_of_defunct hdefunct]
      exact iff_of_false (dispatch_without_rule1 hs hsub) fun hrace => hrace.adapter hdefunct
    · cases hsub with
      | cons_cons _ hrest => exact dispatch_rules_iff hs hrest hdefunct
      | cons _ hrest =>
        refine iff_of_false ?_ fun hrace => ?_
        · rw [EventLoop.prepare_of_not_defunct hdefunct]
          refine dispatch_ne_acceptedLess fun p hp => ?_
          rcases List.mem_cons.mp hp with rfl | hp
          · exact List.mem_cons_self
          · exact (mem_prepare_rest hrest).1 p hp
        · obtain ⟨rest, heq⟩ := hrace.rules
          have hmem : rule2 ∈ rules := by
            rw [(List.cons.inj heq).2]
            exact List.mem_cons_self
          exact rule2_not_mem (hrest.subset hmem)

/-- In a race there is something to poll. -/
theorem ResetRace.polled {r : Running} (h : ResetRace r revents answers) :
    (prepare r.rules r.socket).1.any Prod.snd = true := by
  obtain ⟨rest, hrules⟩ := h.rules
  rw [hrules, EventLoop.prepare_of_not_defunct h.adapter, List.any_cons]
  have hactive : rule1.interest r.socket = true := (interest_rule2_iff.mp h.interest).1
  simp [hactive]

end Race

/-! ## §5 Whole runs -/

/-- The states that a socket gets into. -/
theorem settled_of_trace {config : TCPConfig} {randomDevice : UInt32} {start r : Running}
    {events : List Event}
    (hstart : start = connect config randomDevice ∨ start = listenAndAccept config randomDevice)
    (h : Execution.Trace Running.Step start events r) :
    Installed r.rules ∧ Settled r.socket := by
  have hnew : Tracked (TCPConnection.new config randomDevice).sender :=
    Tracked.new config.sendCapacity config.rtTimeout config.fixedIsn randomDevice
  have hlisten : Settled (listenAndAccept config randomDevice).socket := ⟨hnew, by
    simp [listenAndAccept, initializeTCP, TCPConnection.new, TCPSender.new]⟩
  refine h.invariant (I := fun r => Installed r.rules ∧ Settled r.socket)
    (fun r event r' hr hstep => hstep.settled hr.1 hr.2) ?_
  rcases hstart with rfl | rfl
  · refine ⟨List.Sublist.refl _, hlisten.of_step .connect rfl (by simp) rfl rfl⟩
  · exact ⟨List.Sublist.refl _, hlisten⟩

/-- **The connection takes what rule 2 reads.**  In every state that a socket gets into and for
    every outcome of a pass, the callback of rule 2 does not throw, except in the race of a reset
    and bytes of the application. -/
theorem write_accepts_iff {config : TCPConfig} {randomDevice : UInt32} {start r : Running}
    {events : List Event}
    (hstart : start = connect config randomDevice ∨ start = listenAndAccept config randomDevice)
    (h : Execution.Trace Running.Step start events r) (poll : Poll Answer) :
    EventLoop.waitNextEvent r.rules r.socket poll ≠ .error (.thrown .acceptedLess) ↔
      ¬ ∃ revents answers, poll = .reported revents answers ∧ ResetRace r revents answers := by
  obtain ⟨hrules, hs⟩ := settled_of_trace hstart h
  rw [Ne, EventLoop.waitNextEvent_eq_thrown_iff]
  refine not_congr ⟨?_, ?_⟩
  · rintro ⟨-, revents, answers, hpoll, hthrown⟩
    exact ⟨revents, answers, hpoll, (dispatch_iff hrules hs).mp hthrown⟩
  · rintro ⟨revents, answers, hpoll, hrace⟩
    exact ⟨hrace.polled, revents, answers, hpoll, (dispatch_iff hrules hs).mpr hrace⟩

/-- The reports of a poll in which the first two rules are ready. -/
def bothReady (idx : ℕ) : Revents :=
  { event := decide (idx < 2) }

/-- A segment for rule 1 and a byte for rule 2. -/
def segmentAndByte (seg : TCPSegment) (idx : ℕ) : Answer :=
  if idx = 0 then { segment := some seg } else { available := [7] }

/-- A connection that is opened takes the byte that comes with the SYN of the peer. -/
theorem write_accepts_iff_open :
    EventLoop.waitNextEvent (connect { fixedIsn := some ⟨7⟩ } 0).rules
        (connect { fixedIsn := some ⟨7⟩ } 0).socket
        (.reported bothReady (segmentAndByte TCPConnection.synAck)) ≠
      .error (.thrown .acceptedLess) := by
  refine (write_accepts_iff (.inl rfl) (.nil (connect { fixedIsn := some ⟨7⟩ } 0)) _).mpr ?_
  rintro ⟨revents, answers, hpoll, hrace⟩
  cases hpoll
  obtain ⟨-, seg, hseg, hrst⟩ := hrace.reset
  cases hseg
  exact absurd hrst (by decide)

/-- A reset and a byte in the pass after the connection was opened: the byte is not taken. -/
theorem write_accepts_fails : ∃ r : Running,
    Execution.Trace Running.Step (connect { fixedIsn := some ⟨7⟩ } 0)
        [.waitNextEvent (.reported bothReady (segmentAndByte TCPConnection.synAck)), .tick 10] r ∧
      EventLoop.waitNextEvent r.rules r.socket
        (.reported bothReady (segmentAndByte { header := { rst := true } })) =
          .error (.thrown .acceptedLess) := by
  have h : Execution.Trace Running.Step (connect { fixedIsn := some ⟨7⟩ } 0)
      [.waitNextEvent (.reported bothReady (segmentAndByte TCPConnection.synAck)), .tick 10] _ :=
    .cons (t := ⟨_, _⟩) ⟨_, rfl⟩ (.cons rfl (.nil _))
  exact ⟨_, h, rfl⟩

end TCPSpongeSocket

end Sponge
