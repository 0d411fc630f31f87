import Sponge.Connection.Steps
import Sponge.Receiver.Delivery

/-!
# One Direction of a Connection

The bytes that one endpoint sends and the other receives.  The invariant of a direction has two
parts.  `Sound` is about one endpoint: everything it has emitted carries a part of its own
stream.  `Link` is about both: what the receiver holds is a prefix of the sender's stream, and
nothing has been acknowledged that was not received.

- `Tracked.genuine_of_emitted`: emitted segments are genuine
- `Sound.step`: the invariant of one endpoint
- `Link.sender_step`, `Link.receiver_step`: the two ways a step concerns a direction
-/

namespace Sponge

open TCPSegment (seqLength seqLength_nil seqLength_cons seqLength_append)
open TCPReceiver (Genuine Tracks)

/-! ## §1 Emitted segments are genuine -/

namespace TCPSender

variable {s : TCPSender}

/-- Segments without flags occupy as many numbers as they carry bytes. -/
private theorem seqLength_of_bare {segs : List TCPSegment}
    (h : ∀ seg ∈ segs, seg.header.syn = false ∧ seg.header.fin = false) :
    seqLength segs = (segs.flatMap (·.payload)).length := by
  induction segs with
  | nil => rfl
  | cons seg rest ih =>
    obtain ⟨hsyn, hfin⟩ := h seg List.mem_cons_self
    rw [seqLength_cons, ih fun x hx => h x (List.mem_cons_of_mem _ hx), List.flatMap_cons,
      List.length_append]
    simp [TCPSegment.lengthInSequenceSpace, hsyn, hfin]

/-- Every segment after the SYN is plain. -/
private theorem plain_of_split (h : Segmented s) {pre post : List TCPSegment} {seg : TCPSegment}
    (hsplit : s.sent = pre ++ seg :: post) (hne : pre ≠ []) : Plain seg := by
  apply h.plain
  rw [hsplit, List.tail_append_of_ne_nil hne]
  simp

/-- A segment after the SYN starts one number past the bytes before it. -/
theorem Segmented.start_eq (h : Segmented s) {pre post : List TCPSegment} {seg : TCPSegment}
    (hsplit : s.sent = pre ++ seg :: post) (hne : pre ≠ []) :
    seqLength pre = 1 + (pre.flatMap (·.payload)).length := by
  obtain ⟨first, rest, rfl⟩ := List.exists_cons_of_ne_nil hne
  have hfirst : first = synSegment s.isn := h.syn_first first (rest ++ seg :: post) hsplit
  -- between the SYN and `seg` there is neither SYN nor FIN
  have hbare : ∀ x ∈ rest, x.header.syn = false ∧ x.header.fin = false := by
    intro x hx
    constructor
    · have hplain : Plain x := by
        apply h.plain
        rw [hsplit]
        simp [hx]
      rw [hplain]
    · apply h.fin_last
      rw [hsplit, List.dropLast_append_of_ne_nil (by simp)]
      simp [hx]
  rw [seqLength_cons, seqLength_of_bare hbare, hfirst]
  simp [synSegment, TCPSegment.lengthInSequenceSpace]

/-- The payload of a first transmission stands in the stream after the payloads before it. -/
theorem Segmented.slice_of_split (h : Segmented s) {pre post : List TCPSegment}
    {seg : TCPSegment} (hsplit : s.sent = pre ++ seg :: post) :
    Slice.At s.stream.written (pre.flatMap (·.payload)).length seg.payload := by
  have hpay := h.payload_eq
  rw [hsplit, List.flatMap_append, List.flatMap_cons] at hpay
  have hprefix := List.take_prefix s.stream.bytesRead s.stream.written
  rw [← hpay] at hprefix
  have hdrop := hprefix.drop (pre.flatMap (·.payload)).length
  rw [List.drop_left] at hdrop
  exact (List.prefix_append _ _).trans hdrop

/-- The length of the history in terms of the stream. -/
theorem Segmented.nextSeqno_le (h : Segmented s) :
    s.nextSeqno ≤ s.stream.written.length + 2 := by
  by_cases hnil : s.sent = []
  · rw [h.sent_eq_nil_iff.mp hnil]
    omega
  · have hsplit := h.nextSeqno_split hnil
    have hread := s.stream.bytesRead_le
    split at hsplit <;> omega

/-- The stream ends with the segment that carries FIN. -/
theorem Segmented.written_of_fin (h : Segmented s) {pre post : List TCPSegment}
    {seg : TCPSegment} (hsplit : s.sent = pre ++ seg :: post) (hfin : seg.header.fin = true) :
    pre.flatMap (·.payload) ++ seg.payload = s.stream.written := by
  obtain ⟨hpost, -, hread, -⟩ := h.of_fin hsplit hfin
  have hpay := h.payload_eq
  rw [hread, s.stream.bytesWritten_eq, List.take_length, hsplit, hpost] at hpay
  simpa using hpay

private theorem genuine_of_plain (h : Segmented s) {pre post : List TCPSegment}
    {seg : TCPSegment} (hsplit : s.sent = pre ++ seg :: post) (hne : pre ≠ []) :
    Genuine s.isn s.stream.written (seqLength pre) seg.lengthInSequenceSpace seg := by
  have hstart := h.start_eq hsplit hne
  have hslice := h.slice_of_split hsplit
  have hsyn : seg.header.syn = false := by rw [plain_of_split h hsplit hne]
  have hlen : seg.lengthInSequenceSpace =
      seg.payload.length + (if seg.header.fin then 1 else 0) := by
    simp [TCPSegment.lengthInSequenceSpace, hsyn]
  have hseqno : seg.header.seqno = wrap (seqLength pre) s.isn := by
    have hnum := h.numbered
    rw [hsplit] at hnum
    rw [hnum.seqno_eq, Nat.zero_add]
  have hzero : seqLength pre ≠ 0 := by omega
  have hindex : seqLength pre - 1 = (pre.flatMap (·.payload)).length := by omega
  cases hfin : seg.header.fin with
  | false =>
    -- the payload ends inside the stream
    have hend : seqLength pre + seg.payload.length ≤ s.stream.written.length + 1 := by
      rcases eq_or_ne seg.payload [] with hnil | hdata
      · have hpos := h.length_pos seg (by rw [hsplit]; simp)
        rw [hlen, hfin, hnil] at hpos
        simp at hpos
      · have := hslice.end_le hdata
        omega
    rw [hfin] at hlen
    simp only [Bool.false_eq_true, if_false, Nat.add_zero] at hlen
    refine ⟨by omega, hseqno, ?_, ?_, ?_⟩
    · simp [hsyn, hzero]
    · rw [hfin]
      simp only [Bool.false_eq_true, false_iff]
      omega
    · rw [hindex, if_neg hzero, Nat.sub_zero, hlen]
      exact List.prefix_iff_eq_take.mp hslice
  | true =>
    have hall := h.written_of_fin hsplit hfin
    have hlength := congrArg List.length hall
    rw [List.length_append] at hlength
    rw [hfin] at hlen
    simp only [if_true] at hlen
    refine ⟨by omega, hseqno, ?_, ?_, ?_⟩
    · simp [hsyn, hzero]
    · rw [hfin]
      simp only [true_iff]
      omega
    · rw [hindex, if_neg hzero, Nat.sub_zero, ← hall, List.drop_left,
        List.take_of_length_le (by omega)]

/-- **Emitted segments are genuine.**  A segment that the sender has emitted carries a
    contiguous part of its stream, and never SYN and FIN together. -/
theorem Tracked.genuine_of_emitted (h : Tracked s) {seg : TCPSegment} (hseg : Emitted s seg) :
    (∃ v n, Genuine s.isn s.stream.written v n seg) ∧
      (seg.header.syn = true → seg.header.fin = false) := by
  rcases hseg with hsent | ⟨v, hv, rfl⟩
  · obtain ⟨pre, post, hsplit⟩ := List.append_of_mem hsent
    rcases eq_or_ne pre [] with rfl | hne
    · -- the SYN
      have hsyn := h.segmented.syn_first seg post hsplit
      rw [hsyn]
      refine ⟨⟨0, 1, ?_⟩, fun _ => rfl⟩
      constructor <;> simp [synSegment]
    · refine ⟨⟨_, _, genuine_of_plain h.segmented hsplit hne⟩, ?_⟩
      rw [plain_of_split h.segmented hsplit hne]
      simp
  · have hle := h.segmented.nextSeqno_le
    refine ⟨⟨v, 0, ?_⟩, fun _ => rfl⟩
    constructor
    · omega
    · rfl
    · simp [emptySegment]
    · simp only [emptySegment, Bool.false_eq_true, false_iff]
      omega
    · simp [emptySegment]

end TCPSender

/-! ## §2 One endpoint -/

namespace TCPConnection

open TCPSender (Tracked Emitted)

/-- Everything sent has been acknowledged, and everything has arrived. -/
structure Closed (c : TCPConnection) : Prop where
  finSent : c.sender.finSent = true
  acked : c.sender.lastAckno = c.sender.nextSeqno
  syn : c.receiver.syn = true
  ended : c.receiver.streamOut.inputEnded = true

structure Sound (c : TCPConnection) : Prop where
  tracked : Tracked c.sender
  -- what has been emitted carries parts of the stream
  outgoing : ∀ seg ∈ c.segmentsOut, ∃ base, Emitted c.sender base ∧ SameContent base seg
  -- a connection that ends without an error is closed for good
  closed : c.isactive = false →
    c.sender.stream.error = true ∨ c.receiver.streamOut.error = true ∨ Closed c

theorem Sound.new (cfg : TCPConfig) (randomDevice : UInt32) : Sound (.new cfg randomDevice) where
  tracked := Tracked.new cfg.sendCapacity cfg.rtTimeout cfg.fixedIsn randomDevice
  outgoing := by simp [TCPConnection.new]
  closed := by simp [TCPConnection.new]

/-- The two state summaries, spelled out. -/
theorem Finished.closed {c : TCPConnection} (h : Finished c) (ht : Tracked c.sender) :
    Closed c := by
  obtain ⟨hs, hr⟩ := h
  have hack := ht.ack_le
  unfold TCPSender.stateSummary at hs
  -- all tests of the two summaries but the last ones have failed
  split_ifs at hs with h₁ h₂ h₃ h₄ h₅ h₆
  unfold TCPReceiver.stateSummary at hr
  split_ifs at hr with g₁ g₂ g₃
  refine ⟨ht.segmented.finSent_iff.mpr (by omega), ?_, ?_, g₃⟩
  · unfold TCPSender.bytesInFlight at h₆
    omega
  · cases hsyn : c.receiver.syn with
    | true => rfl
    | false => simp [TCPReceiver.ackno, hsyn] at g₂

section Step

variable {c d : TCPConnection} {op : Op}

/-- Nothing reopens a closed connection. -/
theorem Closed.step (h : Closed c) (ht : Tracked c.sender) (hstep : c.Step op d)
    (hc : c.isactive = false) : Closed d := by
  obtain ⟨htd, hadv⟩ := hstep.sender_moves.tracked ht
  have hended := (c.sender.stream.eof_iff.mp (ht.segmented.fin_done h.finSent)).1
  have hfin : d.sender.finSent = true := by
    obtain ⟨seg, hmem, hseg⟩ := List.any_eq_true.mp h.finSent
    exact List.any_eq_true.mpr ⟨seg, hadv.sent.subset hmem, hseg⟩
  have hrecv : d.receiver.syn = true ∧ d.receiver.streamOut.inputEnded = true := by
    cases hstep.receiver_moves with
    | same h' => rw [h']; exact ⟨h.syn, h.ended⟩
    | failed h' => rw [h']; exact ⟨h.syn, h.ended⟩
    | read len h' => rw [h']; exact ⟨h.syn, h.ended⟩
    | received seg _ hactive => rw [hc] at hactive; cases hactive
  refine ⟨hfin, ?_, hrecv.1, hrecv.2⟩
  · -- the stream is complete, so the numbers cannot move any more
    have h₁ := ht.segmented.nextSeqno_of_finSent h.finSent
    have h₂ := htd.segmented.nextSeqno_of_finSent hfin
    have h₃ := hadv.lastAckno
    have h₄ := htd.ack_le
    have h₅ := h.acked
    rw [ByteStream.bytesWritten_eq] at h₁ h₂
    rw [hadv.frozen hended] at h₂
    omega

/-- A stream error stays while the connection is inactive. -/
theorem Step.receiver_error (hstep : c.Step op d) (hc : c.isactive = false)
    (h : c.receiver.streamOut.error = true) : d.receiver.streamOut.error = true := by
  cases hstep.receiver_moves with
  | same h' => rw [h']; exact h
  | failed h' => rw [h']; rfl
  | read len h' => rw [h']; exact h
  | received seg _ hactive => rw [hc] at hactive; cases hactive

/-- **One endpoint, one step.** -/
theorem Sound.step (h : Sound c) (hstep : c.Step op d) : Sound d := by
  obtain ⟨ht, hadv⟩ := hstep.sender_moves.tracked h.tracked
  refine ⟨ht, ?_, ?_⟩
  · intro seg hmem
    rcases hstep.emission h.tracked seg hmem with hold | ⟨base, hbase, hdressed⟩
    · obtain ⟨base, hbase, hcontent⟩ := h.outgoing seg hold
      exact ⟨base, hbase.mono hadv, hcontent⟩
    · exact ⟨base, hbase, hdressed.content⟩
  · intro hd
    -- it was inactive before, or it fails or finishes with this step
    rcases hstep.inactive hd with hc | hfailed | hfinished
    · rcases h.closed hc with herr | herr | hclosed
      · exact .inl (hadv.error herr)
      · exact .inr (.inl (hstep.receiver_error hc herr))
      · exact .inr (.inr (hclosed.step h.tracked hstep hc))
    · exact .inl hfailed.1
    · exact .inr (.inr (hfinished.closed ht))

/-- What an endpoint has emitted is genuine. -/
theorem Sound.genuine (h : Sound c) {seg : TCPSegment} (hmem : seg ∈ c.segmentsOut) :
    (∃ v n, Genuine c.sender.isn c.sender.stream.written v n seg) ∧
      (seg.header.syn = true → seg.header.fin = false) ∧
      (seg.header.fin = true → c.sender.stream.inputEnded = true) := by
  obtain ⟨base, hbase, hcontent⟩ := h.outgoing seg hmem
  obtain ⟨⟨v, n, hgenuine⟩, hflags⟩ := h.tracked.genuine_of_emitted hbase
  refine ⟨⟨v, n, ⟨hgenuine.fits, ?_, ?_, ?_, ?_⟩⟩, ?_, ?_⟩
  · rw [hcontent.seqno]; exact hgenuine.seqno
  · rw [hcontent.syn]; exact hgenuine.syn
  · rw [hcontent.fin]; exact hgenuine.fin
  · rw [hcontent.payload]; exact hgenuine.payload
  · rw [hcontent.syn, hcontent.fin]; exact hflags
  · intro hfin
    rw [hcontent.fin] at hfin
    rcases hbase with hsent | ⟨w, -, rfl⟩
    · have : c.sender.finSent = true := List.any_eq_true.mpr ⟨base, hsent, hfin⟩
      exact (c.sender.stream.eof_iff.mp (h.tracked.segmented.fin_done this)).1
    · cases hfin

end Step

/-! ## §3 Both endpoints -/

/-- How much of the peer's sequence space a connection has received: the SYN, the assembled
    bytes and the FIN. -/
def received (c : TCPConnection) : ℕ :=
  (if c.receiver.syn then 1 else 0) + c.receiver.streamOut.bytesWritten +
    (if c.receiver.streamOut.inputEnded then 1 else 0)

/-- The direction from `x` to `y`. -/
structure Link (x y : TCPConnection) : Prop where
  tracks : Tracks x.sender.isn x.sender.stream.written y.receiver
  -- `y` only knows of an end that `x` has reached
  announced : y.receiver.reassembler.eof = true → x.sender.stream.inputEnded = true
  -- no acknowledgement in the network exceeds what `y` has received
  acks : ∀ seg ∈ y.segmentsOut, seg.header.ack = true →
    ∃ t, 1 ≤ t ∧ t ≤ y.received ∧ seg.header.ackno = wrap t x.sender.isn
  acked : x.sender.lastAckno ≤ y.received

theorem Link.new (cfg cfg' : TCPConfig) (rnd rnd' : UInt32) :
    Link (.new cfg rnd) (.new cfg' rnd') where
  tracks := Tracks.new _ _ _
  announced := by simp [TCPConnection.new, TCPReceiver.new, StreamReassembler.new]
  acks := by simp [TCPConnection.new]
  acked := Nat.zero_le _

section Link

variable {x y : TCPConnection} {op : Op}

/-- `y` has not received more than `x` has to send. -/
theorem Link.received_le (h : Link x y) : y.received ≤ x.sender.stream.written.length + 2 := by
  have hle := TCPReceiver.firstUnassembled_le h.tracks
  have hfu : y.receiver.streamOut.bytesWritten = y.receiver.reassembler.firstUnassembled := rfl
  unfold received
  split <;> split <;> omega

/-- **A step of the sending endpoint.** -/
theorem Link.sender_step {x' : TCPConnection} (h : Link x y) (hx : Sound x)
    (hbound : x'.sender.stream.written.length + 2 ≤ 2 ^ 31) (hstep : x.Step op x')
    (hnet : ∀ seg, op = .segmentReceived seg → seg ∈ y.segmentsOut) : Link x' y := by
  have hmoves := hstep.sender_moves
  obtain ⟨-, hadv⟩ := hmoves.tracked hx.tracked
  have hrecv := h.received_le
  have hlen := hadv.written.length_le
  refine ⟨⟨?_, ?_, h.tracks.closed⟩, ?_, ?_, ?_⟩
  · exact h.tracks.assembled.mono hadv.written fun heof => hadv.frozen (h.announced heof)
  · rw [hadv.isn]
    exact h.tracks.isn
  · exact fun heof => hadv.inputEnded (h.announced heof)
  · rw [hadv.isn]
    exact h.acks
  · -- an acknowledgement that moves `_last_ackno` was in the network
    obtain ⟨ops, hrun, -, hcauses⟩ := hmoves
    rw [hrun]
    refine hx.tracked.lastAckno_run_le (by omega) h.acked ?_
    intro ackno win hmem
    obtain ⟨seg, hop, -, hack, rfl, -⟩ := hcauses _ hmem
    exact h.acks seg (hnet seg hop) hack

private theorem flag_mono {a b : Bool} (h : a = true → b = true) :
    (if a then 1 else 0) ≤ (if b then 1 else 0 : ℕ) := by
  cases a <;> cases b <;> simp_all

theorem received_mono {y' : TCPConnection}
    (h : TCPReceiver.Advances y.receiver y'.receiver) : y.received ≤ y'.received := by
  have h₁ := h.written.length_le
  have h₂ := flag_mono h.syn
  have h₃ := flag_mono h.inputEnded
  unfold received
  rw [ByteStream.bytesWritten_eq, ByteStream.bytesWritten_eq]
  omega

/-- An error takes nothing away from a receiver. -/
private theorem tracks_failed {isn : WrappingInt32} {S : Bytes} {r : TCPReceiver}
    (h : Tracks isn S r) : Tracks isn S (failed r) := by
  have ha := h.assembled
  have hstored : StreamReassembler.Stored S (failed r).reassembler :=
    ⟨ha.stored.separated, ha.stored.pieces, ha.stored.above, ha.stored.count⟩
  exact ⟨⟨hstored, ha.gap, ha.written, ha.eofIndex, ha.ended⟩, h.isn, h.closed⟩

/-- What a step of the receiving endpoint does to its receiver. -/
theorem Link.receiver_moves {y' : TCPConnection} (h : Link x y) (hx : Sound x)
    (hbound : x.sender.stream.written.length + 2 ≤ 2 ^ 31) (hstep : y.Step op y')
    (hnet : ∀ seg, op = .segmentReceived seg → seg ∈ x.segmentsOut) :
    Tracks x.sender.isn x.sender.stream.written y'.receiver ∧
      TCPReceiver.Advances y.receiver y'.receiver ∧
      (y'.receiver.reassembler.eof = true → x.sender.stream.inputEnded = true) := by
  cases hstep.receiver_moves with
  | same h' =>
    rw [h']
    exact ⟨h.tracks, .refl _, h.announced⟩
  | failed h' =>
    rw [h']
    exact ⟨tracks_failed h.tracks, ⟨id, List.prefix_rfl, id⟩, h.announced⟩
  | read len h' =>
    rw [h']
    exact ⟨h.tracks.read len, ⟨id, List.prefix_rfl, id⟩, h.announced⟩
  | received seg hop _ _ hrun =>
    -- the segment carries a part of the stream, and is too near to be mistaken
    obtain ⟨⟨v, n, hgenuine⟩, hflags, hend⟩ := hx.genuine (hnet seg hop)
    have hfits := hgenuine.fits
    have hfu := TCPReceiver.firstUnassembled_le h.tracks
    obtain ⟨r, hr, htracks, hadv, heof⟩ := h.tracks.segmentReceived (by omega) hgenuine
      (by omega) (by omega) (fun _ _ hsyn hfin => by rw [hflags hsyn] at hfin; cases hfin)
    rw [← Except.ok.inj (hr.symm.trans hrun)]
    exact ⟨htracks, hadv, fun he => (heof he).elim h.announced hend⟩

/-- **A step of the receiving endpoint.** -/
theorem Link.receiver_step {y' : TCPConnection} (h : Link x y) (hx : Sound x) (hy : Sound y)
    (hbound : x.sender.stream.written.length + 2 ≤ 2 ^ 31) (hstep : y.Step op y')
    (hnet : ∀ seg, op = .segmentReceived seg → seg ∈ x.segmentsOut) : Link x y' := by
  obtain ⟨htracks, hadv, heof⟩ := h.receiver_moves hx hbound hstep hnet
  have hmono := received_mono hadv
  refine ⟨htracks, heof, ?_, h.acked.trans hmono⟩
  intro seg hmem hack
  rcases hstep.emission hy.tracked seg hmem with hold | ⟨base, -, hdressed⟩
  · obtain ⟨t, hpos, hle, heq⟩ := h.acks seg hold hack
    exact ⟨t, hpos, hle.trans hmono, heq⟩
  · -- the acknowledgement was filled in just now
    have hackno := hdressed.ack hack
    -- a receiver that acknowledges has got the SYN
    have hsyn : y'.receiver.syn = true := by
      cases hs : y'.receiver.syn with
      | true => rfl
      | false => simp [TCPReceiver.ackno, hs] at hackno
    have hvalue := htracks.delivers.ackno _ hackno
    refine ⟨_, ?_, ?_, hvalue⟩
    · omega
    · simp [received, hsyn]

end Link

end TCPConnection

end Sponge
