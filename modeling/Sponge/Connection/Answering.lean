import Sponge.Connection.Timing

/-!
# Answers to Segments

What a connection that has an acknowledgement number puts on its outbound queue when a segment
arrives.  As the sender's queue is empty between two operations, everything on it comes from this
segment: first transmissions that its acknowledgement has made room for, and at most one empty
segment.

- `appended_answered`, `appended_syn`: the segments of an answer
- `answer_exact`: every segment that should be answered is, and no bare acknowledgement answers a
  bare acknowledgement
-/

namespace Sponge

namespace TCPConnection

open TCPSender (Tracked)

/-! ## §1 The segments of an answer -/

theorem SameContent.lengthInSequenceSpace {base seg : TCPSegment} (h : SameContent base seg) :
    seg.lengthInSequenceSpace = base.lengthInSequenceSpace := by
  unfold TCPSegment.lengthInSequenceSpace
  rw [h.payload, h.syn, h.fin]

theorem fillHeader_of_ackno {r : TCPReceiver} {a : WrappingInt32} (ha : r.ackno = some a)
    (seg : TCPSegment) : (fillHeader r seg).header.ack = true ∧
      (fillHeader r seg).header.ackno = a ∧
      (fillHeader r seg).header.win.toNat = min r.windowSize 65535 := by
  unfold fillHeader
  rw [ha]
  exact ⟨rfl, rfl, (advertisedWindow_toNat r).trans (Nat.min_comm _ _)⟩

section Segments

variable {cfg : TCPConfig} {c : TCPConnection} {seg : TCPSegment} {r : TCPReceiver}

/-- What the acknowledgement of a segment releases are first transmissions. -/
theorem acknowledged_segmentsOut (h : Regular cfg c) (hactive : c.isactive = true) :
    ∀ base ∈ (c.acknowledged seg).segmentsOut, 0 < base.lengthInSequenceSpace := by
  unfold acknowledged
  split
  · rcases h.tracked.ackReceived_cases seg.header.ackno seg.header.win with
      heq | ⟨t, new, hacc, -, hsends⟩
    · rw [heq, h.drained hactive]
      simp
    · intro base hmem
      rw [hsends.segmentsOut, (TCPSender.acceptAck_frame hacc).2.2, h.drained hactive,
        List.nil_append] at hmem
      have htracked : Tracked (c.sender.ackReceived seg.header.ackno seg.header.win) :=
        h.tracked.ackReceived
      apply htracked.segmented.length_pos
      rw [hsends.sent]
      exact List.mem_append_right _ hmem
  · rw [h.drained hactive]
    simp

/-- The segments that answer a segment. -/
theorem appended_answered :
    appended c (c.answered seg r).sendSegment.cleanShutdown =
      (c.answered seg r).sender.segmentsOut.map (fillHeader r) := by
  rw [appended_cleanShutdown]
  exact appended_eq rfl

/-- A SYN for a listening connection is answered with the connection's own SYN. -/
theorem appended_syn (h : Regular cfg c) (hactive : c.isactive = true)
    (hclosed : c.sender.stateSummary = .closed) :
    ∃ syn, 0 < syn.lengthInSequenceSpace ∧
      appended c { c with timeSinceLastSegmentReceived := 0, receiver := r }.connect =
        [fillHeader r syn] := by
  have hzero := TCPSender.nextSeqno_of_closed hclosed
  have hout : c.sender.fillWindow.segmentsOut =
      [{ header := { syn := true, seqno := c.sender.nextSeqnoWrapped } }] := by
    rw [TCPSender.fillWindow_of_closed hzero]
    show c.sender.segmentsOut ++ _ = _
    rw [h.drained hactive]
    rfl
  refine ⟨{ header := { syn := true, seqno := c.sender.nextSeqnoWrapped } }, Nat.zero_lt_succ _, ?_⟩
  apply appended_eq
  show c.segmentsOut ++ c.sender.fillWindow.segmentsOut.map (fillHeader r) = _
  rw [hout]
  rfl

end Segments

/-! ## §2 The duty to answer -/

/-- **Every segment is answered as it should be.**  In every reachable state of an active
    connection, for every segment without RST after which the receiver has a number to
    acknowledge: a segment with content and a keep-alive are answered; every segment sent in
    answer acknowledges that number and advertises the window; and all others, bare
    acknowledgements in particular, are answered with content or not at all. -/
theorem answer_exact {cfg : TCPConfig} {randomDevice : UInt32} {ops : List Op}
    {c : TCPConnection} {seg : TCPSegment} {r : TCPReceiver} {a : WrappingInt32}
    (h : Execution.Trace Step (.new cfg randomDevice) ops c) (hactive : c.isactive = true)
    (hrst : seg.header.rst = false) (hr : c.receiver.segmentReceived seg = .ok r)
    (ha : r.ackno = some a) :
    ∃ d, c.segmentReceived seg = .ok d ∧ d.receiver = r ∧
      (0 < seg.lengthInSequenceSpace ∨
        (seg.lengthInSequenceSpace = 0 ∧ seg.header.seqno = a - (1 : UInt32)) →
        appended c d ≠ []) ∧
      (∀ out ∈ appended c d, out.header.ack = true ∧ out.header.ackno = a ∧
        out.header.win.toNat = min r.windowSize 65535) ∧
      (seg.lengthInSequenceSpace = 0 → seg.header.seqno ≠ a - (1 : UInt32) →
        ∀ out ∈ appended c d, 0 < out.lengthInSequenceSpace) := by
  have hregular := regular_of_trace h
  refine ⟨_, segmentReceived_eq hactive hrst hr, ?_⟩
  split
  · rename_i hlisten
    obtain ⟨syn, hpos, hout⟩ := appended_syn (r := r) hregular hactive hlisten.2
    rw [hout]
    refine ⟨rfl, fun _ => List.cons_ne_nil _ _, ?_, fun _ _ => ?_⟩
    · simpa using fillHeader_of_ackno ha syn
    · simpa [(sameContent_fillHeader r syn).lengthInSequenceSpace] using hpos
  · rw [appended_answered]
    have hkeep : KeepAlive r seg ↔
        seg.lengthInSequenceSpace = 0 ∧ seg.header.seqno = a - (1 : UInt32) := by
      simp [KeepAlive, ha]
    have hreply := reply_cases { c with timeSinceLastSegmentReceived := 0, receiver := r } seg
    change (((c.answered seg r).sender = _) ∧ _) ∨ _ at hreply
    refine ⟨cleanShutdown_receiver _, ?_, ?_, ?_⟩
    · -- the duty to answer
      intro hduty
      rw [ne_eq, List.map_eq_nil_iff]
      rcases hreply with ⟨heq, hquiet, hno⟩ | ⟨heq, -⟩
      · have hcontent : 0 < seg.lengthInSequenceSpace := hduty.resolve_right (mt hkeep.mpr hno)
        rw [heq]
        exact fun hnil => hquiet ⟨hcontent, hnil⟩
      · rw [show (c.answered seg r).sender = _ from heq]
        simp [TCPSender.sendEmptySegment]
    · intro out hmem
      obtain ⟨base, -, rfl⟩ := List.mem_map.mp hmem
      exact fillHeader_of_ackno ha base
    · -- no bare answer to a bare acknowledgement
      intro hlen hseqno out hmem
      obtain ⟨base, hbase, rfl⟩ := List.mem_map.mp hmem
      rw [(sameContent_fillHeader r base).lengthInSequenceSpace]
      rcases hreply with ⟨heq, -⟩ | ⟨-, hanswer⟩
      · rw [heq] at hbase
        exact acknowledged_segmentsOut hregular hactive base hbase
      · rcases hanswer with ⟨hpos, -⟩ | hkeepalive
        · omega
        · exact absurd (hkeep.mp hkeepalive).2 hseqno

/-- After a SYN with number 0, an empty segment with number 0 is a keep-alive. -/
theorem answer_exact_keep_alive : ∃ c d : TCPConnection,
    Execution.Trace Step (.new {} 0) [.segmentReceived { header := { syn := true } }] c ∧
      c.segmentReceived { header := { seqno := ⟨0⟩ } } = .ok d ∧ d.receiver.ackno = some ⟨1⟩ ∧
      appended c d ≠ [] := by
  obtain ⟨c, r, h, hactive, hr, ha⟩ : ∃ (c : TCPConnection) (r : TCPReceiver),
      Execution.Trace Step (.new {} 0) [.segmentReceived { header := { syn := true } }] c ∧
        c.isactive = true ∧
        c.receiver.segmentReceived { header := { seqno := ⟨0⟩ } } = .ok r ∧
        r.ackno = some ⟨1⟩ :=
    ⟨_, _, .cons rfl (.nil _), rfl, rfl, by decide⟩
  obtain ⟨d, hd, hreceiver, hanswered, -⟩ := answer_exact h hactive rfl hr ha
  exact ⟨c, d, h, hd, hreceiver ▸ ha, hanswered (.inr ⟨rfl, rfl⟩)⟩

end TCPConnection

end Sponge
