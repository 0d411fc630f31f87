import Sponge.TCPSender

/-!
# Segmentation

How the sender cuts its stream into segments.  The history `sent` of first transmissions is
one SYN, then consecutive pieces of the stream, then at most one FIN, numbered without gaps.

- `Numbered isn b segs`: the segments carry consecutive sequence numbers from `b` on
- `Segmented s`: the invariant on the history of the sender `s`
- `Sends s₀ new s`: `s` is `s₀` after first transmissions `new`, with everything else kept
- `Segmented.emit`: reading from the stream and sending what was read keeps the invariant
-/

namespace Sponge

namespace TCPSender

open TCPSegment (seqLength seqLength_nil seqLength_cons seqLength_append)

/-! ## §1 The invariant -/

/-- The segments carry consecutive sequence numbers, starting at the absolute number `b`. -/
def Numbered (isn : WrappingInt32) : ℕ → List TCPSegment → Prop
  | _, [] => True
  | b, seg :: rest =>
    seg.header.seqno = wrap b isn ∧ Numbered isn (b + seg.lengthInSequenceSpace) rest

theorem numbered_append {isn : WrappingInt32} {l₁ l₂ : List TCPSegment} : ∀ {b : ℕ},
    Numbered isn b (l₁ ++ l₂) ↔ Numbered isn b l₁ ∧ Numbered isn (b + seqLength l₁) l₂ := by
  induction l₁ with
  | nil => simp [Numbered]
  | cons seg rest ih =>
    intro b
    simp only [List.cons_append, Numbered, ih, seqLength_cons, and_assoc, Nat.add_assoc]

/-- The bare SYN that opens a stream. -/
def synSegment (isn : WrappingInt32) : TCPSegment :=
  { header := { seqno := isn, syn := true } }

/-- A segment with no flag but possibly FIN, as `fill_window` builds them after the SYN. -/
def Plain (seg : TCPSegment) : Prop :=
  seg.header = { seqno := seg.header.seqno, fin := seg.header.fin }

/-- Some first transmission carried FIN. -/
def finSent (s : TCPSender) : Bool :=
  s.sent.any fun seg => seg.header.fin

/-- The first transmissions are one SYN, then the stream as far as it has been read, then at
    most one FIN, in consecutively numbered segments. -/
structure Segmented (s : TCPSender) : Prop where
  -- numbering
  nextSeqno_eq : s.nextSeqno = seqLength s.sent
  numbered : Numbered s.isn 0 s.sent
  -- flags: SYN first and only there
  syn_first : ∀ seg rest, s.sent = seg :: rest → seg = synSegment s.isn
  plain : ∀ seg ∈ s.sent.tail, Plain seg
  -- contents
  payload_eq : s.sent.flatMap (·.payload) = s.stream.written.take s.stream.bytesRead
  payload_le : ∀ seg ∈ s.sent, seg.payload.length ≤ TCPConfig.maxPayloadSize
  length_pos : ∀ seg ∈ s.sent, 0 < seg.lengthInSequenceSpace
  -- flags: FIN last, and only when the stream is exhausted
  fin_last : ∀ seg ∈ s.sent.dropLast, seg.header.fin = false
  fin_done : s.finSent = true → s.stream.eof = true
  nextSeqno_split : s.sent ≠ [] →
    s.nextSeqno = 1 + s.stream.bytesRead + (if s.finSent then 1 else 0)

/-- The invariant only looks at the numbers, the stream and the history. -/
theorem Segmented.congr {s t : TCPSender} (h : Segmented s) (hisn : t.isn = s.isn)
    (hnext : t.nextSeqno = s.nextSeqno) (hstream : t.stream = s.stream)
    (hsent : t.sent = s.sent) : Segmented t := by
  have hfin : t.finSent = s.finSent := by rw [finSent, finSent, hsent]
  constructor
  · rw [hnext, hsent]; exact h.nextSeqno_eq
  · rw [hisn, hsent]; exact h.numbered
  · rw [hisn, hsent]; exact h.syn_first
  · rw [hsent]; exact h.plain
  · rw [hsent, hstream]; exact h.payload_eq
  · rw [hsent]; exact h.payload_le
  · rw [hsent]; exact h.length_pos
  · rw [hsent]; exact h.fin_last
  · rw [hfin, hstream]; exact h.fin_done
  · rw [hsent, hnext, hstream, hfin]; exact h.nextSeqno_split

namespace Segmented

variable {s : TCPSender}

/-- Nothing has been sent exactly when the next number is zero. -/
theorem sent_eq_nil_iff (h : Segmented s) : s.sent = [] ↔ s.nextSeqno = 0 := by
  constructor
  · intro hnil
    rw [h.nextSeqno_eq, hnil, seqLength_nil]
  · intro hzero
    by_contra hne
    have := h.nextSeqno_split hne
    omega

/-- FIN has been sent exactly when the next number is past the whole stream. -/
theorem finSent_iff (h : Segmented s) :
    s.finSent = true ↔ s.stream.bytesWritten + 2 ≤ s.nextSeqno := by
  have hbw := s.stream.bytesWritten_eq_add
  by_cases hne : s.sent = []
  · simp [finSent, hne, h.nextSeqno_eq]
  have hsplit := h.nextSeqno_split hne
  constructor
  · intro hfin
    have heof := (s.stream.eof_iff.mp (h.fin_done hfin)).2
    simp only [hfin, if_true] at hsplit
    simp only [heof, List.length_nil] at hbw
    omega
  · intro hle
    by_contra hfin
    simp only [hfin, if_false] at hsplit
    omega

/-- The next number once FIN has been sent. -/
theorem nextSeqno_of_finSent (h : Segmented s) (hfin : s.finSent = true) :
    s.nextSeqno = s.stream.bytesWritten + 2 := by
  have hne : s.sent ≠ [] := by
    rintro hnil
    simp [finSent, hnil] at hfin
  have hsplit := h.nextSeqno_split hne
  have hbw := s.stream.bytesWritten_eq_add
  have heof := (s.stream.eof_iff.mp (h.fin_done hfin)).2
  simp only [hfin, if_true] at hsplit
  simp only [heof, List.length_nil] at hbw
  omega

end Segmented

/-! ## §2 First transmissions -/

/-- `s` is `s₀` after the first transmissions `new`: the segments have joined both queues and
    the history, the timer runs if it was not running, the stream has only been read, and
    nothing else has changed. -/
structure Sends (s₀ : TCPSender) (new : List TCPSegment) (s : TCPSender) : Prop where
  -- unchanged
  isn : s.isn = s₀.isn
  initialRto : s.initialRetransmissionTimeout = s₀.initialRetransmissionTimeout
  rto : s.rto = s₀.rto
  retransmissionCount : s.retransmissionCount = s₀.retransmissionCount
  lastAckno : s.lastAckno = s₀.lastAckno
  lastWin : s.lastWin = s₀.lastWin
  diverged : s.diverged = s₀.diverged
  -- the stream has only been read
  written : s.stream.written = s₀.stream.written
  inputEnded : s.stream.inputEnded = s₀.stream.inputEnded
  capacity : s.stream.capacity = s₀.stream.capacity
  error : s.stream.error = s₀.stream.error
  -- the queues and the history have grown alike
  nextSeqno : s.nextSeqno = s₀.nextSeqno + seqLength new
  segmentsOut : s.segmentsOut = s₀.segmentsOut ++ new
  outstandingSeg : s.outstandingSeg = s₀.outstandingSeg ++ new
  sent : s.sent = s₀.sent ++ new
  timer : s.timer =
    if s₀.timer.isStart ∨ new = [] then s₀.timer else s₀.timer.start s₀.rto

theorem Sends.refl (s : TCPSender) : Sends s [] s := by
  constructor <;> simp

/-- The segment as `send_segment` puts it on the queues. -/
def stamped (s : TCPSender) (seg : TCPSegment) : TCPSegment :=
  { seg with header := { seg.header with seqno := s.nextSeqnoWrapped } }

@[simp] theorem lengthInSequenceSpace_stamped (s : TCPSender) (seg : TCPSegment) :
    (s.stamped seg).lengthInSequenceSpace = seg.lengthInSequenceSpace := rfl

/-- Read `n` bytes off the stream and send the segment `seg`. -/
def emit (s : TCPSender) (n : ℕ) (seg : TCPSegment) : TCPSender :=
  { s with stream := s.stream.popOutput n }.sendSegment seg

@[simp] theorem emit_sent (s : TCPSender) (n : ℕ) (seg : TCPSegment) :
    (s.emit n seg).sent = s.sent ++ [s.stamped seg] := rfl

@[simp] theorem emit_stream (s : TCPSender) (n : ℕ) (seg : TCPSegment) :
    (s.emit n seg).stream = s.stream.popOutput n := rfl

@[simp] theorem emit_nextSeqno (s : TCPSender) (n : ℕ) (seg : TCPSegment) :
    (s.emit n seg).nextSeqno = s.nextSeqno + seg.lengthInSequenceSpace := rfl

@[simp] theorem emit_lastAckno (s : TCPSender) (n : ℕ) (seg : TCPSegment) :
    (s.emit n seg).lastAckno = s.lastAckno := rfl

@[simp] theorem emit_curWin (s : TCPSender) (n : ℕ) (seg : TCPSegment) :
    (s.emit n seg).curWin = s.curWin := rfl

/-- Nothing is read from an empty stream. -/
theorem emit_of_buff_nil {s : TCPSender} (h : s.stream.buff = []) (n : ℕ) (seg : TCPSegment) :
    s.emit n seg = s.sendSegment seg := by
  rw [emit, s.stream.popOutput_of_buff_nil n h]

/-- One more first transmission. -/
theorem Sends.snoc {s₀ s : TCPSender} {new : List TCPSegment} (h : Sends s₀ new s)
    (n : ℕ) (seg : TCPSegment) : Sends s₀ (new ++ [s.stamped seg]) (s.emit n seg) := by
  constructor
  case timer =>
    simp only [emit, sendSegment, List.append_eq_nil_iff, List.cons_ne_nil, and_false, or_false,
      h.timer, h.rto]
    -- a running timer is left alone, and the first segment starts a stopped one
    by_cases hstart : s₀.timer.isStart
    · simp [hstart]
    · by_cases hnew : new = []
      · simp [hstart, hnew]
      · simp [hstart, hnew]
  case nextSeqno =>
    rw [emit_nextSeqno, h.nextSeqno, seqLength_append, seqLength_cons, seqLength_nil,
      lengthInSequenceSpace_stamped]
    omega
  case segmentsOut =>
    show s.segmentsOut ++ [s.stamped seg] = _
    rw [h.segmentsOut, List.append_assoc]
  case outstandingSeg =>
    show s.outstandingSeg ++ [s.stamped seg] = _
    rw [h.outstandingSeg, List.append_assoc]
  case sent => rw [emit_sent, h.sent, List.append_assoc]
  case isn => exact h.isn
  case initialRto => exact h.initialRto
  case rto => exact h.rto
  case retransmissionCount => exact h.retransmissionCount
  case lastAckno => exact h.lastAckno
  case lastWin => exact h.lastWin
  case diverged => exact h.diverged
  case written => exact h.written
  case inputEnded => exact h.inputEnded
  case capacity => exact h.capacity
  case error => exact h.error

/-! ## §3 Emission -/

/-- The opening SYN establishes the invariant of a stream that has begun. -/
theorem Segmented.emit_syn {s : TCPSender} (h : Segmented s) (hnil : s.sent = []) :
    Segmented (s.sendSegment { header := { syn := true } }) := by
  have hnext : s.nextSeqno = 0 := h.sent_eq_nil_iff.mp hnil
  -- nothing was read, as nothing was sent
  have hread : s.stream.bytesRead = 0 := by
    have hpay := congrArg List.length h.payload_eq
    have hle := s.stream.bytesRead_le
    simp only [hnil, List.flatMap_nil, List.length_nil, List.length_take] at hpay
    omega
  have hsent : (s.sendSegment { header := { syn := true } }).sent = [synSegment s.isn] := by
    simp [sendSegment, hnil, synSegment, nextSeqnoWrapped, hnext]
  constructor
  case nextSeqno_eq =>
    rw [hsent]
    simp [sendSegment, hnext, TCPSegment.lengthInSequenceSpace, synSegment]
  case numbered =>
    rw [hsent]
    simp [sendSegment, Numbered, synSegment]
  case syn_first =>
    rw [hsent]
    rintro seg rest ⟨⟩
    rfl
  case payload_eq =>
    rw [hsent]
    simp [sendSegment, synSegment, hread]
  case nextSeqno_split =>
    intro _
    simp only [finSent, hsent]
    simp [sendSegment, hnext, hread, TCPSegment.lengthInSequenceSpace, synSegment]
  case payload_le => rw [hsent]; simp [synSegment]
  case length_pos => rw [hsent]; simp [synSegment, TCPSegment.lengthInSequenceSpace]
  case plain => rw [hsent]; simp
  case fin_last => rw [hsent]; simp
  case fin_done =>
    intro hfin
    simp [finSent, hsent, synSegment] at hfin

/-- **Emission.**  After the SYN and before the FIN, reading `n` bytes and sending them in a
    plain segment keeps the invariant; FIN may ride along when this exhausts the stream. -/
theorem Segmented.emit {s : TCPSender} (h : Segmented s) (hne : s.sent ≠ [])
    (hnofin : s.finSent = false) {n : ℕ} {seg : TCPSegment} (hplain : Plain seg)
    (hpayload : seg.payload = s.stream.peekOutput n)
    (hle : seg.payload.length ≤ TCPConfig.maxPayloadSize)
    (hpos : 0 < seg.lengthInSequenceSpace)
    (hfin : seg.header.fin = true → (s.stream.popOutput n).eof = true) :
    Segmented (s.emit n seg) := by
  have hfinSent : (s.emit n seg).finSent = seg.header.fin := by
    have := hnofin
    simp only [finSent] at this ⊢
    rw [emit_sent, List.any_append, this]
    simp [stamped]
  have hsyn : seg.header.syn = false := by rw [hplain]
  have hstamped : (s.stamped seg).payload = seg.payload := rfl
  constructor
  case nextSeqno_eq =>
    rw [emit_sent, seqLength_append, seqLength_cons, seqLength_nil, ← h.nextSeqno_eq,
      emit_nextSeqno, lengthInSequenceSpace_stamped, Nat.add_zero]
  case numbered =>
    rw [emit_sent, numbered_append]
    refine ⟨h.numbered, ?_, trivial⟩
    show wrap s.nextSeqno s.isn = wrap (0 + seqLength s.sent) s.isn
    rw [Nat.zero_add, h.nextSeqno_eq]
  case syn_first =>
    intro a rest heq
    -- the first segment is still the first one
    obtain ⟨first, tail, hcons⟩ := List.exists_cons_of_ne_nil hne
    rw [emit_sent, hcons, List.cons_append] at heq
    have : first = a := (List.cons.inj heq).1
    rw [← this]
    exact h.syn_first first tail hcons
  case plain =>
    rw [emit_sent, List.tail_append_of_ne_nil hne]
    intro a ha
    rcases List.mem_append.mp ha with hold | hnew
    · exact h.plain a hold
    · rw [List.mem_singleton.mp hnew]
      unfold Plain stamped
      rw [hplain]
  case payload_eq =>
    rw [emit_sent, List.flatMap_append, h.payload_eq]
    simp only [List.flatMap_cons, List.flatMap_nil, List.append_nil, hstamped, hpayload]
    exact (s.stream.take_popOutput_bytesRead n).symm
  case payload_le =>
    rw [emit_sent]
    intro a ha
    rcases List.mem_append.mp ha with hold | hnew
    · exact h.payload_le a hold
    · rw [List.mem_singleton.mp hnew]
      exact hle
  case length_pos =>
    rw [emit_sent]
    intro a ha
    rcases List.mem_append.mp ha with hold | hnew
    · exact h.length_pos a hold
    · rw [List.mem_singleton.mp hnew]
      exact hpos
  case fin_last =>
    rw [emit_sent, List.dropLast_concat]
    intro a ha
    -- all segments but the new one were sent without FIN
    by_contra hcon
    have : s.finSent = true := List.any_eq_true.mpr ⟨a, ha, by simpa using hcon⟩
    simp [hnofin] at this
  case fin_done =>
    rw [hfinSent]
    exact hfin
  case nextSeqno_split =>
    intro _
    rw [hfinSent]
    have hsplit := h.nextSeqno_split hne
    have hlen : seg.payload.length = min n s.stream.buff.length := by
      rw [hpayload, s.stream.length_peekOutput]
    simp only [hnofin, Bool.false_eq_true, if_false] at hsplit
    simp only [emit_nextSeqno, emit_stream, TCPSegment.lengthInSequenceSpace, hsyn,
      ByteStream.popOutput_bytesRead, hlen, hsplit, Bool.false_eq_true, if_false]
    omega

end TCPSender

end Sponge
