import Sponge.Lib.Execution
import Sponge.Sender.Filling

/-!
# The Sender over Whole Runs

The invariant `Tracked` of a sender and its preservation by every operation.  It ties the
retransmission queue to the history of first transmissions: the queue is the history without
a front part that has been acknowledged.  The other direction, that everything acknowledged
has left the queue, is not an invariant of this sender.

## Main results

- `popAcked_split`: the pops of `ack_received` never remove an unacknowledged number
- `Tracked.apply`, `Tracked.run`: the invariant over one operation and over a run
- `segmentation_correct`: the segments a run transmits, in terms of the stream
-/

namespace Sponge

namespace TCPSender

open TCPSegment (seqLength seqLength_nil seqLength_cons seqLength_append)

/-! ## §1 The invariant -/

/-- The segment `send_empty_segment` builds when the next absolute number is `v`. -/
def emptySegment (isn : WrappingInt32) (v : ℕ) : TCPSegment :=
  { header := { seqno := wrap v isn } }

/-- A segment the sender may have put on its outbound queue: a first transmission, a copy of
    one, or an empty segment. -/
def Emitted (s : TCPSender) (seg : TCPSegment) : Prop :=
  seg ∈ s.sent ∨ ∃ v ≤ s.nextSeqno, seg = emptySegment s.isn v

structure Tracked (s : TCPSender) : Prop where
  segmented : Segmented s
  -- what has left the retransmission queue is acknowledged
  queue : ∃ acked, s.sent = acked ++ s.outstandingSeg ∧ seqLength acked ≤ s.lastAckno
  ack_le : s.lastAckno ≤ s.nextSeqno
  timer : s.timer.isStart = true ↔ s.outstandingSeg ≠ []
  -- every `fill_window` has returned
  converged : s.diverged = false
  emitted : ∀ seg ∈ s.segmentsOut, Emitted s seg

theorem Tracked.new (capacity : UInt64) (retxTimeout : UInt16)
    (fixedIsn : Option WrappingInt32) (randomDevice : UInt32) :
    Tracked (.new capacity retxTimeout fixedIsn randomDevice) := by
  constructor
  · constructor <;> simp [TCPSender.new, Numbered, finSent]
  · exact ⟨[], rfl, Nat.le_refl 0⟩
  · exact Nat.le_refl 0
  · simp [TCPSender.new, RetransmissionTimer.isStart]
  · rfl
  · simp [TCPSender.new]

/-! ## §2 What a sender never takes back -/

/-- `t` is a later state of `s`: histories and counters have only grown. -/
structure Advances (s t : TCPSender) : Prop where
  isn : t.isn = s.isn
  sent : s.sent <+: t.sent
  nextSeqno : s.nextSeqno ≤ t.nextSeqno
  lastAckno : s.lastAckno ≤ t.lastAckno
  written : s.stream.written <+: t.stream.written
  inputEnded : s.stream.inputEnded = true → t.stream.inputEnded = true
  -- nothing is accepted after the end
  frozen : s.stream.inputEnded = true → t.stream.written = s.stream.written
  error : s.stream.error = true → t.stream.error = true

theorem Advances.refl (s : TCPSender) : Advances s s :=
  ⟨rfl, List.prefix_rfl, Nat.le_refl _, Nat.le_refl _, List.prefix_rfl, id, fun _ => rfl, id⟩

theorem Advances.trans {s t u : TCPSender} (h₁ : Advances s t) (h₂ : Advances t u) :
    Advances s u where
  isn := h₂.isn.trans h₁.isn
  sent := h₁.sent.trans h₂.sent
  nextSeqno := h₁.nextSeqno.trans h₂.nextSeqno
  lastAckno := h₁.lastAckno.trans h₂.lastAckno
  written := h₁.written.trans h₂.written
  inputEnded := h₂.inputEnded ∘ h₁.inputEnded
  frozen := fun h => (h₂.frozen (h₁.inputEnded h)).trans (h₁.frozen h)
  error := h₂.error ∘ h₁.error

theorem Sends.advances {s t : TCPSender} {new : List TCPSegment} (h : Sends s new t) :
    Advances s t where
  isn := h.isn
  sent := ⟨new, h.sent.symm⟩
  nextSeqno := by rw [h.nextSeqno]; omega
  lastAckno := h.lastAckno.ge
  written := by rw [h.written]
  inputEnded := by rw [h.inputEnded]; exact id
  frozen := fun _ => h.written
  error := by rw [h.error]; exact id

/-- What has been emitted stays emitted. -/
theorem Emitted.mono {s t : TCPSender} {seg : TCPSegment} (h : Emitted s seg)
    (hst : Advances s t) : Emitted t seg := by
  rcases h with hsent | ⟨v, hv, rfl⟩
  · exact .inl (hst.sent.subset hsent)
  · exact .inr ⟨v, hv.trans hst.nextSeqno, by rw [hst.isn]⟩

/-! ## §3 First transmissions -/

/-- First transmissions keep the queue, the timer and the outbound queue in step. -/
theorem Tracked.sends {s t : TCPSender} {new : List TCPSegment} (h : Tracked s)
    (hsends : Sends s new t) (hseg : Segmented t) : Tracked t := by
  obtain ⟨acked, hsplit, hacked⟩ := h.queue
  have hadv := hsends.advances
  refine ⟨hseg, ⟨acked, ?_, ?_⟩, ?_, ?timer, ?_, ?emitted⟩
  · rw [hsends.sent, hsends.outstandingSeg, hsplit, List.append_assoc]
  · rw [hsends.lastAckno]
    exact hacked
  · rw [hsends.lastAckno]
    exact h.ack_le.trans hadv.nextSeqno
  case timer =>
    rw [hsends.timer, hsends.outstandingSeg]
    by_cases hnew : new = []
    · simpa [hnew] using h.timer
    · -- the first new segment starts the timer if the queue was empty
      by_cases hstart : s.timer.isStart = true <;> simp [hnew, hstart]
  · rw [hsends.diverged]
    exact h.converged
  case emitted =>
    intro seg hmem
    rw [hsends.segmentsOut] at hmem
    rcases List.mem_append.mp hmem with hold | hnew
    · exact (h.emitted seg hold).mono hadv
    · left
      rw [hsends.sent]
      exact List.mem_append_right _ hnew

/-- All that `fill_window` does is to transmit new segments. -/
theorem Tracked.fillWindow_sends {s : TCPSender} (h : Tracked s) :
    ∃ new, Sends s new s.fillWindow :=
  (fillWindow_spec h.segmented h.ack_le).1

theorem Tracked.fillWindow {s : TCPSender} (h : Tracked s) : Tracked s.fillWindow := by
  obtain ⟨⟨new, hsends⟩, hseg, -⟩ := fillWindow_spec h.segmented h.ack_le
  exact h.sends hsends hseg

theorem Tracked.fillWindow_advances {s : TCPSender} (h : Tracked s) :
    Advances s s.fillWindow := by
  obtain ⟨new, hsends⟩ := h.fillWindow_sends
  exact hsends.advances

/-- A sender that has nothing queued and on which `fill_window` queues nothing. -/
def Idle (s : TCPSender) : Prop :=
  s.segmentsOut = [] ∧ 0 < s.nextSeqno ∧ (s.lastAckno = 0 ∨ Filled s)

/-- **When `fill_window` is silent.** -/
theorem Tracked.fillWindow_silent_iff {s : TCPSender} (h : Tracked s) :
    s.fillWindow.segmentsOut = [] ↔ Idle s := by
  unfold Idle
  rcases Nat.eq_zero_or_pos s.nextSeqno with hzero | hpos
  · -- a SYN is due
    rw [fillWindow_of_closed hzero]
    simp [sendSegment, hzero]
  · rcases Nat.eq_zero_or_pos s.lastAckno with hack | hack
    · rw [fillWindow_of_unacked hpos hack]
      simp [hpos, hack]
    · obtain ⟨new, hsends, hnone⟩ := (fillWindow_of_acked h.segmented hack h.ack_le).sends
      have hfilled := fillWindow_eq_self_iff h.segmented hack h.ack_le
      rw [hsends.segmentsOut, List.append_eq_nil_iff]
      constructor
      · rintro ⟨hout, hnew⟩
        exact ⟨hout, hpos, .inr (hfilled.mp (hnone hnew))⟩
      · rintro ⟨hout, -, hzero | hfill⟩
        · omega
        · refine ⟨hout, ?_⟩
          have hsent := hsends.sent
          rw [hfilled.mpr hfill] at hsent
          exact List.self_eq_append_right.mp hsent

/-! ## §4 Acknowledgements -/

/-- A sum of raw numbers that stays below the raw acknowledgement number stays below the
    absolute one. -/
private theorem end_le_of_raw_le {isn : WrappingInt32} {b a len : ℕ} (hba : b ≤ a)
    (h : (wrap b isn).rawValue.toNat + len ≤ (wrap a isn).rawValue.toNat) : b + len ≤ a := by
  rw [wrap_toNat, wrap_toNat] at h
  omega

theorem popAcked_cons_of_le {ackno : WrappingInt32} {seg : TCPSegment} (rest : List TCPSegment)
    (h : seg.header.seqno.rawValue.toNat + seg.lengthInSequenceSpace ≤ ackno.rawValue.toNat) :
    popAcked ackno (seg :: rest) = popAcked ackno rest := by
  rw [popAcked, List.dropWhile_cons_of_pos (by simpa using h), ← popAcked]

theorem popAcked_cons_of_lt {ackno : WrappingInt32} {seg : TCPSegment} (rest : List TCPSegment)
    (h : ackno.rawValue.toNat < seg.header.seqno.rawValue.toNat + seg.lengthInSequenceSpace) :
    popAcked ackno (seg :: rest) = seg :: rest := by
  rw [popAcked, List.dropWhile_cons_of_neg (by simpa using h)]

/-- **Pops are sound.**  From a queue that starts at or below the acknowledged number, only
    segments that lie entirely below it are popped. -/
theorem popAcked_split {isn : WrappingInt32} {a : ℕ} {segs : List TCPSegment} : ∀ {b : ℕ},
    Numbered isn b segs → b ≤ a →
      ∃ popped, segs = popped ++ popAcked (wrap a isn) segs ∧ b + seqLength popped ≤ a := by
  induction segs with
  | nil => exact fun _ hba => ⟨[], rfl, hba⟩
  | cons seg rest ih =>
    intro b hnum hba
    obtain ⟨hseqno, hrest⟩ := hnum
    rcases Nat.lt_or_ge (wrap a isn).rawValue.toNat
      (seg.header.seqno.rawValue.toNat + seg.lengthInSequenceSpace) with hkeep | hpop
    · exact ⟨[], (popAcked_cons_of_lt rest hkeep).symm, hba⟩
    · -- what is popped ends at or below `a`, so the rest of the queue starts there
      have hpop' := hpop
      rw [hseqno] at hpop'
      obtain ⟨popped, hsplit, hle⟩ := ih hrest (end_le_of_raw_le hba hpop')
      refine ⟨seg :: popped, ?_, ?_⟩
      · rw [popAcked_cons_of_le rest hpop, List.cons_append, ← hsplit]
      · rw [seqLength_cons]
        omega

section AcceptAck

variable {s t : TCPSender} {ackno : WrappingInt32} {win : UInt16}

/-- The two ways of accepting an acknowledgement. -/
theorem acceptAck_cases (h : s.acceptAck ackno win = some t) :
    (s.lastAckno < unwrap ackno s.isn s.lastAckno ∧
      unwrap ackno s.isn s.lastAckno ≤ s.nextSeqno ∧
      t = { s with
        lastAckno := unwrap ackno s.isn s.lastAckno
        outstandingSeg := popAcked ackno s.outstandingSeg
        retransmissionCount := 0
        rto := s.initialRetransmissionTimeout
        timer := if !(popAcked ackno s.outstandingSeg).isEmpty
          then s.timer.start s.initialRetransmissionTimeout else s.timer.stop
        lastWin := win }) ∨
    (unwrap ackno s.isn s.lastAckno ≤ s.lastAckno ∧ t = { s with lastWin := win }) := by
  simp only [acceptAck] at h
  split at h
  · cases h
  · rename_i hle
    split at h
    · rename_i hnew
      exact .inl ⟨hnew, by omega, (Option.some.inj h).symm⟩
    · rename_i hold
      exact .inr ⟨by omega, (Option.some.inj h).symm⟩

theorem acceptAck_eq_none_iff :
    s.acceptAck ackno win = none ↔ s.nextSeqno < unwrap ackno s.isn s.lastAckno := by
  simp only [acceptAck]
  split
  · simpa
  · split <;> simpa using by omega

/-- As long as nothing is acknowledged, the own initial sequence number is accepted like any
    repeated acknowledgement. -/
theorem ackReceived_isn (h : s.lastAckno = 0) :
    s.ackReceived s.isn win = fillWindow { s with lastWin := win } := by
  have hacc : s.acceptAck s.isn win = some { s with lastWin := win } := by
    simp [TCPSender.acceptAck, h, unwrap_isn]
  rw [TCPSender.ackReceived, hacc]

/-- Accepting an acknowledgement leaves the stream and what has been transmitted alone. -/
theorem acceptAck_frame (h : s.acceptAck ackno win = some t) :
    t.stream = s.stream ∧ t.sent = s.sent ∧ t.segmentsOut = s.segmentsOut := by
  rcases acceptAck_cases h with ⟨-, -, rfl⟩ | ⟨-, rfl⟩ <;> exact ⟨rfl, rfl, rfl⟩

theorem acceptAck_advances (h : s.acceptAck ackno win = some t) : Advances s t := by
  rcases acceptAck_cases h with ⟨hnew, -, rfl⟩ | ⟨-, rfl⟩
  · exact { Advances.refl s with lastAckno := hnew.le }
  · exact { Advances.refl s with }

theorem Tracked.acceptAck (h : Tracked s) (hacc : s.acceptAck ackno win = some t) :
    Tracked t := by
  have hadv := acceptAck_advances hacc
  rcases acceptAck_cases hacc with ⟨hnew, hle, rfl⟩ | ⟨-, rfl⟩
  · obtain ⟨acked, hsplit, hacked⟩ := h.queue
    -- the queue is numbered from the end of what has left it
    have hnum : Numbered s.isn (seqLength acked) s.outstandingSeg := by
      have := h.segmented.numbered
      rw [hsplit, numbered_append, Nat.zero_add] at this
      exact this.2
    obtain ⟨popped, hpop, hpopped⟩ :=
      popAcked_split (a := unwrap ackno s.isn s.lastAckno) hnum (by omega)
    rw [wrap_unwrap] at hpop
    refine ⟨h.segmented.congr rfl rfl rfl rfl, ⟨acked ++ popped, ?_, ?_⟩, hle, ?timer,
      h.converged, fun seg hmem => (h.emitted seg hmem).mono hadv⟩
    · rw [hsplit, List.append_assoc, ← hpop]
    · rw [seqLength_append]
      exact hpopped
    case timer =>
      dsimp only
      cases popAcked ackno s.outstandingSeg <;> simp
  · exact ⟨h.segmented.congr rfl rfl rfl rfl, h.queue, h.ack_le, h.timer, h.converged,
      h.emitted⟩

theorem Tracked.ackReceived (h : Tracked s) : Tracked (s.ackReceived ackno win) := by
  unfold TCPSender.ackReceived
  split
  · exact h
  · rename_i t hacc
    exact (h.acceptAck hacc).fillWindow

theorem Tracked.ackReceived_advances (h : Tracked s) :
    Advances s (s.ackReceived ackno win) := by
  unfold TCPSender.ackReceived
  split
  · exact Advances.refl s
  · rename_i t hacc
    exact (acceptAck_advances hacc).trans (h.acceptAck hacc).fillWindow_advances

end AcceptAck

/-! ## §5 The stream, the clock and the outbound queue -/

/-- Writing and closing the stream keep the segmentation: nothing is written after the end. -/
theorem Segmented.of_stream {s : TCPSender} (h : Segmented s) {stream : ByteStream}
    (hread : stream.bytesRead = s.stream.bytesRead)
    (hwritten : s.stream.written <+: stream.written)
    (hended : s.stream.eof = true → stream.eof = true) :
    Segmented { s with stream } := by
  obtain ⟨more, hmore⟩ := hwritten
  refine ⟨h.nextSeqno_eq, h.numbered, h.syn_first, h.plain, ?_, h.payload_le, h.length_pos,
    h.fin_last, fun hfin => hended (h.fin_done hfin), ?_⟩
  · rw [h.payload_eq, hread, ← hmore, List.take_append_of_le_length s.stream.bytesRead_le]
  · intro hne
    rw [hread]
    exact h.nextSeqno_split hne

/-- `write` is silent at the end of the stream. -/
private theorem eof_write {stream : ByteStream} (data : Bytes) (h : stream.eof = true) :
    (stream.write data).1.eof = true := by
  obtain ⟨hended, hnil⟩ := stream.eof_iff.mp h
  rw [ByteStream.eof_iff]
  simp [ByteStream.accepted, hended, hnil]

theorem Tracked.of_stream {s : TCPSender} (h : Tracked s) {stream : ByteStream}
    (hread : stream.bytesRead = s.stream.bytesRead)
    (hwritten : s.stream.written <+: stream.written)
    (hended : s.stream.eof = true → stream.eof = true) : Tracked { s with stream } :=
  ⟨h.segmented.of_stream hread hwritten hended, h.queue, h.ack_le, h.timer, h.converged,
    h.emitted⟩

/-- The invariant says of the outbound queue only what its segments are. -/
theorem Tracked.of_segmentsOut {s : TCPSender} (h : Tracked s) {segs : List TCPSegment}
    (hsegs : ∀ seg ∈ segs, Emitted s seg) : Tracked { s with segmentsOut := segs } :=
  ⟨h.segmented.congr rfl rfl rfl rfl, h.queue, h.ack_le, h.timer, h.converged, hsegs⟩

theorem Tracked.sendEmptySegment {s : TCPSender} (h : Tracked s) :
    Tracked s.sendEmptySegment := by
  apply h.of_segmentsOut
  intro seg hmem
  rcases List.mem_append.mp hmem with hold | hnew
  · exact h.emitted seg hold
  · exact .inr ⟨s.nextSeqno, Nat.le_refl _, List.mem_singleton.mp hnew⟩

/-- What `tick` changes: the clock, the back-off, and at most one retransmission of the front
    of the queue. -/
theorem tick_spec (s : TCPSender) (ms : UInt64) :
    s.tick ms = { s with
      timer := (s.tick ms).timer, rto := (s.tick ms).rto
      retransmissionCount := (s.tick ms).retransmissionCount
      segmentsOut := (s.tick ms).segmentsOut } ∧
    (∃ copies, (s.tick ms).segmentsOut = s.segmentsOut ++ copies ∧
      ∀ seg ∈ copies, seg ∈ s.outstandingSeg) ∧
    ((s.timer.isStart = true ↔ s.outstandingSeg ≠ []) →
      ((s.tick ms).timer.isStart = true ↔ s.outstandingSeg ≠ [])) := by
  unfold tick
  split
  · -- nothing in flight
    rename_i hnil
    exact ⟨by rfl, ⟨[], by simp, by simp⟩, by simp [hnil]⟩
  · rename_i front rest hcons
    dsimp only
    split
    · -- the timer has expired
      refine ⟨?_, ⟨[front], ?_, ?_⟩, ?_⟩
      · split <;> rfl
      · split <;> rfl
      · simp [hcons]
      · simp [hcons]
    · exact ⟨by rfl, ⟨[], by simp, by simp⟩, by simp⟩

@[simp] theorem tick_stream (s : TCPSender) (ms : UInt64) : (s.tick ms).stream = s.stream := by
  rw [(s.tick_spec ms).1]

@[simp] theorem tick_nextSeqno (s : TCPSender) (ms : UInt64) :
    (s.tick ms).nextSeqno = s.nextSeqno := by
  rw [(s.tick_spec ms).1]

@[simp] theorem tick_lastAckno (s : TCPSender) (ms : UInt64) :
    (s.tick ms).lastAckno = s.lastAckno := by
  rw [(s.tick_spec ms).1]

theorem Tracked.outstanding_subset {s : TCPSender} (h : Tracked s) :
    s.outstandingSeg ⊆ s.sent := by
  obtain ⟨acked, hsplit, -⟩ := h.queue
  rw [hsplit]
  exact List.subset_append_right _ _

theorem Tracked.tick {s : TCPSender} (h : Tracked s) (ms : UInt64) : Tracked (s.tick ms) := by
  obtain ⟨heq, ⟨copies, hout, hcopies⟩, htimer⟩ := s.tick_spec ms
  rw [heq]
  refine ⟨h.segmented.congr rfl rfl rfl rfl, h.queue, h.ack_le, htimer h.timer, h.converged, ?_⟩
  dsimp only
  rw [hout]
  intro seg hmem
  rcases List.mem_append.mp hmem with hold | hcopy
  · exact h.emitted seg hold
  · exact .inl (h.outstanding_subset (hcopies seg hcopy))

/-! ## §6 Every operation, every run -/

/-- **The invariant over one operation.** -/
theorem Tracked.apply {s : TCPSender} (h : Tracked s) (op : Op) : Tracked (s.apply op) := by
  cases op with
  | write data => exact h.of_stream (by simp) (by simp) (eof_write data)
  | endInput => exact h.of_stream rfl List.prefix_rfl (by simp [ByteStream.eof_iff])
  | fillWindow => exact h.fillWindow
  | ackReceived ackno win => exact h.ackReceived
  | tick ms => exact h.tick ms
  | sendEmptySegment => exact h.sendEmptySegment
  | dequeue => exact h.of_segmentsOut fun seg hmem => h.emitted seg (List.mem_of_mem_tail hmem)
  | setError => exact h.of_stream rfl List.prefix_rfl (by simp [ByteStream.eof_iff])

theorem Tracked.apply_advances {s : TCPSender} (h : Tracked s) (op : Op) :
    Advances s (s.apply op) := by
  cases op with
  | write data =>
    refine { Advances.refl s with written := ?_, inputEnded := ?_, frozen := ?_, error := ?_ }
    · simp [TCPSender.apply]
    · simp [TCPSender.apply]
    · intro hended
      simp [TCPSender.apply, ByteStream.accepted, hended]
    · simp [TCPSender.apply]
  | endInput => exact { Advances.refl s with inputEnded := fun _ => rfl }
  | fillWindow => exact h.fillWindow_advances
  | ackReceived ackno win => exact h.ackReceived_advances
  | tick ms =>
    rw [TCPSender.apply, (s.tick_spec ms).1]
    exact { Advances.refl s with }
  | sendEmptySegment => exact { Advances.refl s with }
  | dequeue => exact { Advances.refl s with }
  | setError => exact { Advances.refl s with error := fun _ => rfl }

/-- **The invariant over a run.** -/
theorem Tracked.run {s : TCPSender} (h : Tracked s) (ops : List Op) :
    Tracked (s.run ops) ∧ Advances s (s.run ops) := by
  induction ops generalizing s with
  | nil => exact ⟨h, Advances.refl s⟩
  | cons op ops ih =>
    obtain ⟨htracked, hadv⟩ := ih (h.apply op)
    exact ⟨htracked, (h.apply_advances op).trans hadv⟩

/-- Only closing the stream ends it. -/
theorem Tracked.inputEnded_apply {s : TCPSender} (h : Tracked s) {op : Op}
    (hended : (s.apply op).stream.inputEnded = true) :
    s.stream.inputEnded = true ∨ op = .endInput := by
  cases op with
  | endInput => exact .inr rfl
  | write data => exact .inl (by simpa [TCPSender.apply] using hended)
  | fillWindow =>
    obtain ⟨new, hsends⟩ := h.fillWindow_sends
    exact .inl (hsends.inputEnded.symm.trans hended)
  | ackReceived ackno win =>
    left
    simp only [TCPSender.apply, TCPSender.ackReceived] at hended
    split at hended
    · exact hended
    · rename_i t hacc
      obtain ⟨new, hsends⟩ := (h.acceptAck hacc).fillWindow_sends
      rwa [hsends.inputEnded, (acceptAck_frame hacc).1] at hended
  | tick ms =>
    rw [TCPSender.apply, (s.tick_spec ms).1] at hended
    exact .inl hended
  | sendEmptySegment => exact .inl hended
  | dequeue => exact .inl hended
  | setError => exact .inl hended

theorem Tracked.inputEnded_run {s : TCPSender} (h : Tracked s) {ops : List Op}
    (hended : (s.run ops).stream.inputEnded = true) :
    s.stream.inputEnded = true ∨ .endInput ∈ ops := by
  induction ops generalizing s with
  | nil => exact .inl hended
  | cons op ops ih =>
    rcases ih (h.apply op) hended with hfirst | hmem
    · rcases h.inputEnded_apply hfirst with hbefore | rfl
      · exact .inl hbefore
      · exact .inr List.mem_cons_self
    · exact .inr (List.mem_cons_of_mem _ hmem)

/-- The acknowledged number only moves to numbers that were acknowledged. -/
theorem Tracked.lastAckno_apply_le {s : TCPSender} (h : Tracked s) {T : ℕ} (hT : T ≤ 2 ^ 31)
    {op : Op} (hle : s.lastAckno ≤ T)
    (hack : ∀ ackno win, op = .ackReceived ackno win →
      ∃ t, 1 ≤ t ∧ t ≤ T ∧ ackno = wrap t s.isn) : (s.apply op).lastAckno ≤ T := by
  cases op with
  | ackReceived ackno win =>
    simp only [TCPSender.apply, TCPSender.ackReceived]
    split
    · exact hle
    · rename_i t hacc
      obtain ⟨new, hsends⟩ := (h.acceptAck hacc).fillWindow_sends
      rw [hsends.lastAckno]
      rcases acceptAck_cases hacc with ⟨-, -, rfl⟩ | ⟨-, rfl⟩
      · -- the number is recovered, as both it and the last one are below `2 ^ 31`
        obtain ⟨t, hpos, htT, rfl⟩ := hack ackno win rfl
        dsimp only
        rw [unwrap_wrap s.isn (by omega) (by omega) (by omega) (by omega)]
        exact htT
      · exact hle
  | fillWindow =>
    obtain ⟨new, hsends⟩ := h.fillWindow_sends
    exact hsends.lastAckno.trans_le hle
  | tick ms =>
    rw [TCPSender.apply, (s.tick_spec ms).1]
    exact hle
  | write data => exact hle
  | endInput => exact hle
  | sendEmptySegment => exact hle
  | dequeue => exact hle
  | setError => exact hle

theorem Tracked.lastAckno_run_le {s : TCPSender} (h : Tracked s) {T : ℕ} (hT : T ≤ 2 ^ 31)
    {ops : List Op} (hle : s.lastAckno ≤ T)
    (hacks : ∀ ackno win, .ackReceived ackno win ∈ ops →
      ∃ t, 1 ≤ t ∧ t ≤ T ∧ ackno = wrap t s.isn) : (s.run ops).lastAckno ≤ T := by
  induction ops generalizing s with
  | nil => exact hle
  | cons op ops ih =>
    have hfirst : (s.apply op).lastAckno ≤ T := by
      apply h.lastAckno_apply_le hT hle
      rintro ackno win rfl
      exact hacks ackno win List.mem_cons_self
    refine ih (h.apply op) hfirst ?_
    intro ackno win hmem
    rw [(h.apply_advances op).isn]
    exact hacks ackno win (List.mem_cons_of_mem _ hmem)

/-! ## §7 Segmentation -/

/-- The segments consecutive numbering refers to by position. -/
theorem Numbered.seqno_eq {isn : WrappingInt32} {pre post : List TCPSegment} {seg : TCPSegment}
    {b : ℕ} (h : Numbered isn b (pre ++ seg :: post)) :
    seg.header.seqno = wrap (b + seqLength pre) isn :=
  (numbered_append.mp h).2.1

/-- A FIN segment is the last one, and the whole stream has gone before it. -/
theorem Segmented.of_fin {s : TCPSender} (h : Segmented s) {pre post : List TCPSegment}
    {seg : TCPSegment} (hsplit : s.sent = pre ++ seg :: post) (hfin : seg.header.fin = true) :
    post = [] ∧ s.stream.inputEnded = true ∧ s.stream.bytesRead = s.stream.bytesWritten ∧
      s.nextSeqno = s.stream.bytesWritten + 2 := by
  have hsent : s.finSent = true := by
    rw [finSent, hsplit]
    simp [hfin]
  obtain ⟨hended, hnil⟩ := s.stream.eof_iff.mp (h.fin_done hsent)
  refine ⟨?_, hended, ?_, h.nextSeqno_of_finSent hsent⟩
  -- nothing was sent after the FIN
  · by_contra hne
    -- otherwise the segment would stand before the last one
    have hmem : seg ∈ s.sent.dropLast := by
      rw [hsplit, List.dropLast_append_of_ne_nil (by simp), List.dropLast_cons_of_ne_nil hne]
      simp
    rw [h.fin_last seg hmem] at hfin
    cases hfin
  · have := s.stream.bytesWritten_eq_add
    rw [hnil] at this
    simpa using this.symm

/-- What one operation adds to the history and to the outbound queue. -/
theorem Tracked.placement {s : TCPSender} (h : Tracked s) (op : Op) (hop : op ≠ .dequeue) :
    ∃ first others, (s.apply op).sent = s.sent ++ first ∧
      (s.apply op).segmentsOut = s.segmentsOut ++ first ++ others ∧
      ∀ seg ∈ others, seg ∈ s.sent ∨ seg = emptySegment s.isn s.nextSeqno := by
  -- all that a call of `fill_window` puts on the queue is transmitted for the first time
  have hfill : ∀ {t : TCPSender}, Tracked t → t.sent = s.sent → t.segmentsOut = s.segmentsOut →
      ∃ first others, t.fillWindow.sent = s.sent ++ first ∧
        t.fillWindow.segmentsOut = s.segmentsOut ++ first ++ others ∧
        ∀ seg ∈ others, seg ∈ s.sent ∨ seg = emptySegment s.isn s.nextSeqno := by
    intro t ht hsent hout
    obtain ⟨new, hsends⟩ := ht.fillWindow_sends
    refine ⟨new, [], ?_, ?_, by simp⟩
    · rw [hsends.sent, hsent]
    · rw [hsends.segmentsOut, hout, List.append_nil]
  cases op with
  | fillWindow => exact hfill h rfl rfl
  | ackReceived ackno win =>
    simp only [TCPSender.apply, TCPSender.ackReceived]
    split
    · exact ⟨[], [], by simp, by simp, by simp⟩
    · rename_i t hacc
      obtain ⟨-, hsent, hout⟩ := acceptAck_frame hacc
      exact hfill (h.acceptAck hacc) hsent hout
  | tick ms =>
    obtain ⟨heq, ⟨copies, hout, hcopies⟩, -⟩ := s.tick_spec ms
    refine ⟨[], copies, ?_, ?_, fun seg hseg => .inl (h.outstanding_subset (hcopies seg hseg))⟩
    · rw [TCPSender.apply, heq, List.append_nil]
    · rw [TCPSender.apply, hout, List.append_nil]
  | sendEmptySegment =>
    refine ⟨[], [emptySegment s.isn s.nextSeqno], by simp [TCPSender.apply,
      TCPSender.sendEmptySegment], ?_, by simp⟩
    rw [List.append_nil]
    rfl
  | dequeue => exact absurd rfl hop
  | write data => exact ⟨[], [], by simp [TCPSender.apply], by simp [TCPSender.apply], by simp⟩
  | endInput => exact ⟨[], [], by simp [TCPSender.apply], by simp [TCPSender.apply], by simp⟩
  | setError => exact ⟨[], [], by simp [TCPSender.apply], by simp [TCPSender.apply], by simp⟩

/-- **Segmentation.**  The first transmissions of every run of a sender: a bare SYN at the
    initial sequence number, then the bytes read from the stream, numbered without gaps, then
    at most one FIN.  Whatever else an operation puts on the outbound queue is a copy of an
    earlier first transmission or an empty segment at `next_seqno()`. -/
theorem segmentation_correct (capacity : UInt64) (retxTimeout : UInt16)
    (fixedIsn : Option WrappingInt32) (randomDevice : UInt32) (ops : List Op) :
    let s := (TCPSender.new capacity retxTimeout fixedIsn randomDevice).run ops
    (∀ first rest, s.sent = first :: rest →
      first = { header := { seqno := s.isn, syn := true } } ∧
        ∀ seg ∈ rest, seg.header.syn = false) ∧
    s.sent.flatMap (·.payload) = s.stream.written.take s.stream.bytesRead ∧
    (∀ pre seg post, s.sent = pre ++ seg :: post →
      seg.header.seqno = wrap (seqLength pre) s.isn ∧
      seg.payload.length ≤ TCPConfig.maxPayloadSize ∧ 0 < seg.lengthInSequenceSpace ∧
      (seg.header.fin = true →
        post = [] ∧ s.stream.inputEnded = true ∧ s.stream.bytesRead = s.stream.bytesWritten ∧
          s.nextSeqno = s.stream.bytesWritten + 2)) ∧
    ∀ op ≠ .dequeue, ∃ first others,
      (s.apply op).sent = s.sent ++ first ∧
      (s.apply op).segmentsOut = s.segmentsOut ++ first ++ others ∧
      ∀ seg ∈ others, seg ∈ s.sent ∨ seg = { header := { seqno := s.nextSeqnoWrapped } } := by
  intro s
  have h : Tracked s := ((Tracked.new capacity retxTimeout fixedIsn randomDevice).run ops).1
  refine ⟨?_, h.segmented.payload_eq, ?_, fun op hop => h.placement op hop⟩
  · intro first rest hcons
    refine ⟨h.segmented.syn_first first rest hcons, ?_⟩
    intro seg hmem
    have hplain : Plain seg := h.segmented.plain seg (by rw [hcons]; exact hmem)
    rw [hplain]
  · intro pre seg post hsplit
    have hmem : seg ∈ s.sent := by rw [hsplit]; simp
    have hnum := h.segmented.numbered
    rw [hsplit] at hnum
    refine ⟨?_, h.segmented.payload_le seg hmem, h.segmented.length_pos seg hmem,
      h.segmented.of_fin hsplit⟩
    rw [hnum.seqno_eq, Nat.zero_add]

end TCPSender

end Sponge
