import Sponge.Connection.Timing

/-!
# Closing a Connection

When a connection becomes inactive without an error, and whether it lingers before.

- `Orderly c`: how the two directions and the linger flag belong together
- `passive_closer_iff`: the linger flag is cleared when the peer closes first; the code takes
  `eof()` of the outbound stream for the FIN having been sent, and the two differ while the FIN
  waits for room in the window
- `clean_close_iff`: a connection is closed exactly when both directions are done and the waiting
  time is over; the code adds up that time in a `size_t`
-/

namespace Sponge

namespace TCPSender

/-! ## §1 The FIN of the sender -/

/-- The FIN has been sent. -/
def FinGone (s : TCPSender) : Prop :=
  s.stream.inputEnded = true ∧ s.stream.bytesWritten + 2 ≤ s.nextSeqno

/-- The room that `fill_window` finds once an acknowledgement has been processed: none if it is
    ignored or the SYN has not been acknowledged. -/
def roomAfter (s : TCPSender) (ackno : WrappingInt32) (win : UInt16) : ℕ :=
  let absAck := unwrap ackno s.isn s.lastAckno
  if s.nextSeqno < absAck ∨ max s.lastAckno absAck = 0 then 0
  else sizeTSub (max win.toNat 1) (s.nextSeqno - max s.lastAckno absAck)

section Fin

variable {s t : TCPSender}

/-- The next number before and after the FIN. -/
theorem Tracked.nextSeqno_cases (h : Tracked s) (hpos : 0 < s.nextSeqno) :
    (s.nextSeqno = 1 + s.stream.bytesRead ∧ s.nextSeqno < s.stream.bytesWritten + 2) ∨
      (s.nextSeqno = s.stream.bytesWritten + 2 ∧ s.stream.eof = true) := by
  have hbw := s.stream.bytesWritten_eq_add
  have hne : s.sent ≠ [] := by
    rw [ne_eq, h.segmented.sent_eq_nil_iff]
    omega
  have hsplit := h.segmented.nextSeqno_split hne
  cases hfin : s.finSent with
  | false =>
    simp only [hfin, Bool.false_eq_true, if_false, Nat.add_zero] at hsplit
    exact .inl ⟨hsplit, by omega⟩
  | true => exact .inr ⟨h.segmented.nextSeqno_of_finSent hfin, h.segmented.fin_done hfin⟩

theorem Tracked.eof_of_finGone (h : Tracked s) (hfin : FinGone s) : s.stream.eof = true :=
  h.segmented.fin_done (h.segmented.finSent_iff.mpr hfin.2)

/-- An outbound stream that is exhausted stays exhausted. -/
theorem Advances.eof (hadv : Advances s t) (hs : Tracked s) (ht : Tracked t)
    (hpos : 0 < s.nextSeqno) (heof : s.stream.eof = true) : t.stream.eof = true := by
  obtain ⟨hended, hnil⟩ := s.stream.eof_iff.mp heof
  have hlen : t.stream.bytesWritten = s.stream.bytesWritten := by
    rw [t.stream.bytesWritten_eq, s.stream.bytesWritten_eq, hadv.frozen hended]
  have hbs := s.stream.bytesWritten_eq_add
  have hbt := t.stream.bytesWritten_eq_add
  rw [hnil, List.length_nil] at hbs
  have hnext := hadv.nextSeqno
  rcases ht.nextSeqno_cases (by omega) with ⟨heq, -⟩ | ⟨-, heof⟩
  · -- everything has been read, as the next number has not gone back
    rw [t.stream.eof_iff]
    refine ⟨hadv.inputEnded hended, List.length_eq_zero_iff.mp ?_⟩
    rcases hs.nextSeqno_cases hpos with ⟨heqs, -⟩ | ⟨heqs, -⟩ <;> omega
  · exact heof

/-- **When the FIN is left behind.**  A call of `fill_window` empties the stream without sending
    the FIN exactly when the bytes left fill the window. -/
theorem fillWindow_stalls_iff (h : Tracked s) (hack : 0 < s.lastAckno)
    (hended : s.stream.inputEnded = true) :
    (s.fillWindow.stream.eof = true ∧ ¬ FinGone s.fillWindow) ↔
      (¬ FinGone s ∧ s.stream.bufferSize = s.remainingWin) := by
  have hpost := fillWindow_of_acked h.segmented hack h.ack_le
  obtain ⟨new, hsends, -⟩ := hpost.sends
  have hedge := fillWindow_edge h.segmented hack h.ack_le
  have hu := h.fillWindow
  have hadv := h.fillWindow_advances
  generalize s.fillWindow = u at *
  have hended' : u.stream.inputEnded = true := hsends.inputEnded.trans hended
  have hlen : u.stream.bytesWritten = s.stream.bytesWritten := by
    rw [u.stream.bytesWritten_eq, s.stream.bytesWritten_eq, hsends.written]
  have hbs := s.stream.bytesWritten_eq_add
  have hbu := u.stream.bytesWritten_eq_add
  have hpos : 0 < s.nextSeqno := hack.trans_le h.ack_le
  have hnext := hadv.nextSeqno
  have hempty : u.stream.eof = true ↔ u.stream.buff.length = 0 := by
    rw [u.stream.eof_iff, List.length_eq_zero_iff]
    simp [hended']
  have hfilled : u.remainingWin = 0 ∨
      (u.stream.buff.length = 0 ∧ u.stream.bytesWritten + 2 ≤ u.nextSeqno) :=
    hpost.filled.imp id fun hdone => ⟨List.length_eq_zero_iff.mpr hdone.1, hdone.2 hended'⟩
  unfold edge at hedge
  unfold FinGone ByteStream.bufferSize
  rw [hempty]
  simp only [hended, hended', true_and, not_le]
  have hscases := h.nextSeqno_cases hpos
  have hucases := hu.nextSeqno_cases (by omega)
  rw [hempty] at hucases
  omega

/-- The same over a whole acknowledgement. -/
theorem ackReceived_stalls_iff (h : Tracked s) (hpos : 0 < s.nextSeqno)
    (hended : s.stream.inputEnded = true) (ackno : WrappingInt32) (win : UInt16) :
    ((s.ackReceived ackno win).stream.eof = true ∧ ¬ FinGone (s.ackReceived ackno win)) ↔
      (¬ FinGone s ∧ s.stream.bufferSize = s.roomAfter ackno win) := by
  -- without room, nothing is sent
  have hidle : (s.stream.eof = true ∧ ¬ FinGone s) ↔ (¬ FinGone s ∧ s.stream.bufferSize = 0) := by
    rw [s.stream.eof_iff, ByteStream.bufferSize, List.length_eq_zero_iff, and_comm]
    simp [hended]
  unfold ackReceived roomAfter
  dsimp only
  cases hacc : s.acceptAck ackno win with
  | none =>
    rw [if_pos (.inl (acceptAck_eq_none_iff.mp hacc))]
    exact hidle
  | some t =>
    have ht := h.acceptAck hacc
    have hle : ¬ s.nextSeqno < unwrap ackno s.isn s.lastAckno := by
      intro hlt
      rw [acceptAck_eq_none_iff.mpr hlt] at hacc
      cases hacc
    have hfields : t.lastAckno = max s.lastAckno (unwrap ackno s.isn s.lastAckno) ∧
        t.nextSeqno = s.nextSeqno ∧ t.lastWin = win := by
      rcases acceptAck_cases hacc with ⟨hnew, -, rfl⟩ | ⟨hold, rfl⟩
      · exact ⟨(Nat.max_eq_right hnew.le).symm, rfl, rfl⟩
      · exact ⟨(Nat.max_eq_left hold).symm, rfl, rfl⟩
    obtain ⟨hackno, hnext, hwin⟩ := hfields
    obtain ⟨hstream, -, -⟩ := acceptAck_frame hacc
    have hgone : FinGone t ↔ FinGone s := by
      unfold FinGone
      rw [hstream, hnext]
    dsimp only
    rw [← hackno]
    rcases Nat.eq_zero_or_pos t.lastAckno with hzero | hack
    · rw [fillWindow_of_unacked (hnext ▸ hpos) hzero, if_pos (.inr hzero), hgone, hstream]
      exact hidle
    · have hroom : t.remainingWin = sizeTSub (max win.toNat 1) (s.nextSeqno - t.lastAckno) := by
        rw [remainingWin, curWin_eq_max, bytesInFlight, hnext, hwin]
      rw [if_neg (by omega), ← hroom, fillWindow_stalls_iff ht hack (hstream ▸ hended), hgone,
        hstream]

end Fin

end TCPSender

namespace TCPConnection

open TCPSender (Tracked FinGone)

/-! ## §2 The two directions -/

/-- How the two directions and the linger flag belong together. -/
structure Orderly (c : TCPConnection) : Prop where
  opened : c.inboundStream.inputEnded = true → c.receiver.syn = true
  begun : c.sender.stream.inputEnded = true → 0 < c.sender.nextSeqno
  -- a connection that lingers had sent everything when the peer closed
  lingers : c.lingerAfterStreamsFinish = true → c.inboundStream.inputEnded = true →
    c.sender.stream.eof = true
  hurries : c.lingerAfterStreamsFinish = false → c.inboundStream.inputEnded = true

theorem Orderly.new (cfg : TCPConfig) (randomDevice : UInt32) :
    Orderly (.new cfg randomDevice) :=
  ⟨nofun, nofun, nofun, nofun⟩

section Flag

variable {c d : TCPConnection} {op : Op}

/-- **The linger flag** over `clean_shutdown()`. -/
theorem cleanShutdown_linger (c : TCPConnection) :
    c.cleanShutdown.lingerAfterStreamsFinish = true ↔
      c.lingerAfterStreamsFinish = true ∧
        (c.inboundStream.inputEnded = true → c.sender.stream.eof = true) := by
  unfold cleanShutdown inboundStream
  by_cases hfirst : c.receiver.streamOut.inputEnded = true ∧ ¬ c.sender.stream.eof = true
  · rw [if_pos hfirst]
    simp [hfirst.1, hfirst.2]
  · have hquiet : c.receiver.streamOut.inputEnded = true → c.sender.stream.eof = true := by
      simpa using hfirst
    rw [if_neg hfirst]
    split_ifs <;> exact (and_iff_left hquiet).symm

/-- An operation leaves the linger flag alone or ends with `clean_shutdown()`. -/
theorem Step.linger (h : c.Step op d) :
    d.lingerAfterStreamsFinish = c.lingerAfterStreamsFinish ∨
      (d.lingerAfterStreamsFinish = true ↔ c.lingerAfterStreamsFinish = true ∧
        (d.inboundStream.inputEnded = true → d.sender.stream.eof = true)) := by
  -- the shutdown does not change what it tests
  have hshutdown : ∀ b : TCPConnection,
      b.lingerAfterStreamsFinish = c.lingerAfterStreamsFinish →
        (b.cleanShutdown.lingerAfterStreamsFinish = true ↔ c.lingerAfterStreamsFinish = true ∧
          (b.cleanShutdown.inboundStream.inputEnded = true →
            b.cleanShutdown.sender.stream.eof = true)) := by
    intro b hb
    rw [cleanShutdown_linger, hb]
    simp only [inboundStream, cleanShutdown_receiver, cleanShutdown_sender]
  cases h.effect with
  | ignored => exact .inl rfl
  | read => exact .inl rfl
  | filled hb => exact .inl (by cases hb <;> rfl)
  | reset => exact .inl rfl
  | replied => exact .inr (hshutdown _ rfl)
  | aborted ms =>
    left
    show (c.clocked ms).sendRstSegment.lingerAfterStreamsFinish = _
    obtain ⟨queue, out, hframe⟩ := (c.clocked ms).sendRstSegment_frame
    rw [hframe]
    rfl
  | ticked => exact .inr (hshutdown _ rfl)

/-- A receiver whose stream has ended is not in the state in which a SYN has just come in. -/
theorem not_synRecv {r : TCPReceiver} (h : r.streamOut.inputEnded = true) :
    ¬ r.stateSummary = .synRecv := by
  simp only [TCPReceiver.stateSummary, h, if_true]
  split_ifs <;> simp

/-- **Only a segment ends the inbound stream**, and `clean_shutdown()` follows. -/
theorem Step.ends (h : c.Step op d) (hc : c.inboundStream.inputEnded = false)
    (hd : d.inboundStream.inputEnded = true) :
    ∃ seg r, op = .segmentReceived seg ∧ c.isactive = true ∧ seg.header.rst = false ∧
      c.receiver.segmentReceived seg = .ok r ∧
      d = (c.answered seg r).sendSegment.cleanShutdown := by
  -- a receiver that is not touched does not end its stream
  have hsame : ∀ {r : TCPReceiver}, r.streamOut.inputEnded = c.receiver.streamOut.inputEnded →
      r.streamOut.inputEnded = true → False := by
    intro r heq hr
    rw [heq] at hr
    rw [inboundStream, hr] at hc
    cases hc
  cases h.effect with
  | ignored => exact (hsame rfl hd).elim
  | read => exact (hsame rfl hd).elim
  | filled hb =>
    cases hb with
    | connect => exact (hsame rfl hd).elim
    | write => exact (hsame rfl hd).elim
    | endInput => exact (hsame rfl hd).elim
    | syn seg r _ _ _ hrecv =>
      -- a listening connection that has just got the whole stream does not connect
      exact absurd hrecv (not_synRecv hd)
  | reset => exact (hsame rfl hd).elim
  | replied seg r hactive hrst hr => exact ⟨seg, r, rfl, hactive, hrst, hr, rfl⟩
  | aborted ms =>
    refine (hsame ?_ hd).elim
    rw [uncleanShutdown_receiver, sendRstSegment_receiver]
    rfl
  | ticked ms =>
    refine (hsame ?_ hd).elim
    rw [cleanShutdown_receiver]
    rfl

end Flag

/-- A sender that has been filled has sent its SYN. -/
theorem fillWindow_pos {s : TCPSender} (h : Tracked s) : 0 < s.fillWindow.nextSeqno := by
  rcases Nat.eq_zero_or_pos s.nextSeqno with hzero | hpos
  · rw [TCPSender.fillWindow_of_closed hzero]
    show 0 < s.nextSeqno + 1
    omega
  · exact hpos.trans_le h.fillWindow_advances.nextSeqno

section Orderly

variable {c d : TCPConnection} {op : Op}

/-- Closing the outbound stream sends the SYN if it has not been sent. -/
theorem Step.begun (h : c.Step op d) (ht : Tracked c.sender)
    (hc : c.sender.stream.inputEnded = true → 0 < c.sender.nextSeqno)
    (hd : d.sender.stream.inputEnded = true) : 0 < d.sender.nextSeqno := by
  have hnext := (h.sender_moves.tracked ht).2.nextSeqno
  cases h.effect with
  | ignored => exact hc hd
  | read => exact hc hd
  | filled hb => exact fillWindow_pos (hb.tracked ht)
  | reset => exact hc hd
  | replied seg r =>
    refine (hc ?_).trans_le hnext
    rw [answered_sender] at hd
    exact (acknowledged_frame ht seg).2.1.symm.trans hd
  | aborted ms =>
    have hpos := fillWindow_pos (ht.tick ms)
    show 0 < (c.clocked ms).sendRstSegment.sender.nextSeqno
    obtain ⟨queue, out, hframe⟩ := (c.clocked ms).sendRstSegment_frame
    rw [hframe]
    exact hpos
  | ticked ms =>
    refine (hc ?_).trans_le hnext
    rwa [cleanShutdown_sender, sendSegment_sender, clocked, TCPSender.tick_stream] at hd

/-- Nothing ends the inbound stream before the SYN. -/
theorem Step.opened (h : c.Step op d)
    (hc : c.inboundStream.inputEnded = true → c.receiver.syn = true)
    (hd : d.inboundStream.inputEnded = true) : d.receiver.syn = true := by
  unfold inboundStream at hc hd
  cases h.receiver_moves with
  | same h =>
    rw [h] at hd ⊢
    exact hc hd
  | failed h =>
    rw [h] at hd ⊢
    exact hc hd
  | read len h =>
    rw [h] at hd ⊢
    exact hc hd
  | received seg _ _ _ hr =>
    rcases TCPReceiver.segmentReceived_cases hr with
      ⟨-, -, heq⟩ | ⟨-, -, re, -, heq⟩ | ⟨hsyn, index, re, -, heq⟩
    · rw [heq] at hd ⊢
      exact hc hd
    · rw [heq]
    · rw [heq]
      exact hsyn

/-- **Every operation keeps the connection orderly.** -/
theorem Orderly.step (hc : Orderly c) (ht : Tracked c.sender) (h : c.Step op d) : Orderly d := by
  obtain ⟨htd, hadv⟩ := h.sender_moves.tracked ht
  have hforward := h.receiver_forward.inputEnded
  constructor
  case opened => exact h.opened hc.opened
  case begun => exact h.begun ht hc.begun
  case lingers =>
    intro hlinger hended
    cases hbefore : c.inboundStream.inputEnded with
    | false =>
      -- the stream has just been ended, so the shutdown has looked at the other direction
      obtain ⟨seg, r, -, -, -, -, rfl⟩ := h.ends hbefore hended
      rw [inboundStream, cleanShutdown_receiver] at hended
      rw [cleanShutdown_sender]
      exact ((cleanShutdown_linger _).mp hlinger).2 hended
    | true =>
      have hcl : c.lingerAfterStreamsFinish = true := by
        rcases h.linger with heq | hiff
        · exact heq.symm.trans hlinger
        · exact (hiff.mp hlinger).1
      have heof := hc.lingers hcl hbefore
      exact hadv.eof ht htd (hc.begun (c.sender.stream.eof_iff.mp heof).1) heof
  case hurries =>
    intro hlinger
    rcases h.linger with heq | hiff
    · exact hforward (hc.hurries (heq.symm.trans hlinger))
    · cases hcl : c.lingerAfterStreamsFinish with
      | false => exact hforward (hc.hurries hcl)
      | true =>
        by_contra hopen
        have hkept := hiff.mpr ⟨hcl, fun hended => absurd hended hopen⟩
        rw [hlinger] at hkept
        cases hkept

end Orderly

/-! ## §3 Whether to linger -/

/-- The linger flag is cleared. -/
def StopsLingering (c d : TCPConnection) : Prop :=
  c.lingerAfterStreamsFinish = true ∧ d.lingerAfterStreamsFinish = false

/-- A segment ends the inbound stream. -/
def PeerCloses (c : TCPConnection) (op : Op) (d : TCPConnection) : Prop :=
  (∃ seg, op = .segmentReceived seg) ∧ c.inboundStream.inputEnded = false ∧
    d.inboundStream.inputEnded = true

/-- The flag is cleared exactly when the peer closes first. -/
def LingersRight (c : TCPConnection) (op : Op) : Prop :=
  ∀ d, c.Step op d → (StopsLingering c d ↔ PeerCloses c op d ∧ ¬ FinGone d.sender)

/-- The room that a segment leaves to `fill_window`. -/
def roomFor (s : TCPSender) (seg : TCPSegment) : ℕ :=
  if seg.header.ack then s.roomAfter seg.header.ackno seg.header.win else 0

/-- The peer's FIN arrives while the outbound stream is closed and its FIN has not been sent, and
    the bytes that are left fill the window, so that the FIN has to wait. -/
def Stalled (c : TCPConnection) : Op → Prop
  | .segmentReceived seg => c.isactive = true ∧ seg.header.rst = false ∧
      c.inboundStream.inputEnded = false ∧
      (∃ r, c.receiver.segmentReceived seg = .ok r ∧ r.streamOut.inputEnded = true) ∧
      c.sender.stream.inputEnded = true ∧ ¬ FinGone c.sender ∧
      c.sender.stream.bufferSize = roomFor c.sender seg
  | _ => False

section Lingering

variable {c d : TCPConnection} {op : Op}

/-- What the code does: it clears the flag when the peer closes before the outbound stream is
    exhausted. -/
theorem stopsLingering_iff (hc : Orderly c) (ht : Tracked c.sender) (h : c.Step op d) :
    StopsLingering c d ↔ PeerCloses c op d ∧ ¬ d.sender.stream.eof = true := by
  obtain ⟨htd, hadv⟩ := h.sender_moves.tracked ht
  constructor
  · rintro ⟨hcl, hdl⟩
    have hiff := h.linger.resolve_left (by simp [hcl, hdl])
    simp only [hdl, hcl, true_and, Bool.false_eq_true, false_iff, Classical.not_imp] at hiff
    obtain ⟨hended, heof⟩ := hiff
    have hopen : c.inboundStream.inputEnded = false := by
      by_contra hcon
      have hbefore := hc.lingers hcl (by simpa using hcon)
      exact heof (hadv.eof ht htd (hc.begun (c.sender.stream.eof_iff.mp hbefore).1) hbefore)
    obtain ⟨seg, -, hop, -⟩ := h.ends hopen hended
    exact ⟨⟨⟨seg, hop⟩, hopen, hended⟩, heof⟩
  · rintro ⟨⟨-, hopen, hended⟩, heof⟩
    refine ⟨?_, ?_⟩
    · by_contra hcl
      rw [hc.hurries (by simpa using hcl)] at hopen
      cases hopen
    · obtain ⟨seg, r, -, -, -, -, rfl⟩ := h.ends hopen hended
      by_contra hdl
      rw [inboundStream, cleanShutdown_receiver] at hended
      rw [cleanShutdown_sender] at heof
      exact heof (((cleanShutdown_linger _).mp (by simpa using hdl)).2 hended)

theorem acknowledged_stalls_iff (hc : Orderly c) (ht : Tracked c.sender) (seg : TCPSegment)
    (hended : c.sender.stream.inputEnded = true) :
    ((c.acknowledged seg).stream.eof = true ∧ ¬ FinGone (c.acknowledged seg)) ↔
      (¬ FinGone c.sender ∧ c.sender.stream.bufferSize = roomFor c.sender seg) := by
  unfold acknowledged roomFor
  split
  · exact TCPSender.ackReceived_stalls_iff ht (hc.begun hended) hended _ _
  · rw [c.sender.stream.eof_iff, ByteStream.bufferSize, List.length_eq_zero_iff, and_comm]
    simp [hended]

/-- A segment that ends the inbound stream is processed to the end. -/
theorem step_of_ends {seg : TCPSegment} {r : TCPReceiver} (hactive : c.isactive = true)
    (hrst : seg.header.rst = false) (hr : c.receiver.segmentReceived seg = .ok r)
    (hended : r.streamOut.inputEnded = true) :
    c.Step (.segmentReceived seg) (c.answered seg r).sendSegment.cleanShutdown := by
  have h := segmentReceived_eq hactive hrst hr
  rwa [if_neg fun hlisten => not_synRecv hended hlisten.1] at h

/-- **When the code and the intent part**, before and after the operation. -/
theorem stalled_iff (hc : Orderly c) (ht : Tracked c.sender) (h : c.Step op d) :
    Stalled c op ↔ PeerCloses c op d ∧ d.sender.stream.eof = true ∧ ¬ FinGone d.sender := by
  constructor
  · intro hstalled
    cases op with
    | segmentReceived seg =>
      obtain ⟨hactive, hrst, hopen, ⟨r, hr, hr'⟩, hended, hrest⟩ := hstalled
      cases Except.ok.inj (h.symm.trans (step_of_ends hactive hrst hr hr'))
      rw [answered_sender]
      refine ⟨⟨⟨seg, rfl⟩, hopen, ?_⟩, (acknowledged_stalls_iff hc ht seg hended).mpr hrest⟩
      rw [inboundStream, cleanShutdown_receiver]
      exact hr'
    | _ => exact hstalled.elim
  · rintro ⟨⟨-, hopen, hended⟩, hwaits⟩
    obtain ⟨seg, r, rfl, hactive, hrst, hr, rfl⟩ := h.ends hopen hended
    rw [inboundStream, cleanShutdown_receiver] at hended
    rw [answered_sender] at hwaits
    have hout : c.sender.stream.inputEnded = true := by
      rw [← (acknowledged_frame ht seg).2.1]
      exact ((c.acknowledged seg).stream.eof_iff.mp hwaits.1).1
    exact ⟨hactive, hrst, hopen, ⟨r, hr, hended⟩, hout,
      (acknowledged_stalls_iff hc ht seg hout).mp hwaits⟩

/-- **One operation** treats the flag right unless the FIN has to wait. -/
theorem lingersRight_iff (hc : Orderly c) (ht : Tracked c.sender) (op : Op) :
    LingersRight c op ↔ ¬ Stalled c op := by
  constructor
  · intro hright hstalled
    obtain ⟨d, h⟩ : ∃ d, c.Step op d := by
      cases op with
      | segmentReceived seg =>
        obtain ⟨hactive, hrst, -, ⟨r, hr, hended⟩, -⟩ := hstalled
        exact ⟨_, step_of_ends hactive hrst hr hended⟩
      | _ => exact hstalled.elim
    obtain ⟨hcloses, heof, hfin⟩ := (stalled_iff hc ht h).mp hstalled
    exact ((stopsLingering_iff hc ht h).mp ((hright d h).mpr ⟨hcloses, hfin⟩)).2 heof
  · intro hgoes d h
    have hfin : FinGone d.sender → d.sender.stream.eof = true :=
      (h.sender_moves.tracked ht).1.eof_of_finGone
    rw [stopsLingering_iff hc ht h]
    refine and_congr_right fun hcloses => ⟨mt hfin, fun hwaits heof => ?_⟩
    exact hgoes ((stalled_iff hc ht h).mpr ⟨hcloses, heof, hwaits⟩)

/-- Once the FIN has been sent before the peer closes, the connection lingers for good. -/
theorem lingers_of_finGone {ops : List Op} (hc : Orderly c) (ht : Tracked c.sender)
    (hfin : FinGone c.sender) (hopen : c.inboundStream.inputEnded = false)
    (h : Execution.Trace Step c ops d) : d.lingerAfterStreamsFinish = true := by
  have hstart : c.lingerAfterStreamsFinish = true := by
    by_contra hcl
    rw [hc.hurries (by simpa using hcl)] at hopen
    cases hopen
  have hinv := h.invariant
    (I := fun c => Orderly c ∧ Tracked c.sender ∧ c.sender.stream.eof = true ∧
      c.lingerAfterStreamsFinish = true) ?_ ⟨hc, ht, ht.eof_of_finGone hfin, hstart⟩
  · exact hinv.2.2.2
  · rintro c op d ⟨hc, ht, heof, hlinger⟩ h
    obtain ⟨htd, hadv⟩ := h.sender_moves.tracked ht
    have hd := hadv.eof ht htd (hc.begun (c.sender.stream.eof_iff.mp heof).1) heof
    refine ⟨hc.step ht h, htd, hd, ?_⟩
    rcases h.linger with heq | hiff
    · exact heq.trans hlinger
    · exact hiff.mpr ⟨hlinger, fun _ => hd⟩

/-- Every state of a run is orderly. -/
theorem orderly_of_trace {cfg : TCPConfig} {randomDevice : UInt32} {ops : List Op}
    (h : Execution.Trace Step (.new cfg randomDevice) ops c) :
    Orderly c ∧ Tracked c.sender :=
  h.invariant (I := fun c => Orderly c ∧ Tracked c.sender)
    (fun _ _ _ hs hstep => ⟨hs.1.step hs.2 hstep, (hstep.sender_moves.tracked hs.2).1⟩)
    ⟨Orderly.new cfg randomDevice,
      Tracked.new cfg.sendCapacity cfg.rtTimeout cfg.fixedIsn randomDevice⟩

/-- **The passive closer does not linger.**  In a run, every operation clears the linger flag
    exactly when it should, if and only if no FIN of the peer arrives while the own FIN waits for
    room in the window; and a connection that has sent its FIN first lingers in any case. -/
theorem passive_closer_iff (cfg : TCPConfig) (randomDevice : UInt32) (ops : List Op) :
    (Execution.Along Step LingersRight (.new cfg randomDevice) ops ↔
      Execution.Along Step (fun c op => ¬ Stalled c op) (.new cfg randomDevice) ops) ∧
    ∀ before c, Execution.Trace Step (.new cfg randomDevice) before c → FinGone c.sender →
      c.inboundStream.inputEnded = false →
      ∀ after d, Execution.Trace Step c after d → d.lingerAfterStreamsFinish = true := by
  refine ⟨?_, fun before c hbefore hfin hopen after d hafter => ?_⟩
  · exact Execution.along_congr (K := fun c => Orderly c ∧ Tracked c.sender)
      (fun _ _ _ hs hstep => ⟨hs.1.step hs.2 hstep, (hstep.sender_moves.tracked hs.2).1⟩)
      (fun c op hs => lingersRight_iff hs.1 hs.2 op) ops _ (orderly_of_trace (.nil _))
  · obtain ⟨hc, ht⟩ := orderly_of_trace hbefore
    exact lingers_of_finGone hc ht hfin hopen hafter

end Lingering

/-- The peer's answer to a SYN with the number 0, with a window of two bytes. -/
def narrowSynAck : TCPSegment :=
  { header := { seqno := ⟨100⟩, syn := true, ack := true, ackno := ⟨1⟩, win := 2 } }

/-- The peer's FIN, which acknowledges nothing new. -/
def peerFin : TCPSegment :=
  { header := { seqno := ⟨101⟩, ack := true, ackno := ⟨1⟩, win := 2, fin := true } }

/-- Two bytes fill the window, so that the FIN has to wait; then the peer closes.  The flag stays
    set, and the connection is in none of the official states. -/
theorem passive_closer_fails : ∃ c d : TCPConnection,
    Execution.Trace Step (.new { fixedIsn := some ⟨0⟩ } 0)
        [.connect, .segmentReceived narrowSynAck, .write [1, 2], .endInputStream] c ∧
      c.Step (.segmentReceived peerFin) d ∧
      ¬ (StopsLingering c d ↔ PeerCloses c (.segmentReceived peerFin) d ∧ ¬ FinGone d.sender) ∧
      ∀ official, d.state ≠ TCPState.ofState official := by
  obtain ⟨c, d, htrace, hstep, hopen, hended, hwaits, hlinger, hstate⟩ : ∃ c d : TCPConnection,
      Execution.Trace Step (.new { fixedIsn := some ⟨0⟩ } 0)
          [.connect, .segmentReceived narrowSynAck, .write [1, 2], .endInputStream] c ∧
        c.Step (.segmentReceived peerFin) d ∧ c.inboundStream.inputEnded = false ∧
        d.inboundStream.inputEnded = true ∧
        d.sender.nextSeqno < d.sender.stream.bytesWritten + 2 ∧
        d.lingerAfterStreamsFinish = true ∧
        d.state = { sender := .synAcked, receiver := .finRecv } :=
    ⟨_, _, .cons rfl (.cons rfl (.cons rfl (.cons rfl (.nil _)))), rfl, rfl, rfl, by decide, rfl,
      rfl⟩
  refine ⟨c, d, htrace, hstep, fun hiff => ?_, fun official => ?_⟩
  · have hstops := hiff.mpr ⟨⟨⟨_, rfl⟩, hopen, hended⟩, fun hgone => absurd hgone.2 (by omega)⟩
    rw [hstops.2] at hlinger
    cases hlinger
  · rw [hstate]
    cases official <;> decide

/-! ## §4 The time since the last segment -/

/-- What an operation does to the total of ticks since the last received segment. -/
def sinceAfter (total : ℕ) : Op → ℕ
  | .segmentReceived _ => 0
  | .tick ms => total + ms.toNat
  | _ => total

/-- The total of ticks since the last received segment, or since the start. -/
def sinceSegment (ops : List Op) : ℕ :=
  ops.foldl sinceAfter 0

@[simp] theorem cleanShutdown_time (c : TCPConnection) :
    c.cleanShutdown.timeSinceLastSegmentReceived = c.timeSinceLastSegmentReceived := by
  unfold cleanShutdown
  split_ifs <;> rfl

@[simp] theorem sendRstSegment_time (c : TCPConnection) :
    c.sendRstSegment.timeSinceLastSegmentReceived = c.timeSinceLastSegmentReceived := by
  obtain ⟨queue, out, hframe⟩ := c.sendRstSegment_frame
  rw [hframe]

section Time

variable {c d : TCPConnection} {op : Op} {total : ℕ}

theorem clocked_time (hc : c.timeSinceLastSegmentReceived.toNat = total % 2 ^ 64) (ms : UInt64) :
    (c.clocked ms).timeSinceLastSegmentReceived.toNat = (total + ms.toNat) % 2 ^ 64 := by
  show (c.timeSinceLastSegmentReceived + ms).toNat = _
  rw [UInt64.toNat_add, hc, Nat.mod_add_mod]

/-- The code adds up the ticks modulo `2 ^ 64`. -/
theorem Step.time (h : c.Step op d) (hactive : c.isactive = true)
    (hc : c.timeSinceLastSegmentReceived.toNat = total % 2 ^ 64) :
    d.timeSinceLastSegmentReceived.toNat = sinceAfter total op % 2 ^ 64 := by
  cases h.effect with
  | ignored _ hwrite =>
    rw [hwrite hactive]
    exact hc
  | read => exact hc
  | filled hb =>
    cases hb with
    | connect => exact hc
    | write => exact hc
    | endInput => exact hc
    | syn => rfl
  | reset => rfl
  | replied => rw [cleanShutdown_time]; rfl
  | aborted ms =>
    show (c.clocked ms).sendRstSegment.timeSinceLastSegmentReceived.toNat = _
    rw [sendRstSegment_time]
    exact clocked_time hc ms
  | ticked ms =>
    rw [cleanShutdown_time]
    exact clocked_time hc ms

theorem isactive_of_trace {ops : List Op} (h : Execution.Trace Step c ops d)
    (hd : d.isactive = true) : c.isactive = true := by
  induction h with
  | nil => exact hd
  | cons hstep _ ih => exact hstep.isactive_of (ih hd)

/-- **The time of an active connection** is the total of ticks since the last segment, cut down
    to 64 bits. -/
theorem time_of_trace {ops : List Op} (h : Execution.Trace Step c ops d)
    (hd : d.isactive = true) (hc : c.timeSinceLastSegmentReceived.toNat = total % 2 ^ 64) :
    d.timeSinceLastSegmentReceived.toNat = ops.foldl sinceAfter total % 2 ^ 64 := by
  induction h generalizing total with
  | nil => exact hc
  | cons hstep hrest ih =>
    have hactive := hstep.isactive_of (isactive_of_trace hrest hd)
    exact ih hd (hstep.time hactive hc)

end Time

/-! ## §5 Closing -/

/-- Both directions are done: everything has arrived, and everything including the FIN has been
    sent and acknowledged. -/
def Done (c : TCPConnection) : Prop :=
  c.inboundStream.inputEnded = true ∧ c.sender.stream.inputEnded = true ∧
    c.sender.nextSeqno = c.sender.stream.bytesWritten + 2 ∧
    c.sender.lastAckno = c.sender.stream.bytesWritten + 2

/-- A connection should be closed when both directions are done, and it does not linger or the
    waiting time is over. -/
def ShouldClose (c : TCPConnection) (since : ℕ) : Prop :=
  Done c ∧ (c.lingerAfterStreamsFinish = false ∨ 10 * c.cfg.rtTimeout.toNat ≤ since)

/-- The operations that may close a connection cleanly. -/
def MayClose (c : TCPConnection) : Op → Prop
  | .segmentReceived seg => seg.header.rst = false
  | .tick ms => ¬ LastAttempt c ms
  | _ => False

/-- The time that a lingering connection has waited is long enough, but not if it is cut down to
    64 bits. -/
def Overruns (c : TCPConnection) (since : ℕ) : Op → Prop
  | .tick ms => Done c ∧ c.lingerAfterStreamsFinish = true ∧
      10 * c.cfg.rtTimeout.toNat ≤ since + ms.toNat ∧
      (since + ms.toNat) % 2 ^ 64 < 10 * c.cfg.rtTimeout.toNat
  | _ => False

section Closing

variable {c d : TCPConnection} {op : Op}

/-- What the state summary of the sender says in terms of its counters. -/
theorem finAcked_iff {s : TCPSender} (h : Tracked s) (herror : s.stream.error = false) :
    s.stateSummary = .finAcked ↔ s.stream.inputEnded = true ∧
      s.nextSeqno = s.stream.bytesWritten + 2 ∧ s.lastAckno = s.stream.bytesWritten + 2 := by
  have hle := h.ack_le
  unfold TCPSender.stateSummary TCPSender.bytesInFlight
  rw [herror, if_neg Bool.false_ne_true]
  constructor
  · intro hsummary
    split_ifs at hsummary with hzero hsyn heof hfin hflight
    have heof' : s.stream.eof = true := by simpa using heof
    rcases h.nextSeqno_cases (by omega) with ⟨-, hlt⟩ | ⟨hnext, -⟩
    · omega
    · exact ⟨(s.stream.eof_iff.mp heof').1, hnext, by omega⟩
  · rintro ⟨hended, hnext, hack⟩
    have heof := h.eof_of_finGone ⟨hended, hnext.ge⟩
    simp [heof, hnext, hack]

theorem finRecv_iff {r : TCPReceiver} (hsyn : r.streamOut.inputEnded = true → r.syn = true)
    (herror : r.streamOut.error = false) :
    r.stateSummary = .finRecv ↔ r.streamOut.inputEnded = true := by
  unfold TCPReceiver.stateSummary TCPReceiver.ackno
  rw [herror]
  cases hended : r.streamOut.inputEnded with
  | false =>
    simp only [Bool.false_eq_true, if_false, iff_false]
    split_ifs <;> simp
  | true => simp [hsyn hended]

theorem finished_iff_done (ht : Tracked c.sender)
    (hsyn : c.inboundStream.inputEnded = true → c.receiver.syn = true)
    (hout : c.sender.stream.error = false) (hin : c.inboundStream.error = false) :
    Finished c ↔ Done c := by
  unfold Finished Done
  rw [finAcked_iff ht hout, finRecv_iff hsyn hin, and_comm]
  rfl

/-- **When `clean_shutdown()` closes.** -/
theorem cleanShutdown_isactive (hactive : c.isactive = true) :
    c.cleanShutdown.isactive = false ↔ Finished c ∧
      (c.lingerAfterStreamsFinish = false ∨
        10 * c.cfg.rtTimeout.toNat ≤ c.timeSinceLastSegmentReceived.toNat) := by
  unfold cleanShutdown Finished
  by_cases hfirst : c.receiver.streamOut.inputEnded = true ∧ ¬ c.sender.stream.eof = true
  · rw [if_pos hfirst]
    have hopen : ¬ c.sender.stateSummary = .finAcked :=
      fun hs => hfirst.2 (TCPSender.eof_of_finAcked hs)
    simp [hactive, hopen]
  · rw [if_neg hfirst]
    split_ifs with hdone hwait
    · simpa [hdone] using hwait
    · simpa [hdone, hactive] using hwait
    · simp [hdone, hactive]

/-- A closing shutdown leaves the linger flag alone. -/
theorem cleanShutdown_of_done (ht : Tracked c.sender) (h : Done c) :
    (c.cleanShutdown.lingerAfterStreamsFinish = true ↔ c.lingerAfterStreamsFinish = true) := by
  rw [cleanShutdown_linger]
  exact and_iff_left fun _ => ht.eof_of_finGone ⟨h.2.1, h.2.2.1.ge⟩

theorem done_cleanShutdown (c : TCPConnection) : Done c.cleanShutdown ↔ Done c := by
  unfold Done inboundStream
  rw [cleanShutdown_receiver, cleanShutdown_sender]

/-- An operation that ends with `clean_shutdown()` closes by the time the code has added up. -/
theorem closes_iff (hactive : c.isactive = true) (ht : Tracked c.sender)
    (hsyn : c.inboundStream.inputEnded = true → c.receiver.syn = true)
    (hout : c.sender.stream.error = false) (hin : c.inboundStream.error = false) :
    c.cleanShutdown.isactive = false ↔
      ShouldClose c.cleanShutdown c.timeSinceLastSegmentReceived.toNat := by
  rw [cleanShutdown_isactive hactive, finished_iff_done ht hsyn hout hin, ShouldClose,
    done_cleanShutdown, cleanShutdown_cfg]
  refine and_congr_right fun hdone => or_congr_left ?_
  have hlinger := cleanShutdown_of_done ht hdone
  rw [← Bool.not_eq_true, ← Bool.not_eq_true, hlinger]

/-- Every operation that may close a connection closes it by the time the code has added up. -/
theorem Step.closes_iff {cfg : TCPConfig} (h : c.Step op d) (hregular : Regular cfg c)
    (hc : Orderly c) (hactive : c.isactive = true) (hop : MayClose c op) :
    d.isactive = false ↔ ShouldClose d d.timeSinceLastSegmentReceived.toNat := by
  have htd := (h.sender_moves.tracked hregular.tracked).1
  have hopened := (hc.step hregular.tracked h).opened
  obtain ⟨hout, hin⟩ := hregular.healthy hactive
  cases h.effect with
  | ignored _ hwrite =>
    rw [hwrite hactive] at hop
    exact hop.elim
  | read => exact hop.elim
  | filled hb =>
    cases hb with
    | connect => exact hop.elim
    | write => exact hop.elim
    | endInput => exact hop.elim
    | syn seg r _ _ _ _ hclosed =>
      -- only the SYN has been sent
      have hzero := TCPSender.nextSeqno_of_closed hclosed
      have hone : c.sender.fillWindow.nextSeqno = 1 := by
        rw [TCPSender.fillWindow_of_closed hzero]
        show c.sender.nextSeqno + 1 = 1
        rw [hzero]
      have hnot : ¬ Done { c with timeSinceLastSegmentReceived := 0, receiver := r }.connect := by
        rintro ⟨-, -, hnext, -⟩
        have : c.sender.fillWindow.nextSeqno = _ := hnext
        omega
      exact iff_of_false (by simp [connect, hactive, sendSegment]) fun hclose => hnot hclose.1
  | reset seg _ hrst =>
    rw [MayClose, hrst] at hop
    cases hop
  | replied seg r _ _ hr =>
    rw [cleanShutdown_time]
    rw [cleanShutdown_sender] at htd
    unfold inboundStream at hopened
    rw [cleanShutdown_receiver] at hopened
    refine TCPConnection.closes_iff hactive htd hopened ?_ ?_
    · have hsender := c.answered_sender seg r
      rw [cleanShutdown_sender] at hsender
      rw [hsender]
      exact (acknowledged_frame hregular.tracked seg).1.trans hout
    · exact (TCPReceiver.error_segmentReceived hr).trans hin
  | aborted ms _ hlimit => exact absurd ((limit_iff hregular hactive).mp hlimit) hop
  | ticked ms =>
    obtain ⟨herror, -⟩ := ticked_errors c ms
    rw [cleanShutdown_time]
    rw [cleanShutdown_sender] at htd herror
    unfold inboundStream at hopened
    rw [cleanShutdown_receiver] at hopened
    exact TCPConnection.closes_iff hactive htd hopened (herror.trans hout) hin

/-- A tick that does not give up changes nothing that decides about closing but the time. -/
theorem tick_frame {cfg : TCPConfig} (hregular : Regular cfg c) (hactive : c.isactive = true)
    {ms : UInt64} (hlast : ¬ LastAttempt c ms) :
    (c.tick ms).cfg = c.cfg ∧ (Done (c.tick ms) ↔ Done c) ∧
      (Done c → ((c.tick ms).lingerAfterStreamsFinish = true ↔
        c.lingerAfterStreamsFinish = true)) := by
  rw [tick_of_active hactive, if_neg (mt (limit_iff hregular hactive).mp hlast)]
  have hdone : Done (c.clocked ms).sendSegment ↔ Done c := by
    simp [Done, inboundStream, clocked]
  refine ⟨cleanShutdown_cfg _, (done_cleanShutdown _).trans hdone, fun hc => ?_⟩
  have ht : Tracked (c.clocked ms).sendSegment.sender :=
    (hregular.tracked.tick ms).of_segmentsOut (by simp)
  exact cleanShutdown_of_done ht (hdone.mpr hc)

/-- **A connection closes exactly when it should.**  In every run, a segment without RST and a
    tick within the retransmission limit close an active connection exactly when both directions
    are done and it does not linger or has waited long enough since the last segment, if and only
    if the waiting time does not come out too short in 64 bits. -/
theorem clean_close_iff {cfg : TCPConfig} {randomDevice : UInt32} {ops : List Op}
    (h : Execution.Trace Step (.new cfg randomDevice) ops c) (hactive : c.isactive = true)
    (hop : MayClose c op) (hstep : c.Step op d) :
    (d.isactive = false ↔ ShouldClose d (sinceSegment (ops ++ [op]))) ↔
      ¬ Overruns c (sinceSegment ops) op := by
  have hregular := regular_of_trace h
  have hstart : (TCPConnection.new cfg randomDevice).timeSinceLastSegmentReceived.toNat =
      0 % 2 ^ 64 := rfl
  have htime := hstep.time hactive (time_of_trace h hactive hstart)
  have hsince : sinceSegment (ops ++ [op]) = sinceAfter (sinceSegment ops) op := by
    rw [sinceSegment, List.foldl_append]
    rfl
  rw [hstep.closes_iff hregular (orderly_of_trace h).1 hactive hop, htime, hsince]
  change (ShouldClose d (sinceAfter (sinceSegment ops) op % 2 ^ 64) ↔ _) ↔ _
  cases op with
  | segmentReceived seg => simp [sinceAfter, Overruns]
  | tick ms =>
    cases Except.ok.inj hstep
    obtain ⟨hcfg, hdone, hlinger⟩ := tick_frame hregular hactive hop
    simp only [ShouldClose, Overruns, sinceAfter, hcfg, hdone]
    have hle := Nat.mod_le (sinceSegment ops + ms.toNat) (2 ^ 64)
    by_cases hc : Done c
    · have hl := hlinger hc
      simp only [hc, true_and]
      cases hcl : c.lingerAfterStreamsFinish with
      | false =>
        rw [hcl] at hl
        simp only [Bool.false_eq_true, iff_false, Bool.not_eq_true] at hl
        simp [hl]
      | true =>
        rw [hcl] at hl
        simp only [iff_true] at hl
        simp only [hl, Bool.true_eq_false, false_or, true_and]
        omega
    · simp [hc]
  | _ => exact hop.elim

end Closing

/-- The peer's answer to a SYN with the number 0. -/
def wideSynAck : TCPSegment :=
  { header := { seqno := ⟨100⟩, syn := true, ack := true, ackno := ⟨1⟩, win := 10 } }

/-- The peer's FIN, which acknowledges the FIN with the number 1. -/
def lastFin : TCPSegment :=
  { header := { seqno := ⟨101⟩, ack := true, ackno := ⟨2⟩, win := 10, fin := true } }

/-- The operations up to TIME_WAIT, and `rest`. -/
def timeWait (rest : List Op) : List Op :=
  .connect :: .segmentReceived wideSynAck :: .endInputStream :: .segmentReceived lastFin :: rest

/-- Ten seconds of TIME_WAIT with the default time-out of one second. -/
theorem clean_close_iff_time_wait : ∃ c d : TCPConnection,
    Execution.Trace Step (.new { fixedIsn := some ⟨0⟩ } 0) (timeWait []) c ∧
      c.isactive = true ∧ c.Step (.tick 10000) d ∧ d.isactive = false ∧
      ShouldClose d (sinceSegment (timeWait [] ++ [.tick 10000])) := by
  obtain ⟨c, d, h, hactive, hqueue, hstep, hclosed⟩ : ∃ c d : TCPConnection,
      Execution.Trace Step (.new { fixedIsn := some ⟨0⟩ } 0) (timeWait []) c ∧
        c.isactive = true ∧ c.sender.outstandingSeg = [] ∧ c.Step (.tick 10000) d ∧
        d.isactive = false :=
    ⟨_, _, .cons rfl (.cons rfl (.cons rfl (.cons rfl (.nil _)))), rfl, rfl, rfl, rfl⟩
  have hshort : ¬ Overruns c (sinceSegment (timeWait [])) (.tick 10000) := by
    rintro ⟨-, -, hlong, hwrapped⟩
    have htotal : sinceSegment (timeWait []) + (10000 : UInt64).toNat = 10000 := by decide
    omega
  have hop : MayClose c (.tick 10000) := fun hlast => hlast.2.1.1 hqueue
  have hiff := (clean_close_iff h hactive hop hstep).mpr hshort
  exact ⟨c, d, h, hactive, hstep, hclosed, hiff.mp hclosed⟩

/-- After 5 ms of TIME_WAIT, a tick of `2 ^ 64 - 1` ms leaves the connection active. -/
theorem clean_close_fails : ∃ c d : TCPConnection,
    Execution.Trace Step (.new { fixedIsn := some ⟨0⟩ } 0) (timeWait [.tick 5]) c ∧
      c.isactive = true ∧ MayClose c (.tick (UInt64.ofNat (2 ^ 64 - 1))) ∧
      c.Step (.tick (UInt64.ofNat (2 ^ 64 - 1))) d ∧
      ¬ (d.isactive = false ↔ ShouldClose d (sinceSegment
        (timeWait [.tick 5] ++ [.tick (UInt64.ofNat (2 ^ 64 - 1))]))) := by
  obtain ⟨c, h, hactive, hqueue, hopen, hdone, hcfg⟩ : ∃ c : TCPConnection,
      Execution.Trace Step (.new { fixedIsn := some ⟨0⟩ } 0) (timeWait [.tick 5]) c ∧
        c.isactive = true ∧ c.sender.outstandingSeg = [] ∧
        (c.tick (UInt64.ofNat (2 ^ 64 - 1))).isactive = true ∧
        Done (c.tick (UInt64.ofNat (2 ^ 64 - 1))) ∧
        (c.tick (UInt64.ofNat (2 ^ 64 - 1))).cfg.rtTimeout = 1000 :=
    ⟨_, .cons rfl (.cons rfl (.cons rfl (.cons rfl (.cons rfl (.nil _))))), rfl, rfl, by decide,
      ⟨by decide, by decide, by decide, by decide⟩, by decide⟩
  refine ⟨c, c.tick (UInt64.ofNat (2 ^ 64 - 1)), h, hactive, fun hlast => hlast.2.1.1 hqueue, rfl,
    fun hiff => ?_⟩
  generalize c.tick (UInt64.ofNat (2 ^ 64 - 1)) = d at *
  have hlong : 10 * d.cfg.rtTimeout.toNat ≤ sinceSegment
      (timeWait [.tick 5] ++ [.tick (UInt64.ofNat (2 ^ 64 - 1))]) := by
    rw [hcfg]
    decide
  rw [hiff.mpr ⟨hdone, .inr hlong⟩] at hopen
  cases hopen

end TCPConnection

end Sponge
