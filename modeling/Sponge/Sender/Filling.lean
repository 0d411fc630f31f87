import Sponge.Sender.Segmentation

/-!
# Filling the Window

What one call of `fill_window` does.  Its loop is verified with the total-correctness rule for
bounded loops: the measure is the number of bytes left in the stream, and the invariant
`FillInv` says which segments have gone out so far and what the reused segment object holds.

`fillWindow_spec` is the summary the other modules use: the call ends, sends some segments,
and stops only when the window is full or nothing is left to send.
-/

namespace Sponge

namespace TCPSender

open TCPSegment (seqLength seqLength_nil seqLength_cons seqLength_append)

/-! ## §1 The window -/

theorem curWin_pos (s : TCPSender) : 0 < s.curWin.toNat := by
  unfold curWin
  split
  · decide
  · rename_i h
    have : s.lastWin.toNat ≠ (0 : UInt16).toNat := fun he => h (UInt16.toNat_inj.mp he)
    simp only [UInt16.toNat_zero] at this
    omega

/-- `cur_win` is the larger of the advertised window and one. -/
theorem curWin_eq_max (s : TCPSender) : s.curWin.toNat = max s.lastWin.toNat 1 := by
  have hpos := s.curWin_pos
  unfold curWin at hpos ⊢
  split
  · rename_i h
    simp [h]
  · rename_i h
    simp only [h, if_false] at hpos
    omega

/-- While no more is in flight than the window allows, `remaining_win` is the room left. -/
theorem remainingWin_of_le {s : TCPSender} (h : s.bytesInFlight ≤ s.curWin.toNat) :
    s.remainingWin = s.curWin.toNat - s.bytesInFlight := by
  have := s.curWin.toNat_lt
  exact sizeTSub_of_le h (by omega)

theorem payloadSize_pos {s : TCPSender} (h : s.remainingWin ≠ 0) : 0 < s.payloadSize := by
  unfold payloadSize TCPConfig.maxPayloadSize
  omega

/-- The window is full, or nothing is left to send. -/
def Filled (s : TCPSender) : Prop :=
  s.remainingWin = 0 ∨
    (s.stream.buff = [] ∧
      (s.stream.inputEnded = true → s.stream.bytesWritten + 2 ≤ s.nextSeqno))

/-! ## §2 One round -/

/-- The loop state `(s, seg)` in a call that started from `s₀`. -/
structure FillInv (s₀ s : TCPSender) (seg : TCPSegment) : Prop where
  sends : ∃ new, Sends s₀ new s ∧ (new = [] → s = s₀)
  segmented : Segmented s
  plain : Plain seg
  -- the reused segment object carries nothing into a round that could send it again
  fin_of_open : s.stream.eof = false → seg.header.fin = false
  object : s.stream.eof = true →
    (seg.payload = [] ∧ seg.header.fin = false) ∨ s.remainingWin = 0 ∨
      s.stream.bytesWritten + 2 ≤ s.nextSeqno
  window : s₀.bytesInFlight ≤ s₀.curWin.toNat → s.bytesInFlight ≤ s.curWin.toNat

/-- What holds when the loop is left. -/
structure FillPost (s₀ s : TCPSender) : Prop where
  sends : ∃ new, Sends s₀ new s ∧ (new = [] → s = s₀)
  segmented : Segmented s
  filled : Filled s
  window : s₀.bytesInFlight ≤ s₀.curWin.toNat → s.bytesInFlight ≤ s.curWin.toNat

section Loaded

variable {s : TCPSender} {seg : TCPSegment}

/-- Loading replaces the payload and may set FIN. -/
private theorem loaded_eq : s.loaded seg =
    { header := { seg.header with fin := (s.loaded seg).header.fin }
      payload := s.stream.peekOutput s.payloadSize } := by
  unfold loaded
  dsimp only [ByteStream.read]
  split <;> rfl

private theorem loaded_payload : (s.loaded seg).payload = s.stream.peekOutput s.payloadSize := by
  rw [loaded_eq]

private theorem loaded_plain (h : Plain seg) : Plain (s.loaded seg) := by
  unfold Plain at *
  rw [loaded_eq]
  dsimp only
  rw [h]

/-- FIN on a loaded segment means that the stream is exhausted and FIN fits. -/
private theorem loaded_fin (hplain : Plain seg) (hfin : seg.header.fin = false) :
    (s.loaded seg).header.fin = true ↔
      (s.stream.popOutput s.payloadSize).eof = true ∧
        (s.stream.peekOutput s.payloadSize).length < s.remainingWin := by
  have hsyn : seg.header.syn = false := by rw [hplain]
  simp only [loaded, ByteStream.read, TCPSegment.lengthInSequenceSpace, hsyn, hfin,
    Bool.false_eq_true, if_false, Nat.add_zero]
  split_ifs with hcond
  · simpa using hcond
  · simpa [hfin] using hcond

private theorem loaded_length (hplain : Plain seg) :
    (s.loaded seg).lengthInSequenceSpace =
      (s.stream.peekOutput s.payloadSize).length +
        (if (s.loaded seg).header.fin then 1 else 0) := by
  have hsyn : (s.loaded seg).header.syn = false := by rw [loaded_plain hplain]
  simp [TCPSegment.lengthInSequenceSpace, hsyn, loaded_payload]

/-- A loaded segment fits the window left. -/
private theorem loaded_length_le (hplain : Plain seg) (hfin : seg.header.fin = false) :
    (s.loaded seg).lengthInSequenceSpace ≤ s.remainingWin := by
  rw [loaded_length hplain]
  split_ifs with h
  · have := ((loaded_fin hplain hfin).mp h).2
    omega
  · rw [s.stream.length_peekOutput, payloadSize]
    omega

/-- An open stream loads an empty segment only when its buffer is empty. -/
private theorem loaded_length_eq_zero_iff (hplain : Plain seg) (hfin : seg.header.fin = false)
    (hrem : s.remainingWin ≠ 0) (heof : s.stream.eof = false) :
    (s.loaded seg).lengthInSequenceSpace = 0 ↔ s.stream.buff = [] := by
  have hdata := s.stream.length_peekOutput s.payloadSize
  have hsize := payloadSize_pos hrem
  rw [loaded_length hplain]
  constructor
  · intro h
    apply List.length_eq_zero_iff.mp
    omega
  · intro hnil
    have hpop := s.stream.popOutput_of_buff_nil s.payloadSize hnil
    rw [if_neg, hdata, hnil]
    · simp
    · rw [loaded_fin hplain hfin, hpop]
      simp [heof]

end Loaded

/-- The bytes in flight after a first transmission. -/
private theorem bytesInFlight_emit {s : TCPSender} (hle : s.lastAckno ≤ s.nextSeqno)
    (n : ℕ) (seg : TCPSegment) :
    (s.emit n seg).bytesInFlight = s.bytesInFlight + seg.lengthInSequenceSpace := by
  simp only [bytesInFlight, emit_nextSeqno, emit_lastAckno]
  omega

/-- Sending a FIN segment makes `finSent` true. -/
private theorem finSent_emit {s : TCPSender} {n : ℕ} {seg : TCPSegment}
    (h : seg.header.fin = true) : (s.emit n seg).finSent = true := by
  rw [finSent, emit_sent, List.any_append]
  simp [stamped, h]

section Round

variable {s₀ s : TCPSender} {seg : TCPSegment}

/-- While the SYN has been acknowledged, the history is not empty and the acknowledgement does
    not run ahead. -/
private theorem FillInv.started (hack : 0 < s₀.lastAckno) (hle : s₀.lastAckno ≤ s₀.nextSeqno)
    (h : FillInv s₀ s seg) : s.lastAckno ≤ s.nextSeqno ∧ s.bytesInFlight < s.nextSeqno ∧
      s.sent ≠ [] := by
  obtain ⟨new, hsends, -⟩ := h.sends
  have h₁ := hsends.nextSeqno
  have h₂ := hsends.lastAckno
  refine ⟨by omega, by unfold bytesInFlight; omega, ?_⟩
  intro hnil
  have := h.segmented.sent_eq_nil_iff.mp hnil
  omega

/-- A round that goes on has sent a segment with at least one byte of the stream. -/
private theorem FillInv.emit_loaded (hack : 0 < s₀.lastAckno) (hle : s₀.lastAckno ≤ s₀.nextSeqno)
    (h : FillInv s₀ s seg) (hrem : s.remainingWin ≠ 0) (heof : s.stream.eof = false)
    (hlen : (s.loaded seg).lengthInSequenceSpace ≠ 0) :
    FillInv s₀ (s.emit s.payloadSize (s.loaded seg)) (s.loaded seg) ∧
      (s.emit s.payloadSize (s.loaded seg)).stream.buff.length < s.stream.buff.length := by
  obtain ⟨hles, -, hne⟩ := h.started hack hle
  have hfin := h.fin_of_open heof
  have hplain := h.plain
  have hdata := s.stream.length_peekOutput s.payloadSize
  have hflight := bytesInFlight_emit hles s.payloadSize (s.loaded seg)
  have hnofin : s.finSent = false := by
    by_contra hcon
    have := h.segmented.fin_done (by simpa using hcon)
    simp [heof] at this
  have hsegmented : Segmented (s.emit s.payloadSize (s.loaded seg)) := by
    apply h.segmented.emit hne hnofin (loaded_plain hplain) loaded_payload
    · rw [loaded_payload, hdata]
      unfold payloadSize
      omega
    · exact Nat.pos_of_ne_zero hlen
    · intro hf
      exact ((loaded_fin hplain hfin).mp hf).1
  refine ⟨⟨?sends, hsegmented, loaded_plain hplain, ?fin_of_open, ?object, ?window⟩, ?measure⟩
  case sends =>
    obtain ⟨new, hsends, -⟩ := h.sends
    exact ⟨_, hsends.snoc s.payloadSize (s.loaded seg), by simp⟩
  case fin_of_open =>
    intro hopen
    by_contra hcon
    have := ((loaded_fin hplain hfin).mp (by simpa using hcon)).1
    rw [emit_stream, this] at hopen
    cases hopen
  case object =>
    intro hclosed
    right
    by_cases hf : (s.loaded seg).header.fin = true
    · -- FIN went out with the last bytes
      exact .inr (hsegmented.finSent_iff.mp (finSent_emit hf))
    · -- FIN did not fit, so the window is used up
      left
      have hfull : (s.loaded seg).lengthInSequenceSpace = s.remainingWin := by
        have h₁ := loaded_length_le (s := s) hplain hfin
        have h₂ : s.remainingWin ≤ (s.stream.peekOutput s.payloadSize).length := by
          by_contra hlt
          exact hf ((loaded_fin hplain hfin).mpr ⟨hclosed, by omega⟩)
        rw [loaded_length hplain] at h₁ ⊢
        omega
      rw [remainingWin, emit_curWin, hflight, hfull]
      exact sizeTSub_add_self _ _
  case window =>
    intro h₀
    have hwin := h.window h₀
    have hfit := loaded_length_le (s := s) hplain hfin
    rw [remainingWin_of_le hwin] at hfit
    rw [emit_curWin, hflight]
    omega
  case measure =>
    have hbuff : s.stream.buff ≠ [] := fun hnil =>
      hlen ((loaded_length_eq_zero_iff hplain hfin hrem heof).mpr hnil)
    have hpos := List.length_pos_iff.mpr hbuff
    have hsize := payloadSize_pos hrem
    simp only [emit_stream, ByteStream.popOutput_buff, List.length_drop]
    omega

/-- The FIN that is sent on its own takes one number: the segment object was not used in this
    call, for otherwise the FIN would have been sent or the window would be full. -/
private theorem FillInv.length_fin (h : FillInv s₀ s seg) (hrem : s.remainingWin ≠ 0)
    (heof : s.stream.eof = true) (hlt : s.nextSeqno < s.stream.bytesWritten + 2) :
    seg.payload = [] ∧ ({ seg with header := { seg.header with fin := true } } :
      TCPSegment).lengthInSequenceSpace = 1 := by
  have hobj : seg.payload = [] := by
    rcases h.object heof with hfresh | hfull | hdone
    · exact hfresh.1
    · exact absurd hfull hrem
    · omega
  have hsyn : seg.header.syn = false := by rw [h.plain]
  exact ⟨hobj, by simp [TCPSegment.lengthInSequenceSpace, hobj, hsyn]⟩

/-- What the FIN that is sent on its own leaves behind. -/
private theorem FillInv.emit_fin (hack : 0 < s₀.lastAckno) (hle : s₀.lastAckno ≤ s₀.nextSeqno)
    (h : FillInv s₀ s seg) (hrem : s.remainingWin ≠ 0) (heof : s.stream.eof = true)
    (hlt : s.nextSeqno < s.stream.bytesWritten + 2) :
    FillPost s₀ (s.sendSegment { seg with header := { seg.header with fin := true } }) := by
  obtain ⟨hles, -, hne⟩ := h.started hack hle
  obtain ⟨hended, hnil⟩ := s.stream.eof_iff.mp heof
  have hplain := h.plain
  obtain ⟨hobj, hlen⟩ := h.length_fin hrem heof hlt
  have hnofin : s.finSent = false := by
    by_contra hcon
    have := h.segmented.finSent_iff.mp (by simpa using hcon)
    omega
  rw [← emit_of_buff_nil hnil 0]
  have hsegmented : Segmented
      (s.emit 0 { seg with header := { seg.header with fin := true } }) := by
    apply h.segmented.emit hne hnofin
    · unfold Plain at hplain ⊢
      rw [hplain]
    · simp [hobj, ByteStream.peekOutput]
    · simp [hobj]
    · omega
    · intro _
      rw [s.stream.popOutput_of_buff_nil 0 hnil]
      exact heof
  refine ⟨?_, hsegmented, .inr ⟨?_, ?_⟩, ?_⟩
  · obtain ⟨new, hsends, -⟩ := h.sends
    exact ⟨_, hsends.snoc 0 _, by simp⟩
  · simp [hnil]
  · intro _
    exact hsegmented.finSent_iff.mp (finSent_emit rfl)
  -- one number more still fits, as the window was not full
  · intro h₀
    have hwin := h.window h₀
    have hroom := remainingWin_of_le hwin
    rw [emit_curWin, bytesInFlight_emit hles, hlen]
    omega

/-- **What one round does.**  It leaves with the window full, with an open stream that has nothing
    to read, or with an ended one whose FIN was sent before or now; or it goes on with a segment
    sent. -/
private theorem FillInv.round (hack : 0 < s₀.lastAckno) (hle : s₀.lastAckno ≤ s₀.nextSeqno)
    (h : FillInv s₀ s seg) :
    (s.remainingWin = 0 ∧ fillRound (s, seg) = .exit s) ∨
      s.remainingWin ≠ 0 ∧
        (s.stream.eof = false ∧ s.stream.buff = [] ∧ fillRound (s, seg) = .exit s ∨
          s.stream.eof = false ∧ (s.loaded seg).lengthInSequenceSpace ≠ 0 ∧
            fillRound (s, seg) = .next (s.emit s.payloadSize (s.loaded seg), s.loaded seg) ∨
          s.stream.eof = true ∧ s.nextSeqno < s.stream.bytesWritten + 2 ∧
            fillRound (s, seg) =
              .exit (s.sendSegment { seg with header := { seg.header with fin := true } }) ∨
          s.stream.eof = true ∧ s.stream.bytesWritten + 2 ≤ s.nextSeqno ∧
            fillRound (s, seg) = .exit s) := by
  obtain ⟨-, hflight, -⟩ := h.started hack hle
  simp only [fillRound]
  by_cases hrem : s.remainingWin = 0
  · exact .inl ⟨hrem, if_pos hrem⟩
  refine .inr ⟨hrem, ?_⟩
  rw [if_neg hrem]
  cases heof : s.stream.eof with
  | false =>
    simp only [Bool.not_false, true_and, hflight, if_true]
    by_cases hlen : (s.loaded seg).lengthInSequenceSpace = 0
    · have hnil := (loaded_length_eq_zero_iff h.plain (h.fin_of_open heof) hrem heof).mp hlen
      refine .inl ⟨hnil, ?_⟩
      rw [if_pos hlen]
      simp only [ByteStream.read, s.stream.popOutput_of_buff_nil s.payloadSize hnil]
    · exact .inr (.inl ⟨hlen, if_neg hlen⟩)
  | true =>
    simp only [Bool.not_true, Bool.false_eq_true, Bool.true_eq_false, false_and, if_false, if_true,
      false_or, true_and]
    by_cases hlt : s.nextSeqno < s.stream.bytesWritten + 2
    · exact .inl ⟨hlt, if_pos hlt⟩
    · exact .inr ⟨not_lt.mp hlt, if_neg hlt⟩

/-- A round that goes on keeps the invariant and takes a byte off the stream. -/
theorem fillRound_next (hack : 0 < s₀.lastAckno) (hle : s₀.lastAckno ≤ s₀.nextSeqno)
    {t : TCPSender} {seg' : TCPSegment} (h : FillInv s₀ s seg)
    (hround : fillRound (s, seg) = .next (t, seg')) :
    FillInv s₀ t seg' ∧ t.stream.buff.length < s.stream.buff.length := by
  rcases h.round hack hle with ⟨-, hr⟩ | ⟨hrem, ⟨-, -, hr⟩ | ⟨heof, hlen, hr⟩ | ⟨-, -, hr⟩ |
    ⟨-, -, hr⟩⟩ <;> rw [hr] at hround <;> cases hround
  exact h.emit_loaded hack hle hrem heof hlen

/-- A round that leaves the loop leaves it with the window filled. -/
theorem fillRound_exit (hack : 0 < s₀.lastAckno) (hle : s₀.lastAckno ≤ s₀.nextSeqno)
    {t : TCPSender} (h : FillInv s₀ s seg) (hround : fillRound (s, seg) = .exit t) :
    FillPost s₀ t := by
  rcases h.round hack hle with ⟨hrem, hr⟩ | ⟨hrem, ⟨heof, hnil, hr⟩ | ⟨-, -, hr⟩ |
    ⟨heof, hlt, hr⟩ | ⟨heof, hsent, hr⟩⟩ <;> rw [hr] at hround <;> cases hround
  · -- the window is full
    exact ⟨h.sends, h.segmented, .inl hrem, h.window⟩
  · -- an open stream with nothing to read
    refine ⟨h.sends, h.segmented, .inr ⟨hnil, ?_⟩, h.window⟩
    intro hended
    rw [s.stream.eof_iff.mpr ⟨hended, hnil⟩] at heof
    cases heof
  · exact h.emit_fin hack hle hrem heof hlt
  · -- FIN has been sent before
    exact ⟨h.sends, h.segmented,
      .inr ⟨(s.stream.eof_iff.mp heof).2, fun _ => by omega⟩, h.window⟩

end Round

/-! ## §3 The whole call -/

/-- The loop of `fill_window` ends within one round more than the stream has bytes. -/
theorem fillLoop_spec {s : TCPSender} (h : Segmented s) (hack : 0 < s.lastAckno)
    (hle : s.lastAckno ≤ s.nextSeqno) {n : ℕ} (hn : s.stream.bufferSize < n) :
    ∃ t, fillLoop n s = some t ∧ FillPost s t := by
  -- the loop starts with a fresh segment object
  have hinit : FillInv s s {} := by
    refine ⟨⟨[], Sends.refl s, fun _ => rfl⟩, h, rfl, fun _ => rfl, ?_, id⟩
    exact fun _ => .inl ⟨rfl, rfl⟩
  let Inv : TCPSender × TCPSegment → Prop := fun p => FillInv s p.1 p.2
  have hexit : ∀ p t, Inv p → fillRound p = .exit t → FillPost s t :=
    fun p t hp hround => fillRound_exit hack hle hp hround
  have hnext : ∀ p q, Inv p → fillRound p = .next q →
      Inv q ∧ q.1.stream.buff.length < p.1.stream.buff.length :=
    fun p q hp hround => fillRound_next hack hle hp hround
  exact Loop.iterate_spec (fun p => p.1.stream.buff.length) hexit hnext n (s, {}) hinit hn

/-- Once the SYN is acknowledged, a call of `fill_window` is a run of its loop. -/
private theorem fillWindow_of_loop {s t : TCPSender} (hack : 0 < s.lastAckno)
    (hle : s.lastAckno ≤ s.nextSeqno) (hloop : fillLoop (s.stream.bufferSize + 1) s = some t) :
    s.fillWindow = t := by
  have hflight : ¬ (0 < s.nextSeqno ∧ s.nextSeqno = s.bytesInFlight) := by
    unfold bytesInFlight
    omega
  unfold fillWindow
  rw [if_neg (by omega), if_neg hflight, hloop]

theorem fillWindow_of_acked {s : TCPSender} (h : Segmented s) (hack : 0 < s.lastAckno)
    (hle : s.lastAckno ≤ s.nextSeqno) : FillPost s s.fillWindow := by
  obtain ⟨t, ht, hpost⟩ := fillLoop_spec h hack hle (Nat.lt_succ_self s.stream.bufferSize)
  rw [fillWindow_of_loop hack hle ht]
  exact hpost

/-- Before the SYN, `fill_window` sends the SYN and nothing else. -/
theorem fillWindow_of_closed {s : TCPSender} (hzero : s.nextSeqno = 0) :
    s.fillWindow = s.sendSegment { header := { syn := true } } := by
  unfold fillWindow
  rw [if_pos hzero]

/-- Between the SYN and its acknowledgement, `fill_window` does nothing. -/
theorem fillWindow_of_unacked {s : TCPSender} (hpos : 0 < s.nextSeqno)
    (hack : s.lastAckno = 0) : s.fillWindow = s := by
  unfold fillWindow
  rw [if_neg (by omega), if_pos ⟨hpos, by simp [bytesInFlight, hack]⟩]

/-- A filled window is left at once. -/
theorem fillRound_of_filled {s : TCPSender} (hack : 0 < s.lastAckno)
    (hle : s.lastAckno ≤ s.nextSeqno) (h : Filled s) : fillRound (s, {}) = .exit s := by
  have hflight : s.bytesInFlight < s.nextSeqno := by
    unfold bytesInFlight
    omega
  simp only [fillRound]
  by_cases hrem : s.remainingWin = 0
  · rw [if_pos hrem]
  rw [if_neg hrem]
  rcases h with hfull | ⟨hnil, hfin⟩
  · exact absurd hfull hrem
  cases heof : s.stream.eof with
  | false =>
    -- the segment object stays empty
    have hlen : (s.loaded {}).lengthInSequenceSpace = 0 :=
      (loaded_length_eq_zero_iff (show Plain {} from rfl) rfl hrem heof).mpr hnil
    simp only [Bool.not_false, true_and, hflight, if_true, hlen]
    rw [ByteStream.read, s.stream.popOutput_of_buff_nil _ hnil]
  | true =>
    have := hfin (s.stream.eof_iff.mp heof).1
    simp only [Bool.not_true, Bool.false_eq_true, false_and, if_false, if_true]
    rw [if_neg (by omega)]

/-- **When `fill_window` sends.**  Once the SYN is acknowledged, a call sends nothing exactly
    when the window is full or nothing is left to send. -/
theorem fillWindow_eq_self_iff {s : TCPSender} (h : Segmented s) (hack : 0 < s.lastAckno)
    (hle : s.lastAckno ≤ s.nextSeqno) : s.fillWindow = s ↔ Filled s := by
  constructor
  · intro hself
    have := (fillWindow_of_acked h hack hle).filled
    rwa [hself] at this
  · intro hfilled
    apply fillWindow_of_loop hack hle
    rw [fillLoop, Loop.iterate, fillRound_of_filled hack hle hfilled]

/-- **What `fill_window` does.**  It sends some segments, keeps the segmentation, and once the
    SYN is acknowledged it leaves the window filled. -/
theorem fillWindow_spec {s : TCPSender} (h : Segmented s) (hle : s.lastAckno ≤ s.nextSeqno) :
    (∃ new, Sends s new s.fillWindow) ∧ Segmented s.fillWindow ∧
      (0 < s.lastAckno → Filled s.fillWindow) := by
  rcases Nat.eq_zero_or_pos s.nextSeqno with hzero | hpos
  · have hnil := h.sent_eq_nil_iff.mpr hzero
    rw [fillWindow_of_closed hzero]
    -- the SYN is a first transmission that reads nothing
    have hread : s.stream.popOutput 0 = s.stream := by
      apply ByteStream.ext_data <;> simp
    have hsnoc := (Sends.refl s).snoc 0 { header := { syn := true } }
    rw [emit, hread] at hsnoc
    exact ⟨⟨_, hsnoc⟩, h.emit_syn hnil, by omega⟩
  · rcases Nat.eq_zero_or_pos s.lastAckno with hack | hack
    · rw [fillWindow_of_unacked hpos hack]
      exact ⟨⟨[], Sends.refl s⟩, h, by omega⟩
    · have hpost := fillWindow_of_acked h hack hle
      obtain ⟨new, hsends, -⟩ := hpost.sends
      exact ⟨⟨new, hsends⟩, hpost.segmented, fun _ => hpost.filled⟩

/-! ## §4 The right edge -/

/-- The number up to which `fill_window` may send. -/
def edge (s : TCPSender) : ℕ :=
  s.nextSeqno + s.remainingWin

/-- A segment that fits the window leaves the edge where it is. -/
private theorem edge_emit {s : TCPSender} (hle : s.lastAckno ≤ s.nextSeqno) (n : ℕ)
    {seg : TCPSegment} (hfit : seg.lengthInSequenceSpace ≤ s.remainingWin) :
    (s.emit n seg).edge = s.edge := by
  have hroom := sizeTSub_add_of_le hfit
  rw [edge, emit_nextSeqno, remainingWin, emit_curWin, bytesInFlight_emit hle, edge, remainingWin]
  omega

section Edge

variable {s₀ s : TCPSender} {seg : TCPSegment}

/-- No round moves the edge. -/
private theorem fillRound_edge (hack : 0 < s₀.lastAckno) (hle : s₀.lastAckno ≤ s₀.nextSeqno)
    (h : FillInv s₀ s seg) :
    (∀ t seg', fillRound (s, seg) = .next (t, seg') → t.edge = s.edge) ∧
      ∀ t, fillRound (s, seg) = .exit t → t.edge = s.edge := by
  obtain ⟨hles, -, -⟩ := h.started hack hle
  constructor
  · intro t seg' hround
    rcases h.round hack hle with ⟨-, hr⟩ | ⟨-, ⟨-, -, hr⟩ | ⟨heof, -, hr⟩ | ⟨-, -, hr⟩ |
      ⟨-, -, hr⟩⟩ <;> rw [hr] at hround <;> cases hround
    exact edge_emit hles s.payloadSize (loaded_length_le h.plain (h.fin_of_open heof))
  · intro t hround
    rcases h.round hack hle with ⟨-, hr⟩ | ⟨hrem, ⟨-, -, hr⟩ | ⟨-, -, hr⟩ | ⟨heof, hlt, hr⟩ |
      ⟨-, -, hr⟩⟩ <;> rw [hr] at hround <;> cases hround
    · rfl
    · rfl
    · -- the FIN goes out on its own, and the window is not full
      rw [← emit_of_buff_nil (s.stream.eof_iff.mp heof).2 0]
      refine edge_emit hles 0 ?_
      rw [(h.length_fin hrem heof hlt).2]
      omega
    · rfl

end Edge

/-- **`fill_window` stays below the edge** and leaves it where it is, even where the difference
    of the window and the bytes in flight has wrapped round. -/
theorem fillWindow_edge {s : TCPSender} (h : Segmented s) (hack : 0 < s.lastAckno)
    (hle : s.lastAckno ≤ s.nextSeqno) : s.fillWindow.edge = s.edge := by
  have hinit : FillInv s s {} :=
    ⟨⟨[], Sends.refl s, fun _ => rfl⟩, h, rfl, fun _ => rfl, fun _ => .inl ⟨rfl, rfl⟩, id⟩
  let Inv : TCPSender × TCPSegment → Prop := fun p => FillInv s p.1 p.2 ∧ p.1.edge = s.edge
  have hexit : ∀ p t, Inv p → fillRound p = .exit t → t.edge = s.edge :=
    fun p t hp hround => ((fillRound_edge hack hle hp.1).2 t hround).trans hp.2
  have hnext : ∀ p q, Inv p → fillRound p = .next q →
      Inv q ∧ q.1.stream.buff.length < p.1.stream.buff.length := by
    intro p q hp hround
    obtain ⟨hinv, hlt⟩ := fillRound_next hack hle hp.1 hround
    exact ⟨⟨hinv, ((fillRound_edge hack hle hp.1).1 _ _ hround).trans hp.2⟩, hlt⟩
  obtain ⟨t, ht, hedge⟩ := Loop.iterate_spec (fun p => p.1.stream.buff.length) hexit hnext
    (s.stream.bufferSize + 1) (s, {}) ⟨hinit, rfl⟩ (Nat.lt_succ_self _)
  rw [fillWindow_of_loop hack hle ht]
  exact hedge

end TCPSender

end Sponge
