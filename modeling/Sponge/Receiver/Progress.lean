import Sponge.Receiver.Window

/-!
# Progress of the Receiver

A segment that contains the number a receiver waits for takes the receiver on, provided that the
owner has left it some room.  A segment without content does not change what has been received.

- `flush_grows`, `pushSubstring_grows`: a substring that reaches past the end of the output
- `output_pushSubstring_nil`: an empty substring
- `Tracks.received_lt`: the segment that contains the next number
- `received_of_empty`: a segment without content
-/

namespace Sponge

/-! ## §1 The reassembler -/

namespace StreamReassembler

/-- A flush that finds the first missing byte writes it, if there is room for one. -/
theorem flush_grows {S : Bytes} {r : StreamReassembler} (h : Stored S r)
    (hcov : Covered r.buf r.firstUnassembled) (hopen : r.output.inputEnded = false)
    (hroom : 0 < r.output.remainingCapacity) :
    r.firstUnassembled < r.flush.firstUnassembled := by
  obtain ⟨x, hx, hk⟩ := hcov
  simp only [Interval.Covers] at hk
  unfold flush
  cases hbuf : r.buf with
  | nil =>
    rw [hbuf] at hx
    cases hx
  | cons seg rest =>
    have hmem : seg ∈ r.buf := by rw [hbuf]; exact List.mem_cons_self
    have habove := h.above seg hmem
    have hpos := (h.pieces seg hmem).length_pos
    -- the substring with the missing byte is the first one
    have hidx : seg.idx = r.firstUnassembled := by
      have hseparated := h.separated
      rw [hbuf] at hx hseparated
      rcases List.mem_cons.mp hx with rfl | hx
      · omega
      · have := (List.pairwise_cons.mp hseparated).1 x hx
        omega
    rw [flushLoop, if_pos hidx]
    have hlater := (flushes_flushLoop rest (r.flushed seg)).written.length_le
    rw [← firstUnassembled_eq, ← firstUnassembled_eq, firstUnassembled_flushed] at hlater
    have haccepted : 0 < (r.output.accepted seg.data).length := by
      have hdata : 0 < seg.data.length := hpos
      simp only [ByteStream.accepted, hopen, Bool.false_eq_true, if_false, List.length_take]
      omega
    exact (Nat.lt_add_of_pos_right haccepted).trans_le hlater

section Push

variable {S : Bytes} {r r' : StreamReassembler} {data : Bytes} {index : UInt64} {eof : Bool}

/-- **A push that reaches past the end of the output**, into a window that is open. -/
theorem pushSubstring_grows (hS : S.length < 2 ^ 64) (h : Assembled S r)
    (hslice : Slice.At S index.toNat data) (hlow : index.toNat ≤ r.firstUnassembled)
    (hhigh : r.firstUnassembled < index.toNat + data.length)
    (hwindow : r.firstUnassembled < r.firstUnacceptable) (hopen : r.output.inputEnded = false)
    (hroom : 0 < r.output.remainingCapacity) (hrun : r.pushSubstring data index eof = .ok r') :
    r.firstUnassembled < r'.firstUnassembled := by
  have hne : data ≠ [] := by
    rintro rfl
    simp only [List.length_nil] at hhigh
    omega
  have hpiece : Piece S { idx := index.toNat, data := data } := ⟨hne, hslice⟩
  have hann := announce_stored h.stored data index eof
  have hstore : (r.announce data index eof).store data index =
      (r.announce data index eof).handleSubstring { idx := index.toNat, data := data } := by
    simp [store, hne]
  rcases handleSubstring_spec hS hann hpiece with
    ⟨hdrop, -⟩ | ⟨t, r₁, hkept, hhandle, hins, hstored⟩
  · -- the substring has an index in the window
    rw [announce_firstUnacceptable, announce_firstUnassembled] at hdrop
    have hlength : ({ idx := index.toNat, data := data } : Segment).length = data.length := rfl
    rw [hlength] at hdrop
    dsimp only at hdrop
    omega
  · have hout : r₁.output = r.output := by
      rw [hins.frame]
      exact announce_output r data index eof
    have hfu : r₁.firstUnassembled = r.firstUnassembled := by
      rw [firstUnassembled, firstUnassembled, hout]
    have hcov : Covered r₁.buf r₁.firstUnassembled := by
      rw [hins.cover]
      right
      have hstart := hkept.idx
      have hpos := hkept.piece.length_pos
      rw [announce_firstUnassembled] at hstart
      simp only [Interval.Covers, hfu]
      dsimp only at hstart
      omega
    have hgrows := flush_grows hstored hcov (by rw [hout]; exact hopen)
      (by rw [hout]; exact hroom)
    rw [pushSubstring, hstore, hhandle] at hrun
    rw [← Except.ok.inj hrun, firstUnassembled_finish, ← hfu]
    exact hgrows

/-- The output is closed as soon as it reaches the announced end. -/
def Shut (r : StreamReassembler) : Prop :=
  r.eof = true → r.firstUnassembled = r.eofIndex → r.output.inputEnded = true

/-- Nothing that is stored continues the output, so there is nothing to flush. -/
theorem output_flush_of_gap (hgap : ∀ seg ∈ r.buf, r.firstUnassembled < seg.idx) :
    r.flush.output = r.output ∧ r.flush.eof = r.eof ∧ r.flush.eofIndex = r.eofIndex := by
  unfold flush
  cases hbuf : r.buf with
  | nil => exact ⟨rfl, rfl, rfl⟩
  | cons seg rest =>
    have hidx := hgap seg (by rw [hbuf]; exact List.mem_cons_self)
    rw [flushLoop, if_neg hidx.ne']
    exact ⟨rfl, rfl, rfl⟩

/-- **An empty push** that announces nothing. -/
theorem output_pushSubstring_nil (h : Assembled S r) (hshut : Shut r)
    (hrun : r.pushSubstring [] index false = .ok r') :
    r'.firstUnassembled = r.firstUnassembled ∧
      (r'.output.inputEnded = true → r.output.inputEnded = true) := by
  have hr' : r' = r.flush.finish := (Except.ok.inj hrun).symm
  obtain ⟨hout, heof, hindex⟩ := output_flush_of_gap h.gap
  have hfu : r.flush.firstUnassembled = r.firstUnassembled := by
    rw [firstUnassembled, firstUnassembled, hout]
  rw [hr', firstUnassembled_finish, hfu]
  refine ⟨rfl, fun hended => ?_⟩
  unfold finish at hended
  split at hended
  · rename_i hcond
    rw [heof, hfu, hindex] at hcond
    exact hshut hcond.1 hcond.2
  · rw [hout] at hended
    exact hended

end Push

end StreamReassembler

/-! ## §2 The receiver -/

namespace TCPReceiver

/-- How much of the peer's sequence space has been received: the SYN, the assembled bytes and the
    FIN. -/
def received (r : TCPReceiver) : ℕ :=
  (if r.syn then 1 else 0) + r.streamOut.bytesWritten + (if r.streamOut.inputEnded then 1 else 0)

/-- Some room is left in the window. -/
structure Roomy (r : TCPReceiver) : Prop where
  window : r.reassembler.firstUnassembled < r.reassembler.firstUnacceptable
  output : 0 < r.streamOut.remainingCapacity

section Received

variable {isn : WrappingInt32} {S : Bytes} {v n : ℕ} {seg : TCPSegment} {r r' : TCPReceiver}

/-- A genuine segment is as long as it says. -/
theorem Genuine.length_eq (h : Genuine isn S v n seg) : seg.lengthInSequenceSpace = n := by
  have hfits := h.fits
  have hsyn := h.syn
  have hfin := h.fin
  have hlen : seg.payload.length = min (n - if v = 0 then 1 else 0) (S.length - (v - 1)) := by
    rw [h.payload, List.length_take, List.length_drop]
  unfold TCPSegment.lengthInSequenceSpace
  cases hs : seg.header.syn <;> cases hf : seg.header.fin <;>
    simp only [hs, hf, true_iff, false_iff, Bool.false_eq_true, not_and, if_true, if_false] at *
      <;> split at hlen <;> omega

/-- Before the SYN nothing has been received. -/
theorem Tracks.received_of_closed (h : Tracks isn S r) (hclosed : r.syn = false) :
    r.received = 0 := by
  obtain ⟨hwritten, heof⟩ := h.closed hclosed
  have hopen : r.streamOut.inputEnded = false := by
    by_contra hended
    rw [Bool.not_eq_false] at hended
    rw [(h.assembled.ended hended).1] at heof
    cases heof
  have hcount : r.streamOut.bytesWritten = 0 := by
    rw [ByteStream.bytesWritten_eq, hwritten, List.length_nil]
  simp [received, hclosed, hopen, hcount]

/-- What has been received once the stream has ended. -/
theorem Tracks.received_of_ended (h : Tracks isn S r) (hsyn : r.syn = true)
    (hended : r.streamOut.inputEnded = true) : r.received = S.length + 2 := by
  have hall := (h.assembled.ended hended).2
  have hcount : r.streamOut.bytesWritten = S.length := by
    rw [ByteStream.bytesWritten_eq]
    exact congrArg List.length hall
  simp only [received, hsyn, hended, hcount, if_true]
  omega

/-- A segment after the SYN is pushed at the index that its number says. -/
theorem segmentReceived_of_open (hS : S.length + 2 ^ 32 ≤ 2 ^ 64) (h : Tracks isn S r)
    (hseg : Genuine isn S v n seg) (hopen : r.syn = true) (hpos : 0 < v)
    (hup : v ≤ r.reassembler.firstUnassembled + 2 ^ 31)
    (hdown : r.reassembler.firstUnassembled < v + 2 ^ 31)
    (hrun : r.segmentReceived seg = .ok r') : ∃ (index : UInt64) (re : StreamReassembler),
      index.toNat = v - 1 ∧
      r.reassembler.pushSubstring seg.payload index seg.header.fin = .ok re ∧
      r' = { r with reassembler := re } := by
  have hfits := hseg.fits
  have hv : unwrap seg.header.seqno r.isn r.reassembler.firstUnassembled = v := by
    rw [h.isn hopen]
    exact hseg.unwrap_eq hS (firstUnassembled_le h) hup hdown
  have hindex : (UInt64.ofNat v - 1).toNat = v - 1 := by
    rw [UInt64.toNat_sub, UInt64.toNat_ofNat', UInt64.toNat_one]
    omega
  unfold segmentReceived at hrun
  simp only [hopen, hv, Bool.not_true, Bool.false_eq_true, if_false, bind, Except.bind, pure,
    Except.pure] at hrun
  split at hrun
  · cases hrun
  · rename_i re hpush
    refine ⟨_, re, hindex, hpush, ?_⟩
    rw [hopen]
    exact (Except.ok.inj hrun).symm

/-- The FIN ends the stream once all bytes are there. -/
theorem inputEnded_of_fin (hS : S.length + 2 ^ 32 ≤ 2 ^ 64) (h : Tracks isn S r)
    (hseg : Genuine isn S v n seg) (hfin : seg.header.fin = true)
    (hall : S.length ≤ r.reassembler.firstUnassembled) {index : UInt64}
    (hindex : index.toNat = v - 1) {re : StreamReassembler}
    (hpush : r.reassembler.pushSubstring seg.payload index seg.header.fin = .ok re) :
    re.output.inputEnded = true ∧ r.reassembler.firstUnassembled ≤ re.firstUnassembled := by
  have hpushes := StreamReassembler.pushes_pushSubstring hpush
  have hmono := hpushes.written.length_le
  rw [← StreamReassembler.firstUnassembled_eq, ← StreamReassembler.firstUnassembled_eq] at hmono
  -- the FIN announces the true end
  have hstop : sizeT (index.toNat + seg.payload.length) = S.length := by
    rw [hindex, hseg.end_eq hfin, sizeT, Nat.mod_eq_of_lt (by omega)]
  obtain ⟨re', hpush', hassembled, -⟩ := StreamReassembler.pushSubstring_spec (by omega)
    h.assembled (fun _ => .inr (hindex.symm ▸ hseg.slice)) (fun _ _ => hstop.ge)
  cases Except.ok.inj (hpush.symm.trans hpush')
  have hle := hassembled.written.length_le
  rw [← StreamReassembler.firstUnassembled_eq] at hle
  refine ⟨hpushes.closed ?_ ?_, hmono⟩
  · rw [hpushes.eof, hfin, Bool.or_true]
  · rw [hpushes.eofIndex, hfin, if_pos rfl, hstop]
    omega

/-- **The next number.**  A genuine segment that contains the number the receiver waits for takes
    it on. -/
theorem Tracks.received_lt (hS : S.length + 2 ^ 32 ≤ 2 ^ 64) (h : Tracks isn S r)
    (hseg : Genuine isn S v n seg) (hroom : Roomy r) (hlow : v ≤ r.received)
    (hhigh : r.received < v + n) (hsyn : v = 0 → n ≤ 1)
    (hup : v ≤ r.reassembler.firstUnassembled + 2 ^ 31)
    (hdown : r.reassembler.firstUnassembled < v + 2 ^ 31)
    (hrun : r.segmentReceived seg = .ok r') : r.received < r'.received := by
  have hfits := hseg.fits
  cases hopen : r.syn with
  | false =>
    -- the SYN
    rw [h.received_of_closed hopen] at hlow hhigh ⊢
    have hflag : seg.header.syn = true := hseg.syn.mpr ⟨by omega, by omega⟩
    rcases segmentReceived_cases hrun with ⟨-, hno, -⟩ | ⟨-, -, re, -, rfl⟩ | ⟨hsynced, -⟩
    · rw [hflag] at hno
      cases hno
    · simp only [received, if_true]
      omega
    · rw [hopen] at hsynced
      cases hsynced
  | true =>
    have hrunning : r.streamOut.inputEnded = false := by
      by_contra hended
      have := h.received_of_ended hopen (by simpa using hended)
      omega
    have hcount : r.received = 1 + r.reassembler.firstUnassembled := by
      simp only [received, hopen, hrunning, if_true, Bool.false_eq_true, if_false, Nat.add_zero]
      rfl
    rw [hcount] at hlow hhigh ⊢
    have hpos : 0 < v := by
      by_contra hzero
      have := hsyn (by omega)
      omega
    obtain ⟨index, re, hindex, hpush, rfl⟩ :=
      segmentReceived_of_open hS h hseg hopen hpos hup hdown hrun
    have hafter : TCPReceiver.received { r with reassembler := re } =
        1 + re.firstUnassembled + (if re.output.inputEnded then 1 else 0) := by
      simp only [received, hopen, if_true]
      rfl
    rw [hafter]
    rcases Nat.lt_or_ge r.reassembler.firstUnassembled S.length with hdata | hall
    · -- the segment brings the next byte
      have hlen : seg.payload.length = min n (S.length - (v - 1)) := by
        rw [hseg.payload, List.length_take, List.length_drop, if_neg (by omega), Nat.sub_zero]
      have hgrows := StreamReassembler.pushSubstring_grows (by omega) h.assembled
        (hindex.symm ▸ hseg.slice) (by omega) (by omega) hroom.window hrunning hroom.output hpush
      omega
    · -- only the FIN is missing
      have hfin : seg.header.fin = true := hseg.fin.mpr ⟨by omega, by omega⟩
      obtain ⟨hended, hmono⟩ := inputEnded_of_fin hS h hseg hfin hall hindex hpush
      rw [if_pos hended]
      omega

end Received

/-- The end of the stream is not overlooked. -/
def Shut (r : TCPReceiver) : Prop :=
  r.reassembler.Shut

section Shut

variable {isn : WrappingInt32} {S : Bytes} {seg : TCPSegment} {r r' : TCPReceiver}

theorem Shut.segmentReceived (h : Shut r) (hrun : r.segmentReceived seg = .ok r') : Shut r' := by
  rcases segmentReceived_cases hrun with
    ⟨-, -, rfl⟩ | ⟨-, -, re, hpush, rfl⟩ | ⟨-, index, re, hpush, rfl⟩
  · exact h
  · exact (StreamReassembler.pushes_pushSubstring hpush).closed
  · exact (StreamReassembler.pushes_pushSubstring hpush).closed

/-- **A segment without content** changes nothing in what has been received. -/
theorem received_of_empty (h : Tracks isn S r) (hshut : Shut r)
    (hempty : seg.lengthInSequenceSpace = 0) (hrun : r.segmentReceived seg = .ok r') :
    r'.received = r.received := by
  have hnil : seg.payload = [] ∧ seg.header.syn = false ∧ seg.header.fin = false := by
    unfold TCPSegment.lengthInSequenceSpace at hempty
    refine ⟨List.length_eq_zero_iff.mp (by omega), ?_, ?_⟩
    · cases hsyn : seg.header.syn with
      | false => rfl
      | true => simp [hsyn] at hempty
    · cases hfin : seg.header.fin with
      | false => rfl
      | true => simp [hfin] at hempty
  obtain ⟨hpayload, hsyn, hfin⟩ := hnil
  have hforward := Forward.received hrun
  rcases segmentReceived_cases hrun with
    ⟨-, -, rfl⟩ | ⟨-, hflag, -⟩ | ⟨hopen, index, re, hpush, rfl⟩
  · rfl
  · rw [hsyn] at hflag
    cases hflag
  · rw [hpayload, hfin] at hpush
    obtain ⟨hfu, hend⟩ := StreamReassembler.output_pushSubstring_nil h.assembled hshut hpush
    have hended : re.output.inputEnded = r.reassembler.output.inputEnded := by
      cases hafter : re.output.inputEnded with
      | true => exact (hend hafter).symm
      | false =>
        cases hbefore : r.reassembler.output.inputEnded with
        | false => rfl
        | true =>
          have : re.output.inputEnded = true := hforward.inputEnded hbefore
          rw [hafter] at this
          cases this
    have hbytes : re.output.bytesWritten = r.reassembler.output.bytesWritten := hfu
    unfold received streamOut
    rw [hended, hbytes]

end Shut

end TCPReceiver

end Sponge
