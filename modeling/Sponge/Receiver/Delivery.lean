import Sponge.Lib.Execution
import Sponge.Reassembler.Assembly
import Sponge.TCPReceiver

/-!
# Delivery by the Receiver

A peer that sends the byte stream `S` numbers `SYN, S, FIN` from zero on.  A genuine segment
carries a contiguous range of these numbers.  The receiver turns the wrapped number of a
segment back into a stream index and pushes the payload there.

The first SYN is pushed at index 0.  Every later segment that starts with the SYN is pushed at
index `2 ^ 64 - 1`, which lies past every window.  Its payload is dropped, but a FIN it carries
announces an end that is one byte too early.

- `Genuine isn S v n seg`: `seg` carries the `n` numbers from `v` on
- `Tracks isn S r`: the invariant of a receiver of `S`
- `Tracks.segmentReceived`: one genuine segment
- `delivers_of_no_late_opening`: the delivery property over whole runs
-/

namespace Sponge

namespace TCPReceiver

/-! ## §1 Genuine segments -/

/-- The segment carries the `n` numbers from `v` on of the sequence space `SYN, S, FIN`. -/
structure Genuine (isn : WrappingInt32) (S : Bytes) (v n : ℕ) (seg : TCPSegment) : Prop where
  fits : v + n ≤ S.length + 2
  seqno : seg.header.seqno = wrap v isn
  syn : seg.header.syn = true ↔ v = 0 ∧ 0 < n
  fin : seg.header.fin = true ↔ v ≤ S.length + 1 ∧ S.length + 2 ≤ v + n
  payload : seg.payload = (S.drop (v - 1)).take (n - if v = 0 then 1 else 0)

section Genuine

variable {isn : WrappingInt32} {S : Bytes} {v n : ℕ} {seg : TCPSegment}

/-- The payload stands in the stream just where its number says. -/
theorem Genuine.slice (h : Genuine isn S v n seg) : Slice.At S (v - 1) seg.payload := by
  rw [h.payload]
  exact List.take_prefix _ _

/-- A FIN follows the last byte of the stream. -/
theorem Genuine.end_eq (h : Genuine isn S v n seg) (hfin : seg.header.fin = true) :
    v - 1 + seg.payload.length = S.length := by
  have hfits := h.fits
  obtain ⟨h₁, h₂⟩ := h.fin.mp hfin
  rw [h.payload]
  simp only [List.length_take, List.length_drop]
  split <;> omega

end Genuine

/-! ## §2 The invariant -/

/-- A receiver that has got genuine segments of `S` only. -/
structure Tracks (isn : WrappingInt32) (S : Bytes) (r : TCPReceiver) : Prop where
  assembled : r.reassembler.Assembled S
  isn : r.syn = true → r.isn = isn
  -- nothing happens before the SYN
  closed : r.syn = false → r.streamOut.written = [] ∧ r.reassembler.eof = false

theorem Tracks.new (isn : WrappingInt32) (S : Bytes) (capacity : UInt64) :
    Tracks isn S (.new capacity) where
  assembled := StreamReassembler.Assembled.new S capacity
  isn := by simp [TCPReceiver.new]
  closed := by simp [TCPReceiver.new, streamOut, StreamReassembler.new]

/-- What a receiver never takes back. -/
structure Advances (r r' : TCPReceiver) : Prop where
  syn : r.syn = true → r'.syn = true
  written : r.streamOut.written <+: r'.streamOut.written
  inputEnded : r.streamOut.inputEnded = true → r'.streamOut.inputEnded = true

theorem Advances.refl (r : TCPReceiver) : Advances r r :=
  ⟨id, List.prefix_rfl, id⟩

/-- The receiver is never past the end of the stream. -/
theorem firstUnassembled_le {isn : WrappingInt32} {S : Bytes} {r : TCPReceiver}
    (h : Tracks isn S r) : r.reassembler.firstUnassembled ≤ S.length := by
  rw [StreamReassembler.firstUnassembled_eq]
  exact h.assembled.written.length_le

/-! ## §3 One segment -/

section Received

variable {isn : WrappingInt32} {S : Bytes} {v n : ℕ} {seg : TCPSegment} {r : TCPReceiver}

/-- The number of a segment near the receiver's position is recovered. -/
theorem Genuine.unwrap_eq (hS : S.length + 2 ^ 32 ≤ 2 ^ 64) (h : Genuine isn S v n seg)
    {fu : ℕ} (hfu : fu ≤ S.length) (hup : v ≤ fu + 2 ^ 31) (hdown : fu < v + 2 ^ 31) :
    unwrap seg.header.seqno isn fu = v := by
  have := h.fits
  rw [h.seqno]
  exact unwrap_wrap isn hup hdown (by omega) (by omega)

/-- The first SYN of the run. -/
theorem Tracks.segmentReceived_first (hS : S.length + 2 ^ 32 ≤ 2 ^ 64) (h : Tracks isn S r)
    (hseg : Genuine isn S v n seg) (hclosed : r.syn = false) (hsyn : seg.header.syn = true) :
    ∃ r', r.segmentReceived seg = .ok r' ∧ Tracks isn S r' ∧ Advances r r' ∧
      (r'.reassembler.eof = true → r.reassembler.eof = true ∨ seg.header.fin = true) := by
  obtain ⟨hv, -⟩ := hseg.syn.mp hsyn
  have hslice : Slice.At S (0 : UInt64).toNat seg.payload := by
    have := hseg.slice
    rwa [hv, Nat.zero_sub] at this
  have hend : seg.header.fin = true →
      S.length ≤ sizeT ((0 : UInt64).toNat + seg.payload.length) := by
    intro hfin
    have hlen := hseg.end_eq hfin
    rw [hv, Nat.zero_sub] at hlen
    rw [UInt64.toNat_zero, hlen, sizeT, Nat.mod_eq_of_lt (by omega)]
  obtain ⟨re, hrun, hassembled, hpush⟩ := StreamReassembler.pushSubstring_spec (by omega)
    h.assembled (fun _ => .inr hslice) (fun hfin _ => hend hfin)
  refine ⟨{ r with isn := seg.header.seqno, syn := seg.header.syn, reassembler := re }, ?_,
    ⟨hassembled, ?_, ?_⟩, ⟨?_, hpush.written, hpush.inputEnded⟩, ?_⟩
  · simp [segmentReceived, hclosed, hsyn, hrun, bind, Except.bind, pure, Except.pure]
  · intro _
    rw [hseg.seqno, hv, wrap_zero]
  · simp [hsyn]
  · simp [hclosed]
  · simp [hpush.eof]

/-- The stream index `abs_seqno - 1` does not wrap after the SYN. -/
private theorem toNat_streamIndex (hpos : 0 < v) (hlt : v < 2 ^ 64) :
    (UInt64.ofNat v - 1).toNat = v - 1 := by
  rw [UInt64.toNat_sub, UInt64.toNat_ofNat', UInt64.toNat_one]
  omega

/-- A segment after the SYN.  A second copy of the SYN must not announce an end. -/
theorem Tracks.segmentReceived_later (hS : S.length + 2 ^ 32 ≤ 2 ^ 64) (h : Tracks isn S r)
    (hseg : Genuine isn S v n seg) (hopen : r.syn = true)
    (hup : v ≤ r.reassembler.firstUnassembled + 2 ^ 31)
    (hdown : r.reassembler.firstUnassembled < v + 2 ^ 31)
    (hlate : r.streamOut.inputEnded = false → seg.header.syn = true → seg.header.fin = true →
      seg.payload = []) :
    ∃ r', r.segmentReceived seg = .ok r' ∧ Tracks isn S r' ∧ Advances r r' ∧
      (r'.reassembler.eof = true → r.reassembler.eof = true ∨ seg.header.fin = true) := by
  have hisn := h.isn hopen
  -- the segment is near, so its absolute number is recovered
  have hv : unwrap seg.header.seqno r.isn r.reassembler.firstUnassembled = v := by
    rw [hisn]
    exact hseg.unwrap_eq hS (firstUnassembled_le h) hup hdown
  have hfits := hseg.fits
  have hdata : seg.payload ≠ [] →
      r.reassembler.firstUnacceptable ≤ (UInt64.ofNat v - 1).toNat ∨
        Slice.At S (UInt64.ofNat v - 1).toNat seg.payload := by
    intro _
    rcases Nat.eq_zero_or_pos v with hzero | hpos
    · -- the index of a repeated SYN lies past every window
      left
      have hfa : r.reassembler.firstUnacceptable < 2 ^ 64 := Nat.mod_lt _ (by decide)
      have hindex : (UInt64.ofNat v - 1).toNat = 2 ^ 64 - 1 := by rw [hzero]; rfl
      omega
    · right
      rw [toNat_streamIndex hpos (by omega)]
      exact hseg.slice
  -- a FIN announces the true end, unless it comes with a repeated SYN
  have heof : seg.header.fin = true → r.reassembler.output.inputEnded = false →
      S.length ≤ sizeT ((UInt64.ofNat v - 1).toNat + seg.payload.length) := by
    intro hfin hrunning
    have hlen := hseg.end_eq hfin
    rcases Nat.eq_zero_or_pos v with hzero | hpos
    · -- a repeated SYN with FIN is harmless for the empty stream only
      obtain ⟨-, h₂⟩ := hseg.fin.mp hfin
      have hnil := hlate hrunning (hseg.syn.mpr ⟨hzero, by omega⟩) hfin
      rw [hnil, hzero, Nat.zero_sub, List.length_nil] at hlen
      omega
    · rw [toNat_streamIndex hpos (by omega), hlen, sizeT, Nat.mod_eq_of_lt (by omega)]
  obtain ⟨re, hrun, hassembled, hpush⟩ :=
    StreamReassembler.pushSubstring_spec (by omega) h.assembled hdata heof
  refine ⟨{ r with reassembler := re }, ?_, ⟨hassembled, fun _ => hisn, ?_⟩,
    ⟨id, hpush.written, hpush.inputEnded⟩, ?_⟩
  · simp [segmentReceived, hopen, hv, hrun, bind, Except.bind, pure, Except.pure]
  · simp [hopen]
  · simp [hpush.eof]

/-- **One genuine segment**, near the receiver's position. -/
theorem Tracks.segmentReceived (hS : S.length + 2 ^ 32 ≤ 2 ^ 64) (h : Tracks isn S r)
    (hseg : Genuine isn S v n seg)
    (hup : v ≤ r.reassembler.firstUnassembled + 2 ^ 31)
    (hdown : r.reassembler.firstUnassembled < v + 2 ^ 31)
    (hlate : r.syn = true → r.streamOut.inputEnded = false → seg.header.syn = true →
      seg.header.fin = true → seg.payload = []) :
    ∃ r', r.segmentReceived seg = .ok r' ∧ Tracks isn S r' ∧ Advances r r' ∧
      (r'.reassembler.eof = true → r.reassembler.eof = true ∨ seg.header.fin = true) := by
  cases hopen : r.syn with
  | true => exact h.segmentReceived_later hS hseg hopen hup hdown (hlate hopen)
  | false =>
    cases hsyn : seg.header.syn with
    | true => exact h.segmentReceived_first hS hseg hopen hsyn
    | false =>
      -- without a SYN the segment is ignored
      exact ⟨r, by simp [TCPReceiver.segmentReceived, hopen, hsyn], h, Advances.refl r, .inl⟩

end Received

/-! ## §4 Runs -/

/-- A genuine segment arrives, or the owner reads from the stream. -/
inductive Delivery (isn : WrappingInt32) (S : Bytes) where
  | segment (v n : ℕ) (seg : TCPSegment) (genuine : Genuine isn S v n seg)
  | read (len : ℕ)

section Runs

variable {isn : WrappingInt32} {S : Bytes}

def deliver (r : TCPReceiver) : Delivery isn S → Except StdException TCPReceiver
  | .segment _ _ seg _ => r.segmentReceived seg
  | .read len =>
    .ok { r with
      reassembler := { r.reassembler with output := (r.reassembler.output.read len).2 } }

def Step (r : TCPReceiver) (d : Delivery isn S) (r' : TCPReceiver) : Prop :=
  r.deliver d = .ok r'

/-- The segment's number is within `2 ^ 31 - 1` of the first unassembled index. -/
def Near (r : TCPReceiver) : Delivery isn S → Prop
  | .segment v _ _ _ => v ≤ r.reassembler.firstUnassembled + (2 ^ 31 - 1) ∧
      r.reassembler.firstUnassembled ≤ v + (2 ^ 31 - 1)
  | .read _ => True

/-- The segment does not open and close the stream again while it is still running. -/
def NoLateOpening (r : TCPReceiver) : Delivery isn S → Prop
  | .segment _ _ seg _ => r.syn = true → r.streamOut.inputEnded = false →
      seg.header.syn = true → seg.header.fin = true → seg.payload = []
  | .read _ => True

instance (r : TCPReceiver) : DecidablePred (@Near isn S r)
  | .segment .. => inferInstanceAs (Decidable (_ ∧ _))
  | .read _ => .isTrue trivial

instance (r : TCPReceiver) : DecidablePred (@NoLateOpening isn S r)
  | .segment .. => inferInstanceAs (Decidable (_ → _))
  | .read _ => .isTrue trivial

/-- What the receiver shows of the stream `S`. -/
structure Delivers (isn : WrappingInt32) (S : Bytes) (r : TCPReceiver) : Prop where
  written : r.streamOut.written <+: S
  ended : r.streamOut.inputEnded = true → r.streamOut.written = S
  ackno : ∀ a, r.ackno = some a →
    a = wrap (1 + r.streamOut.bytesWritten + if r.streamOut.inputEnded then 1 else 0) isn

theorem Tracks.delivers {r : TCPReceiver} (h : Tracks isn S r) : Delivers isn S r := by
  refine ⟨h.assembled.written, fun hended => (h.assembled.ended hended).2, ?_⟩
  intro a ha
  unfold ackno at ha
  cases hsyn : r.syn with
  | false => simp [hsyn] at ha
  | true =>
    simp only [hsyn, Bool.not_true, Bool.false_eq_true, if_false, Option.some.injEq] at ha
    rw [← ha, h.isn hsyn, absAckno, Nat.add_comm r.reassembler.firstUnassembled 1]
    rfl

/-- Reading keeps the invariant. -/
theorem Tracks.read {r : TCPReceiver} (h : Tracks isn S r) (len : ℕ) :
    Tracks isn S { r with
      reassembler := { r.reassembler with output := (r.reassembler.output.read len).2 } } :=
  ⟨h.assembled.read len, h.isn, h.closed⟩

/-- **Delivery.**  In every run of genuine segments near the receiver's position, in which no
    second SYN with data announces the end of a running stream, the receiver writes a prefix of
    `S`, ends only after all of `S`, and acknowledges exactly what it has written. -/
theorem delivers_of_no_late_opening (hS : S.length + 2 ^ 32 ≤ 2 ^ 64) (capacity : UInt64)
    (ds : List (Delivery isn S))
    (h : Execution.Along Step (fun r d => Near r d ∧ NoLateOpening r d) (.new capacity) ds) :
    Execution.Always Step (Delivers isn S) (.new capacity) ds := by
  have hkeep : ∀ (r : TCPReceiver) (d : Delivery isn S), Tracks isn S r →
      (Near r d ∧ NoLateOpening r d) → ∃ r', r.deliver d = .ok r' ∧ Tracks isn S r' := by
    rintro r d hr ⟨hnear, hlate⟩
    cases d with
    | segment v n seg hseg =>
      obtain ⟨hup, hdown⟩ := hnear
      obtain ⟨r', hrun, hr', -, -⟩ :=
        hr.segmentReceived hS hseg (by omega) (by omega) hlate
      exact ⟨r', hrun, hr'⟩
    | read len => exact ⟨_, rfl, hr.read len⟩
  refine Execution.Always.mono (fun r hr => Tracks.delivers hr) ?_
  refine Execution.always_of_along ?_ ?_ ds _ (Tracks.new isn S capacity) h
  -- every step returns and keeps the invariant
  · intro r d hr hG
    obtain ⟨r', hrun, -⟩ := hkeep r d hr hG
    exact ⟨r', hrun⟩
  · intro r d r' hr hG hstep
    obtain ⟨r'', hrun, hr''⟩ := hkeep r d hr hG
    rw [← Except.ok.inj (hrun.symm.trans hstep)]
    exact hr''

/-- The segment that carries SYN, the whole stream and FIN. -/
def fullSegment (isn : WrappingInt32) (S : Bytes) : TCPSegment :=
  { header := { seqno := isn, syn := true, fin := true }, payload := S }

theorem genuine_fullSegment (isn : WrappingInt32) (S : Bytes) :
    Genuine isn S 0 (S.length + 2) (fullSegment isn S) := by
  constructor <;> simp [fullSegment, List.take_of_length_le]

/-- The segment that carries the `n` numbers of the stream from `v` on. -/
def segmentAt (isn : WrappingInt32) (S : Bytes) (v n : ℕ) : TCPSegment where
  header := {
    seqno := wrap v isn
    syn := decide (v = 0 ∧ 0 < n)
    fin := decide (v ≤ S.length + 1 ∧ S.length + 2 ≤ v + n) }
  payload := (S.drop (v - 1)).take (n - if v = 0 then 1 else 0)

theorem genuine_segmentAt (isn : WrappingInt32) (S : Bytes) {v n : ℕ} (h : v + n ≤ S.length + 2) :
    Genuine isn S v n (segmentAt isn S v n) := by
  constructor
  case fits => exact h
  all_goals simp [segmentAt]

def Delivery.part (isn : WrappingInt32) (S : Bytes) (v n : ℕ) (h : v + n ≤ S.length + 2) :
    Delivery isn S :=
  .segment v n (segmentAt isn S v n) (genuine_segmentAt isn S h)

/-- Data before the SYN, which is lost; data and FIN before what precedes them; the SYN and data
    once more, while the stream is running and after its end. -/
def reordered : List (Delivery ⟨7⟩ [1, 2, 3, 4]) :=
  [.part _ _ 2 1 (by decide), .part _ _ 0 1 (by decide), .part _ _ 3 3 (by decide),
    .part _ _ 0 1 (by decide), .part _ _ 1 1 (by decide), .read 1, .part _ _ 1 2 (by decide),
    .part _ _ 0 1 (by decide), .part _ _ 3 3 (by decide), .read 5]

/-- The segments of a stream, reordered and repeated, and reads in between.  All of it arrives. -/
theorem delivers_of_no_late_opening_reordered :
    Execution.Along Step (fun r d => Near r d ∧ NoLateOpening r d) (.new 10) reordered ∧
      Execution.Always Step (Delivers ⟨7⟩ [1, 2, 3, 4]) (.new 10) reordered ∧
      (reordered.foldlM deliver (.new 10)).map (fun r => (r.streamOut.written, r.streamOut.eof)) =
        .ok ([1, 2, 3, 4], true) := by
  have halong : Execution.Along Step (fun r d => Near r d ∧ NoLateOpening r d) (.new 10)
      reordered := by
    have hperform : ∀ (r : TCPReceiver) (d : Delivery ⟨7⟩ [1, 2, 3, 4]) (r' : TCPReceiver),
        Step r d r' → (r.deliver d).toOption = some r' := by
      intro r d r' hstep
      rw [show r.deliver d = .ok r' from hstep]
      rfl
    exact Execution.along_of_performIf hperform _ _ (by decide +kernel)
  exact ⟨halong, delivers_of_no_late_opening (by decide) 10 _ halong, by decide +kernel⟩

/-- With room for two of three bytes, the second copy of a full segment ends the stream. -/
theorem delivery_fails :
    Execution.Along Step Near (.new 2)
      ([.segment 0 5 (fullSegment ⟨7⟩ [1, 2, 3]) (genuine_fullSegment ⟨7⟩ [1, 2, 3]),
        .segment 0 5 (fullSegment ⟨7⟩ [1, 2, 3]) (genuine_fullSegment ⟨7⟩ [1, 2, 3])] :
        List (Delivery ⟨7⟩ [1, 2, 3])) ∧
    ¬ Execution.Always Step (Delivers ⟨7⟩ [1, 2, 3]) (.new 2)
      [.segment 0 5 (fullSegment ⟨7⟩ [1, 2, 3]) (genuine_fullSegment ⟨7⟩ [1, 2, 3]),
        .segment 0 5 (fullSegment ⟨7⟩ [1, 2, 3]) (genuine_fullSegment ⟨7⟩ [1, 2, 3])] := by
  constructor
  · refine ⟨⟨by decide, by decide⟩, ?_⟩
    rintro r hr
    rw [← Except.ok.inj hr]
    exact ⟨⟨by decide, by decide⟩, fun _ _ => trivial⟩
  · intro h
    have hlast := (h.2.2 _ rfl).2.2 _ rfl
    have hfull := hlast.ended (by decide)
    revert hfull
    decide

end Runs

end TCPReceiver

end Sponge
