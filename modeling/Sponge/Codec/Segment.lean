import Sponge.Codec.Reading
import Sponge.IPv4Datagram
import Sponge.SegmentCodec

/-!
# TCP Segments on the Wire

- `segment_decode_encode`: decoding undoes encoding
- `segment_accepts_iff`: which byte strings the decoder accepts although they are no segments.
  The header parser reports a data offset that is too small only through its result, which
  the segment parser ignores.
-/

namespace Sponge

open NetParser (Asks Parses Reads fieldAt)

/-! ## §1 Checksums from the layer below -/

/-- The sums that the datagram layer hands to the segment layer. -/
def DatagramCksum (c : UInt32) : Prop :=
  c = 0 ∨ ∃ h : IPv4Header, c = h.pseudoCksum

theorem IPv4Header.pseudoCksum_le (h : IPv4Header) : h.pseudoCksum.toNat ≤ 327930 := by
  -- no term is larger than its half of an address, its byte or its word
  have hhigh : ∀ a : UInt32, (a >>> 16).toNat ≤ 65535 := by
    intro a
    have ha := a.toNat_lt
    simp only [UInt32.toNat_shiftRight, Nat.shiftRight_eq_div_pow, UInt32.reduceToNat,
      Nat.reduceMod, Nat.reducePow]
    omega
  have hlow : ∀ a : UInt32, (a &&& 0xffff).toNat ≤ 65535 := by
    intro a
    rw [UInt32.toNat_and]
    exact Nat.and_le_right
  have hadd : ∀ a b : UInt32, (a + b).toNat ≤ a.toNat + b.toNat := by
    intro a b
    rw [UInt32.toNat_add]
    exact Nat.mod_le _ _
  have hproto : h.proto.toUInt32.toNat ≤ 255 := by
    have := h.proto.toNat_lt
    simp only [UInt8.toNat_toUInt32]
    omega
  have hlen : h.payloadLength.toUInt32.toNat ≤ 65535 := by
    have := h.payloadLength.toNat_lt
    simp only [UInt16.toNat_toUInt32]
    omega
  -- the two halves of an address
  have haddr : ∀ a : UInt32, ((a >>> 16) + (a &&& 0xffff)).toNat ≤ 131070 := by
    intro a
    have hsum := hadd (a >>> 16) (a &&& 0xffff)
    have := hhigh a
    have := hlow a
    omega
  have hsrc := haddr h.src
  have hdst := haddr h.dst
  unfold pseudoCksum
  dsimp only
  generalize h.src >>> 16 + (h.src &&& (0xffff : UInt32)) = src at hsrc ⊢
  generalize h.dst >>> 16 + (h.dst &&& (0xffff : UInt32)) = dst at hdst ⊢
  have h₁ := hadd src dst
  have h₂ := hadd (src + dst) h.proto.toUInt32
  have h₃ := hadd (src + dst + h.proto.toUInt32) h.payloadLength.toUInt32
  omega

theorem DatagramCksum.toNat_le {c : UInt32} (h : DatagramCksum c) : c.toNat ≤ 327930 := by
  rcases h with rfl | ⟨h, rfl⟩
  · decide
  · exact h.pseudoCksum_le

/-- The sum over a segment of at most 65535 bytes does not overflow. -/
theorem DatagramCksum.sum_lt {c : UInt32} (h : DatagramCksum c) {b : Bytes}
    (hb : b.length ≤ 65535) : c.toNat + OnesComplement.wordSum false b + 65535 < 2 ^ 32 := by
  have hc := h.toNat_le
  have hsum := (OnesComplement.wordSum_le b).1
  omega

/-! ## §2 Headers -/

namespace TCPHeader

theorem serializeFields_eq (h : TCPHeader) : h.serializeFields =
    BigEndian.bytes 2 h.sport.toNat ++ (BigEndian.bytes 2 h.dport.toNat ++
      (BigEndian.bytes 4 h.seqno.rawValue.toNat ++ (BigEndian.bytes 4 h.ackno.rawValue.toNat ++
      (BigEndian.bytes 1 (h.doff <<< 4).toNat ++ (BigEndian.bytes 1 h.flagByte.toNat ++
      (BigEndian.bytes 2 h.win.toNat ++ (BigEndian.bytes 2 h.cksum.toNat ++
      (BigEndian.bytes 2 h.uptr.toNat ++ [])))))))) := by
  simp [serializeFields, NetUnparser.u8, NetUnparser.u16, NetUnparser.u32,
    NetUnparser.unparseInt]

@[simp] theorem length_serializeFields (h : TCPHeader) : h.serializeFields.length = 20 := by
  simp [serializeFields_eq]

/-- The checksum stands in the header at byte 16. -/
theorem serializeFields_cksum (h : TCPHeader) : ∃ pre post : Bytes, pre.length % 2 = 0 ∧
    ∀ cksum, { h with cksum }.serializeFields =
      pre ++ (BigEndian.bytes 2 cksum.toNat ++ post) := by
  refine ⟨BigEndian.bytes 2 h.sport.toNat ++ (BigEndian.bytes 2 h.dport.toNat ++
      (BigEndian.bytes 4 h.seqno.rawValue.toNat ++ (BigEndian.bytes 4 h.ackno.rawValue.toNat ++
      (BigEndian.bytes 1 (h.doff <<< 4).toNat ++ (BigEndian.bytes 1 h.flagByte.toNat ++
      BigEndian.bytes 2 h.win.toNat))))), BigEndian.bytes 2 h.uptr.toNat, ?_, ?_⟩
  · simp
  · intro cksum
    have hflags : { h with cksum }.flagByte = h.flagByte := rfl
    simp [serializeFields_eq, hflags]

/-- The four bits of the data offset. -/
theorem doff_shift {doff : UInt8} (h : doff ≤ 15) : doff <<< 4 >>> 4 = doff := by
  have hle : doff.toNat ≤ 15 := by simpa [UInt8.le_iff_toNat_le] using h
  apply UInt8.toNat_inj.mp
  simp only [UInt8.toNat_shiftRight, UInt8.toNat_shiftLeft, Nat.shiftRight_eq_div_pow,
    Nat.shiftLeft_eq, UInt8.reduceToNat, Nat.reduceMod, Nat.reducePow]
  omega

/-- The flags are read back from their byte. -/
theorem flags_flagByte (h : TCPHeader) :
    decide (h.flagByte &&& 0b00100000 ≠ 0) = h.urg ∧
    decide (h.flagByte &&& 0b00010000 ≠ 0) = h.ack ∧
    decide (h.flagByte &&& 0b00001000 ≠ 0) = h.psh ∧
    decide (h.flagByte &&& 0b00000100 ≠ 0) = h.rst ∧
    decide (h.flagByte &&& 0b00000010 ≠ 0) = h.syn ∧
    decide (h.flagByte &&& 0b00000001 ≠ 0) = h.fin := by
  unfold flagByte
  generalize h.urg = urg, h.ack = ack, h.psh = psh, h.rst = rst, h.syn = syn, h.fin = fin
  revert urg ack psh rst syn fin
  decide

theorem parses_fields {h : TCPHeader} (hdoff : h.doff ≤ 15) :
    Parses parseFields h.serializeFields h := by
  rw [serializeFields_eq]
  unfold parseFields
  refine (NetParser.parses_u16 _).bind ?_
  refine (NetParser.parses_u16 _).bind ?_
  refine (NetParser.parses_u32 _).bind ?_
  refine (NetParser.parses_u32 _).bind ?_
  refine (NetParser.parses_u8 _).bind ?_
  refine (NetParser.parses_u8 _).bind ?_
  refine (NetParser.parses_u16 _).bind ?_
  refine (NetParser.parses_u16 _).bind ?_
  refine (NetParser.parses_u16 _).bind ?_
  -- what has been read is the header again
  obtain ⟨hurg, hack, hpsh, hrst, hsyn, hfin⟩ := flags_flagByte h
  rw [doff_shift hdoff, hurg, hack, hpsh, hrst, hsyn, hfin]
  exact NetParser.Parses.pure h

/-- The header as `serialize` pads it. -/
def padded (h : TCPHeader) : Bytes :=
  h.serializeFields ++ List.replicate (4 * h.doff.toNat - 20) 0

theorem serialize_eq {h : TCPHeader} (hdoff : 5 ≤ h.doff) : h.serialize = .ok h.padded := by
  have hle : 5 ≤ h.doff.toNat := by simpa [UInt8.le_iff_toNat_le] using hdoff
  have hlt : ¬ h.doff < 5 := by
    simp only [UInt8.lt_iff_toNat_lt, UInt8.reduceToNat]
    omega
  rw [serialize, if_neg hlt, resize_of_le (by simp; omega), length_serializeFields, padded]

@[simp] theorem length_padded {h : TCPHeader} (hdoff : 5 ≤ h.doff) :
    h.padded.length = 4 * h.doff.toNat := by
  have hle : 5 ≤ h.doff.toNat := by simpa [UInt8.le_iff_toNat_le] using hdoff
  simp only [padded, List.length_append, length_serializeFields, List.length_replicate]
  omega

/-- **Headers are parsed back.** -/
theorem parses_header {h : TCPHeader} (hlow : 5 ≤ h.doff) (hhigh : h.doff ≤ 15) :
    Parses parse h.padded (.NoError, h) := by
  have hle : 5 ≤ h.doff.toNat := by simpa [UInt8.le_iff_toNat_le] using hlow
  have hlt : ¬ h.doff < 5 := by
    simp only [UInt8.lt_iff_toNat_lt, UInt8.reduceToNat]
    omega
  unfold parse padded
  refine (parses_fields hhigh).bind ?_
  rw [if_neg hlt]
  -- the padding is skipped as options
  have hlen : (List.replicate (4 * h.doff.toNat - 20) (0 : Byte)).length =
      h.doff.toNat * 4 - LENGTH := by
    rw [List.length_replicate, Nat.mul_comm, LENGTH]
  exact (NetParser.parses_removePrefix hlen).bind_nil
    (NetParser.parses_getError.bind_nil (NetParser.Parses.pure _))

end TCPHeader

/-! ## §3 Segments -/

namespace TCPSegment

/-- What `serialize` returns, for a data offset that it accepts. -/
theorem serialize_eq {h : TCPHeader} (payload : Bytes) (hdoff : 5 ≤ h.doff) (c : UInt32) :
    ∃ cksum, TCPSegment.cksum ⟨h, payload⟩ c = .ok cksum ∧
      cksum = ((InternetChecksum.new c).add ({ h with cksum := 0 }.padded ++ payload)).value ∧
      TCPSegment.serialize ⟨h, payload⟩ c = .ok ⟨[{ h with cksum }.padded, payload]⟩ := by
  have hheader : ∀ cksum, { h with cksum }.serialize = .ok { h with cksum }.padded :=
    fun cksum => TCPHeader.serialize_eq hdoff
  have hcksum : TCPSegment.cksum ⟨h, payload⟩ c =
      .ok ((InternetChecksum.new c).add ({ h with cksum := 0 }.padded ++ payload)).value := by
    simp only [TCPSegment.cksum, hheader, bind, Except.bind, ← InternetChecksum.add_add]
    rfl
  refine ⟨_, hcksum, rfl, ?_⟩
  rw [TCPSegment.serialize, hcksum]
  simp only [bind, Except.bind, hheader]
  rfl

/-- The checksum that `serialize` fills in verifies. -/
theorem value_serialized {h : TCPHeader} {payload : Bytes} {c : UInt32} (hc : DatagramCksum c)
    (hdoff : 5 ≤ h.doff) (hlen : 4 * h.doff.toNat + payload.length ≤ 65535) {cksum : UInt16}
    (hcksum : cksum =
      ((InternetChecksum.new c).add ({ h with cksum := 0 }.padded ++ payload)).value) :
    ((InternetChecksum.new c).add ({ h with cksum }.padded ++ payload)).value = 0 := by
  obtain ⟨pre, post, heven, hfields⟩ := h.serializeFields_cksum
  -- the whole segment, around the place of the checksum
  have hsplit : ∀ cksum : UInt16, { h with cksum }.padded ++ payload =
      pre ++ (BigEndian.bytes 2 cksum.toNat ++
        (post ++ List.replicate (4 * h.doff.toNat - 20) 0 ++ payload)) := by
    intro cksum
    rw [TCPHeader.padded, hfields]
    simp only [List.append_assoc]
  have hbound := hc.sum_lt (b := { h with cksum := 0 }.padded ++ payload) (by
    rw [List.length_append, TCPHeader.length_padded (h := { h with cksum := 0 }) hdoff]
    exact hlen)
  rw [hsplit] at hcksum hbound
  rw [hsplit, hcksum]
  exact InternetChecksum.value_filled heven hbound

/-- A serialized segment is parsed back. -/
theorem parse_padded {h : TCPHeader} {payload : Bytes} {c : UInt32} (hlow : 5 ≤ h.doff)
    (hhigh : h.doff ≤ 15)
    (hvalue : ((InternetChecksum.new c).add (h.padded ++ payload)).value = 0) (old : TCPSegment) :
    old.parse (h.padded ++ payload) c = (.NoError, ⟨h, payload⟩) := by
  rw [TCPSegment.parse, if_neg (not_not.mpr hvalue), TCPHeader.parses_header hlow hhigh payload]

/-- **Decoding undoes encoding.** -/
theorem segment_decode_encode (seg old : TCPSegment) (c : UInt32) (hlow : 5 ≤ seg.header.doff)
    (hhigh : seg.header.doff ≤ 15)
    (hlen : 4 * seg.header.doff.toNat + seg.payload.length ≤ 65535) (hc : DatagramCksum c) :
    ∃ out cksum, seg.serialize c = .ok out ∧ seg.cksum c = .ok cksum ∧
      old.parse out.concatenate c =
        (.NoError, { seg with header := { seg.header with cksum } }) := by
  obtain ⟨h, payload⟩ := seg
  obtain ⟨cksum, hcksum, hvalue, hout⟩ := serialize_eq payload hlow c
  refine ⟨_, cksum, hout, hcksum, ?_⟩
  have hbytes : BufferList.concatenate ⟨[{ h with cksum }.padded, payload]⟩ =
      { h with cksum }.padded ++ payload := by
    simp [BufferList.concatenate]
  rw [hbytes]
  exact parse_padded (h := { h with cksum }) hlow hhigh (value_serialized hc hlow hlen hvalue) old

/-- A SYN with an odd payload and the checksum of a datagram. -/
theorem segment_decode_encode_syn :
    let seg : TCPSegment :=
      { header := { seqno := ⟨7⟩, syn := true, doff := 6 }, payload := [1, 2, 3] }
    let c := IPv4Header.pseudoCksum { len := 47, src := 0x0a000001, dst := 0x0a000002 }
    ∃ out cksum, seg.serialize c = .ok out ∧ seg.cksum c = .ok cksum ∧
      TCPSegment.parse {} out.concatenate c =
        (.NoError, { seg with header := { seg.header with cksum } }) :=
  segment_decode_encode _ _ _ (by decide) (by decide) (by decide) (.inr ⟨_, rfl⟩)

end TCPSegment

/-! ## §4 Accepted byte strings -/

/-- The data offset of a segment: the high half of byte 12. -/
def dataOffset (b : Bytes) : ℕ :=
  fieldAt b 12 1 / 16

/-- A byte string that is a segment. -/
structure WellFormedSegment (b : Bytes) (c : UInt32) : Prop where
  /-- the Internet checksum with initial sum `c` is zero -/
  verifies : InternetChecksum.Verifies c b
  /-- the fixed header is there -/
  header : 20 ≤ b.length
  /-- the header is not shorter than the fixed one -/
  offset : 5 ≤ dataOffset b
  /-- the options are there -/
  options : 4 * dataOffset b ≤ b.length

namespace TCPHeader

/-- What the header parser asks for, and where it finds the data offset. -/
theorem asks_parseFields (b : Bytes) :
    Asks b 0 20 parseFields (fun h => h.doff.toNat = dataOffset b) := by
  unfold parseFields
  refine NetParser.asks_u16.bind fun sport _ => ?_
  refine NetParser.asks_u16.bind fun dport _ => ?_
  refine NetParser.asks_u32.bind fun seqno _ => ?_
  refine NetParser.asks_u32.bind fun ackno _ => ?_
  refine NetParser.asks_u8.bind fun doff hdoff => ?_
  refine NetParser.asks_u8.bind fun flB _ => ?_
  refine NetParser.asks_u16.bind fun win _ => ?_
  refine NetParser.asks_u16.bind fun cksum _ => ?_
  refine NetParser.asks_u16.bind fun uptr _ => ?_
  refine .pure fun hlen => ?_
  show (doff >>> 4).toNat = _
  simp only [UInt8.toNat_shiftRight, Nat.shiftRight_eq_div_pow, UInt8.reduceToNat,
    Nat.reduceMod, Nat.reducePow, hdoff (by omega), dataOffset]

/-- The header parser asks for the bytes up to the data offset, and at least for the fixed
    header. -/
theorem asks_parse (b : Bytes) :
    Asks b 0 (max 20 (4 * dataOffset b)) parse (fun _ => True) := by
  unfold parse
  refine (asks_parseFields b).bind fun h hdoff => ?_
  have hskip : Asks b 20 (20 + (h.doff.toNat * 4 - LENGTH))
      (do NetParser.removePrefix (h.doff.toNat * 4 - LENGTH); return (← NetParser.getError, h))
      (fun _ => True) := by
    refine (NetParser.asks_removePrefix _).bind fun _ _ => ?_
    exact NetParser.asks_getError.bind fun _ _ => .pure fun _ => trivial
  by_cases hlen : 20 ≤ b.length
  · specialize hdoff hlen
    split
    · -- the options are not looked at
      rename_i hlow
      rw [UInt8.lt_iff_toNat_lt, show (5 : UInt8).toNat = 5 from rfl] at hlow
      rw [max_eq_left (by omega)]
      exact .pure fun _ => trivial
    · rename_i hhigh
      rw [UInt8.lt_iff_toNat_lt, show (5 : UInt8).toNat = 5 from rfl] at hhigh
      rw [show max 20 (4 * dataOffset b) = 20 + (h.doff.toNat * 4 - LENGTH) by
        rw [LENGTH]; omega]
      exact hskip
  · -- the data offset that was read means nothing, but the parser is in its error state
    have hshort : b.length < 20 := by omega
    split
    · exact Asks.of_short (Q := fun _ => True) (.pure fun _ => trivial) hshort (by omega)
    · exact hskip.of_short (by omega) (by omega)

end TCPHeader

namespace TCPSegment

variable {b : Bytes} {c : UInt32}

theorem parse_of_value_eq_zero (old : TCPSegment)
    (h : ((InternetChecksum.new c).add b).value = 0) :
    old.parse b c = ((TCPHeader.parse { buffer := b }).2.error,
      { header := (TCPHeader.parse { buffer := b }).1.2
        payload := (TCPHeader.parse { buffer := b }).2.buffer }) := by
  rw [parse, if_neg (not_not.mpr h)]
  generalize TCPHeader.parse { buffer := b } = run
  rfl

/-- What the parser accepts. -/
theorem parse_eq_noError_iff (hb : b.length ≤ 65535) (hc : DatagramCksum c) (old : TCPSegment) :
    (old.parse b c).1 = .NoError ↔
      InternetChecksum.Verifies c b ∧ 20 ≤ b.length ∧ 4 * dataOffset b ≤ b.length := by
  have hsum := hc.sum_lt hb
  have hverifies : ((InternetChecksum.new c).add b).value = 0 ↔ InternetChecksum.Verifies c b :=
    InternetChecksum.value_add_eq_zero_iff (by omega)
  obtain ⟨hreads, -⟩ := TCPHeader.asks_parse b _ (Reads.start b)
  by_cases hvalue : ((InternetChecksum.new c).add b).value = 0
  · rw [parse_of_value_eq_zero old hvalue, and_iff_right (hverifies.mp hvalue), ← max_le_iff]
    generalize TCPHeader.parse { buffer := b } = run at hreads ⊢
    exact hreads.error_iff
  · rw [parse, if_pos hvalue]
    exact iff_of_false ParseResult.noConfusion fun h => hvalue (hverifies.mpr h.1)

/-- The payload of an accepted byte string. -/
theorem payload_of_parse {old : TCPSegment} (h : (old.parse b c).1 = .NoError) :
    (old.parse b c).2.payload = b.drop (max 20 (4 * dataOffset b)) := by
  obtain ⟨hreads, -⟩ := TCPHeader.asks_parse b _ (Reads.start b)
  by_cases hvalue : ((InternetChecksum.new c).add b).value = 0
  · rw [parse_of_value_eq_zero old hvalue] at h ⊢
    generalize TCPHeader.parse { buffer := b } = run at h hreads ⊢
    exact hreads.buffer_eq (hreads.error_iff.mp h)
  · rw [parse, if_pos hvalue] at h
    cases h

/-- **What the parser accepts are the well-formed segments**, except for byte strings with a
    valid checksum whose data offset is smaller than the fixed header: these are accepted, with
    a payload that starts after the fixed header. -/
theorem segment_accepts_iff (old : TCPSegment) (b : Bytes) (c : UInt32) (hb : b.length ≤ 65535)
    (hc : DatagramCksum c) :
    ((old.parse b c).1 = .NoError ↔ WellFormedSegment b c) ∧
      ((old.parse b c).1 = .NoError →
        (old.parse b c).2.payload = b.drop (4 * dataOffset b)) ↔
    ¬ (InternetChecksum.Verifies c b ∧ 20 ≤ b.length ∧ dataOffset b < 5) := by
  have haccepts := parse_eq_noError_iff hb hc old
  constructor
  · rintro ⟨hiff, -⟩ ⟨hverifies, hlen, hlow⟩
    -- such a byte string is accepted, and it is not well formed
    have haccept := haccepts.mpr ⟨hverifies, hlen, by omega⟩
    have := (hiff.mp haccept).offset
    omega
  · intro hgood
    have hoffset : (old.parse b c).1 = .NoError → 5 ≤ dataOffset b := by
      intro h
      obtain ⟨hverifies, hlen, -⟩ := haccepts.mp h
      by_contra hlow
      exact hgood ⟨hverifies, hlen, by omega⟩
    refine ⟨⟨fun h => ?_, fun h => haccepts.mpr ⟨h.verifies, h.header, h.options⟩⟩, fun h => ?_⟩
    · obtain ⟨hverifies, hlen, hoptions⟩ := haccepts.mp h
      exact ⟨hverifies, hlen, hoffset h, hoptions⟩
    · have := hoffset h
      rw [payload_of_parse h, max_eq_right (by omega)]

/-- A header of zeros with the checksum 65535 is accepted, although its data offset is 0. -/
theorem segment_accepts_short_offset :
    let b : Bytes := List.replicate 16 0 ++ [0xff, 0xff, 0, 0]
    b.length ≤ 65535 ∧ DatagramCksum 0 ∧ (TCPSegment.parse {} b 0).1 = .NoError ∧
      ¬ WellFormedSegment b 0 :=
  ⟨by decide, .inl rfl, by decide, fun h => absurd h.offset (by decide)⟩

/-- The same header with a data offset of 5 and its checksum. -/
theorem segment_accepts_iff_minimal :
    let b : Bytes := List.replicate 12 0 ++ [0x50, 0, 0, 0, 0xaf, 0xff, 0, 0]
    ((TCPSegment.parse {} b 0).1 = .NoError ↔ WellFormedSegment b 0) ∧
      ((TCPSegment.parse {} b 0).1 = .NoError →
        (TCPSegment.parse {} b 0).2.payload = b.drop (4 * dataOffset b)) :=
  (segment_accepts_iff {} _ 0 (by decide) (.inl rfl)).mpr (by decide)

end TCPSegment

end Sponge
