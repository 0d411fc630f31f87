import Sponge.Codec.Reading
import Sponge.IPv4Datagram

/-!
# IPv4 Datagrams on the Wire

- `datagram_decode_encode`: decoding undoes encoding, and which datagrams are not encoded
- `datagram_accepts_iff`: which byte strings the decoder accepts although they are no datagrams.
  The header parser decides correctly (`IPv4Header.asks_parse`), but only through its result,
  which the datagram parser ignores.
-/

namespace Sponge

open NetParser (Asks Parses Reads fieldAt)

/-! ## §1 Headers -/

namespace IPv4Header

/-- Version and header length are read back from their byte. -/
theorem version_and_length {hlen : UInt8} (h : hlen ≤ 15) :
    ((4 : UInt8) <<< 4 ||| (hlen &&& 0xf)) >>> 4 = 4 ∧
      ((4 : UInt8) <<< 4 ||| (hlen &&& 0xf)) &&& 0x0f = hlen := by
  have hle : hlen.toNat ≤ 15 := by simpa [UInt8.le_iff_toNat_le] using h
  obtain ⟨n, hn, rfl⟩ : ∃ n < 16, hlen = UInt8.ofNat n :=
    ⟨hlen.toNat, by omega, UInt8.ofNat_toNat.symm⟩
  clear hle h
  revert n
  decide

/-- Flags and offset are read back from their word. -/
theorem flags_fragmentWord {h : IPv4Header} (hoffset : h.offset ≤ 0x1fff) :
    decide (h.fragmentWord &&& 0x4000 ≠ 0) = h.df ∧
      decide (h.fragmentWord &&& 0x2000 ≠ 0) = h.mf ∧
      h.fragmentWord &&& 0x1fff = h.offset := by
  have hle : h.offset.toNat ≤ 8191 := by simpa [UInt16.le_iff_toNat_le] using hoffset
  have hmask : h.offset.toNat &&& 8191 = h.offset.toNat := by
    rw [Nat.and_two_pow_sub_one_eq_mod _ 13]
    omega
  -- the offset does not reach the flags
  have hdf : h.offset.toNat &&& 16384 = 0 := by
    rw [← hmask, Nat.and_assoc]
    simp
  have hmf : h.offset.toNat &&& 8192 = 0 := by
    rw [← hmask, Nat.and_assoc]
    simp
  unfold fragmentWord
  generalize h.df = df, h.mf = mf
  cases df <;> cases mf <;>
    simp [← UInt16.toNat_inj, Nat.and_or_distrib_right, hmask, hdf, hmf]

theorem serializeFields_eq (h : IPv4Header) : h.serializeFields =
    BigEndian.bytes 1 (h.ver <<< 4 ||| (h.hlen &&& 0xf)).toNat ++ (BigEndian.bytes 1 h.tos.toNat ++
      (BigEndian.bytes 2 h.len.toNat ++ (BigEndian.bytes 2 h.id.toNat ++
      (BigEndian.bytes 2 h.fragmentWord.toNat ++ (BigEndian.bytes 1 h.ttl.toNat ++
      (BigEndian.bytes 1 h.proto.toNat ++ (BigEndian.bytes 2 h.cksum.toNat ++
      (BigEndian.bytes 4 h.src.toNat ++ (BigEndian.bytes 4 h.dst.toNat ++ []))))))))) := by
  simp [serializeFields, NetUnparser.u8, NetUnparser.u16, NetUnparser.u32,
    NetUnparser.unparseInt]

@[simp] theorem length_serializeFields (h : IPv4Header) : h.serializeFields.length = 20 := by
  simp [serializeFields_eq]

/-- The checksum stands in the header at byte 10. -/
theorem serializeFields_cksum (h : IPv4Header) : ∃ pre post : Bytes, pre.length % 2 = 0 ∧
    ∀ cksum, { h with cksum }.serializeFields =
      pre ++ (BigEndian.bytes 2 cksum.toNat ++ post) := by
  refine ⟨BigEndian.bytes 1 (h.ver <<< 4 ||| (h.hlen &&& 0xf)).toNat ++
      (BigEndian.bytes 1 h.tos.toNat ++ (BigEndian.bytes 2 h.len.toNat ++
      (BigEndian.bytes 2 h.id.toNat ++ (BigEndian.bytes 2 h.fragmentWord.toNat ++
      (BigEndian.bytes 1 h.ttl.toNat ++ BigEndian.bytes 1 h.proto.toNat))))),
    BigEndian.bytes 4 h.src.toNat ++ BigEndian.bytes 4 h.dst.toNat, ?_, ?_⟩
  · simp
  · intro cksum
    have hword : { h with cksum }.fragmentWord = h.fragmentWord := rfl
    simp [serializeFields_eq, hword]

theorem parses_fields {h : IPv4Header} (hver : h.ver = 4) (hhlen : h.hlen ≤ 15)
    (hoffset : h.offset ≤ 0x1fff) : Parses parseFields h.serializeFields h := by
  rw [serializeFields_eq, hver]
  unfold parseFields
  refine (NetParser.parses_u8 _).bind ?_
  refine (NetParser.parses_u8 _).bind ?_
  refine (NetParser.parses_u16 _).bind ?_
  refine (NetParser.parses_u16 _).bind ?_
  refine (NetParser.parses_u16 _).bind ?_
  refine (NetParser.parses_u8 _).bind ?_
  refine (NetParser.parses_u8 _).bind ?_
  refine (NetParser.parses_u16 _).bind ?_
  refine (NetParser.parses_u32 _).bind ?_
  refine (NetParser.parses_u32 _).bind ?_
  -- what has been read is the header again
  obtain ⟨hver', hhlen'⟩ := version_and_length hhlen
  obtain ⟨hdf, hmf, hoffset'⟩ := flags_fragmentWord hoffset
  rw [hver', hhlen', hdf, hmf, hoffset', ← hver]
  exact NetParser.Parses.pure h

/-- The header as `serialize` pads it. -/
def padded (h : IPv4Header) : Bytes :=
  h.serializeFields ++ List.replicate (4 * h.hlen.toNat - 20) 0

theorem serialize_eq {h : IPv4Header} (hver : h.ver = 4) (hhlen : 5 ≤ h.hlen) :
    h.serialize = .ok h.padded := by
  have hle : 5 ≤ h.hlen.toNat := by simpa [UInt8.le_iff_toNat_le] using hhlen
  have hlt : ¬ 4 * h.hlen.toNat < LENGTH := by
    rw [LENGTH]
    omega
  rw [serialize, if_neg (not_not.mpr hver), if_neg hlt, resize_of_le (by simp; omega),
    length_serializeFields, padded]

@[simp] theorem length_padded {h : IPv4Header} (hhlen : 5 ≤ h.hlen) :
    h.padded.length = 4 * h.hlen.toNat := by
  have hle : 5 ≤ h.hlen.toNat := by simpa [UInt8.le_iff_toNat_le] using hhlen
  simp only [padded, List.length_append, length_serializeFields, List.length_replicate]
  omega

end IPv4Header

/-! ## §2 Verdicts of the header parser -/

/-- The version of a datagram. -/
def version (b : Bytes) : ℕ :=
  fieldAt b 0 1 / 16

/-- The length of its header, in words. -/
def headerLength (b : Bytes) : ℕ :=
  fieldAt b 0 1 % 16

/-- The length that it claims for itself. -/
def totalLength (b : Bytes) : ℕ :=
  fieldAt b 2 2

/-- A byte string with the lengths and the version of a datagram. -/
structure WellShapedDatagram (b : Bytes) : Prop where
  /-- the fixed header is there -/
  header : 20 ≤ b.length
  version : version b = 4
  /-- the header is not shorter than the fixed one -/
  low : 5 ≤ headerLength b
  /-- the options are there -/
  options : 4 * headerLength b ≤ b.length
  /-- the whole datagram is there -/
  total : totalLength b = b.length

/-- A byte string that is a datagram. -/
structure ValidDatagram (b : Bytes) : Prop extends WellShapedDatagram b where
  /-- the Internet checksum over the header is zero -/
  verifies : InternetChecksum.Verifies 0 (b.take (4 * headerLength b))

instance (b : Bytes) : Decidable (WellShapedDatagram b) :=
  decidable_of_iff (20 ≤ b.length ∧ version b = 4 ∧ 5 ≤ headerLength b ∧
      4 * headerLength b ≤ b.length ∧ totalLength b = b.length)
    ⟨fun ⟨h₁, h₂, h₃, h₄, h₅⟩ => ⟨h₁, h₂, h₃, h₄, h₅⟩,
      fun h => ⟨h.header, h.version, h.low, h.options, h.total⟩⟩

namespace IPv4Header

/-- The fields that decide about a datagram. -/
structure ReadFrom (b : Bytes) (h : IPv4Header) : Prop where
  ver : h.ver.toNat = version b
  hlen : h.hlen.toNat = headerLength b
  len : h.len.toNat = totalLength b

theorem asks_parseFields (b : Bytes) : Asks b 0 20 parseFields (ReadFrom b) := by
  unfold parseFields
  refine NetParser.asks_u8.bind fun firstByte hfirst => ?_
  refine NetParser.asks_u8.bind fun tos _ => ?_
  refine NetParser.asks_u16.bind fun len hlen => ?_
  refine NetParser.asks_u16.bind fun id _ => ?_
  refine NetParser.asks_u16.bind fun foVal _ => ?_
  refine NetParser.asks_u8.bind fun ttl _ => ?_
  refine NetParser.asks_u8.bind fun proto _ => ?_
  refine NetParser.asks_u16.bind fun cksum _ => ?_
  refine NetParser.asks_u32.bind fun src _ => ?_
  refine NetParser.asks_u32.bind fun dst _ => ?_
  refine .pure fun hle => ?_
  have hbyte := hfirst (by omega)
  refine ⟨?_, ?_, hlen (by omega)⟩
  · show (firstByte >>> 4).toNat = _
    simp only [UInt8.toNat_shiftRight, Nat.shiftRight_eq_div_pow, UInt8.reduceToNat,
      Nat.reduceMod, Nat.reducePow, hbyte, version]
  · show (firstByte &&& 0x0f).toNat = _
    rw [UInt8.toNat_and, hbyte, headerLength]
    exact Nat.and_two_pow_sub_one_eq_mod _ 4

/-- The number of bytes that the header parser asks for. -/
def asked (b : Bytes) : ℕ :=
  if WellShapedDatagram b then 4 * headerLength b else 20

theorem asked_le {b : Bytes} (hlen : 20 ≤ b.length) : asked b ≤ b.length := by
  unfold asked
  split
  · rename_i hshape
    exact hshape.options
  · exact hlen

/-- The verdict is right, and the header is the one that was read. -/
def Verdict (b : Bytes) (r : ParseResult × IPv4Header) : Prop :=
  (r.1 = .NoError ↔ ValidDatagram b) ∧ r.2 = (parseFields { buffer := b }).1

/-- A verdict that is reached before the options are skipped. -/
private theorem asks_early {b : Bytes} {h : IPv4Header} {error : ParseResult}
    (herror : error ≠ .NoError) (hshape : ¬ WellShapedDatagram b)
    (hrun : h = (parseFields { buffer := b }).1) :
    Asks b 20 (asked b) (pure (error, h)) (Verdict b) := by
  rw [asked, if_neg hshape]
  exact .pure fun _ => ⟨iff_of_false herror fun h => hshape h.toWellShapedDatagram, hrun⟩

/-- A header has at most 60 bytes, so that its sum does not overflow. -/
private theorem headerSum_eq_zero_iff (b : Bytes) :
    ((InternetChecksum.new 0).add (b.take (4 * headerLength b))).value = 0 ↔
      InternetChecksum.Verifies 0 (b.take (4 * headerLength b)) := by
  apply InternetChecksum.value_add_eq_zero_iff
  have hsum := (OnesComplement.wordSum_le (b.take (4 * headerLength b))).1
  have htake := List.length_take_le (4 * headerLength b) b
  have hword : headerLength b < 16 := Nat.mod_lt _ (by decide)
  have hzero : (0 : UInt32).toNat = 0 := rfl
  omega

/-- **The header parser decides correctly**, whatever the header was before. -/
theorem asks_parse (old : IPv4Header) {b : Bytes} (hlen : 20 ≤ b.length) :
    Asks b 0 (asked b) old.parse (Verdict b) := by
  unfold parse
  refine NetParser.asks_get.bind fun p hp => ?_
  rw [hp (Nat.zero_le _), List.drop_zero, if_neg (by rw [LENGTH]; omega)]
  refine (asks_parseFields b).run.bind fun h hh => ?_
  obtain ⟨hfields, hrun⟩ := hh hlen
  have hfive : h.hlen < 5 ↔ headerLength b < 5 := by
    rw [← hfields.hlen]
    exact UInt8.lt_iff_toNat_lt
  have hfour : h.ver = 4 ↔ version b = 4 := by
    rw [← hfields.ver]
    exact UInt8.toNat_inj.symm
  rw [hfields.hlen, hfields.len]
  split
  · exact asks_early nofun (fun h => absurd h.options (by omega)) hrun
  split
  · rename_i hver
    exact asks_early nofun (fun h => hver (hfour.mpr h.version)) hrun
  split
  · rename_i hlow
    exact asks_early nofun (fun h => absurd h.low (by rw [hfive] at hlow; omega)) hrun
  split
  · rename_i htotal
    exact asks_early nofun (fun h => htotal h.total.symm) hrun
  -- the shape is right
  rename_i hoptions hver hlow htotal
  rw [hfive] at hlow
  have hshape : WellShapedDatagram b :=
    ⟨hlen, hfour.mp (not_not.mp hver), by omega, by omega, (not_not.mp htotal).symm⟩
  have hasked : asked b = 20 + (headerLength b * 4 - LENGTH) := by
    rw [asked, if_pos hshape, LENGTH]
    omega
  rw [hasked]
  refine (NetParser.asks_removePrefix _).bind fun _ _ => ?_
  refine NetParser.asks_getError.bind fun error herror => ?_
  rw [if_neg (not_not.mpr (herror (by rw [LENGTH]; omega)))]
  split
  · rename_i hvalue
    rw [ne_eq, headerSum_eq_zero_iff] at hvalue
    exact .pure fun _ => ⟨iff_of_false nofun fun h => hvalue h.verifies, hrun⟩
  · rename_i hvalue
    rw [not_not, headerSum_eq_zero_iff] at hvalue
    exact .pure fun _ => ⟨iff_of_true rfl ⟨hshape, hvalue⟩, hrun⟩

theorem parse_eq_noError_iff (old : IPv4Header) {b : Bytes} (hlen : 20 ≤ b.length) :
    (old.parse { buffer := b }).1.1 = .NoError ↔ ValidDatagram b :=
  ((old.asks_parse hlen _ (Reads.start b)).2 (asked_le hlen)).1

/-- The 16-bit difference. -/
theorem payloadLength_toNat (h : IPv4Header) :
    h.payloadLength.toNat = (h.len.toNat + 65536 - 4 * h.hlen.toNat) % 65536 := by
  have hhlen := h.hlen.toNat_lt
  have hlen := h.len.toNat_lt
  have hfour : (4 : UInt16).toNat = 4 := rfl
  simp only [payloadLength, UInt16.toNat_sub, UInt16.toNat_mul, UInt8.toNat_toUInt16, hfour]
  omega

end IPv4Header

/-! ## §3 Accepted byte strings -/

namespace IPv4Datagram

/-- The payload length that a byte string claims, as the 16-bit difference that is computed. -/
def claimedPayload (b : Bytes) : ℕ :=
  (totalLength b + 65536 - 4 * headerLength b) % 65536

/-- The byte strings that are accepted although the header parser has refused them. -/
def SlipsThrough (b : Bytes) : Prop :=
  (WellShapedDatagram b ∧ ¬ InternetChecksum.Verifies 0 (b.take (4 * headerLength b))) ∨
    (20 ≤ b.length ∧ ¬ WellShapedDatagram b ∧ b.length - 20 = claimedPayload b)

instance (b : Bytes) : Decidable (SlipsThrough b) :=
  inferInstanceAs (Decidable (_ ∨ _))

variable {b : Bytes}

/-- The result, in terms of what the header parser leaves. -/
theorem parse_eq (d : IPv4Datagram) (b : Bytes) :
    d.parse b =
      let run := d.header.parse { buffer := b }
      (if run.2.buffer.length ≠ run.1.2.payloadLength.toNat then .PacketTooShort
        else run.2.error, { header := run.1.2, payload := .ofBuffer run.2.buffer }) := by
  rw [IPv4Datagram.parse]
  generalize d.header.parse { buffer := b } = run
  obtain ⟨⟨verdict, header⟩, p⟩ := run
  have hsize : (BufferList.ofBuffer p.buffer).size = p.buffer.length := by
    simp [BufferList.ofBuffer, BufferList.size]
  simp only [hsize]
  split <;> rfl

/-- A fresh header claims a payload of 65516 bytes. -/
theorem parse_of_short (hlen : b.length < 20) :
    (IPv4Datagram.parse {} b).1 = .PacketTooShort := by
  have hrun : IPv4Header.parse {} { buffer := b } = ((.PacketTooShort, {}), { buffer := b }) := by
    rw [IPv4Header.parse]
    -- the state is read first, and the buffer is too short
    exact congrFun (if_pos hlen) _
  have hclaim : (IPv4Header.payloadLength {}).toNat = 65516 := by decide
  rw [parse_eq]
  simp only [hrun, hclaim]
  exact if_pos (by omega)

/-- What the header parser leaves of a byte string that is long enough. -/
theorem parse_of_long (d : IPv4Datagram) (hlen : 20 ≤ b.length) :
    d.parse b = (if b.length - IPv4Header.asked b ≠ claimedPayload b then .PacketTooShort
      else .NoError, { header := (IPv4Header.parseFields { buffer := b }).1,
                       payload := .ofBuffer (b.drop (IPv4Header.asked b)) }) := by
  have hasked := IPv4Header.asked_le hlen
  obtain ⟨hreads, hverdict⟩ := d.header.asks_parse hlen _ (Reads.start b)
  obtain ⟨-, hheader⟩ := hverdict hasked
  have hfields := (IPv4Header.asks_parseFields b _ (Reads.start b)).2 hlen
  have hclaim : (IPv4Header.parseFields { buffer := b }).1.payloadLength.toNat =
      claimedPayload b := by
    rw [IPv4Header.payloadLength_toNat, hfields.hlen, hfields.len, claimedPayload]
  rw [parse_eq]
  generalize d.header.parse { buffer := b } = run at hreads hheader ⊢
  simp only [hheader, hclaim, hreads.buffer_eq hasked, hreads.error_iff.mpr hasked,
    List.length_drop]

/-- A byte string of the right shape claims the payload that it has. -/
theorem claimedPayload_eq (h : WellShapedDatagram b) :
    b.length - 4 * headerLength b = claimedPayload b := by
  have hlt : totalLength b < 65536 := NetParser.fieldAt_lt b 2 2
  have htotal := h.total
  have hoptions := h.options
  rw [claimedPayload]
  omega

/-- What the parser accepts. -/
theorem parse_eq_noError_iff (b : Bytes) :
    (IPv4Datagram.parse {} b).1 = .NoError ↔ ValidDatagram b ∨ SlipsThrough b := by
  by_cases hlen : 20 ≤ b.length
  · have hparse := parse_of_long {} hlen
    by_cases hshape : WellShapedDatagram b
    · -- accepted in any case, by the lengths alone
      rw [hparse, IPv4Header.asked, if_pos hshape, if_neg (not_not.mpr (claimedPayload_eq hshape))]
      refine iff_of_true rfl ?_
      by_cases hverifies : InternetChecksum.Verifies 0 (b.take (4 * headerLength b))
      · exact .inl ⟨hshape, hverifies⟩
      · exact .inr (.inl ⟨hshape, hverifies⟩)
    · have hinvalid : ¬ ValidDatagram b := fun h => hshape h.toWellShapedDatagram
      rw [hparse, IPv4Header.asked, if_neg hshape, or_iff_right hinvalid, SlipsThrough,
        or_iff_right (fun h => hshape h.1)]
      by_cases hclaim : b.length - 20 = claimedPayload b
      · rw [if_neg (not_not.mpr hclaim)]
        exact iff_of_true rfl ⟨hlen, hshape, hclaim⟩
      · rw [if_pos hclaim]
        exact iff_of_false nofun fun h => hclaim h.2.2
  · rw [parse_of_short (by omega)]
    refine iff_of_false nofun ?_
    rintro (h | ⟨h, -⟩ | ⟨h, -⟩)
    · exact hlen h.header
    · exact hlen h.header
    · exact hlen h

/-- **What the parser accepts are the valid datagrams**, except for byte strings that the header
    parser refuses and that have the payload length their fields claim: these are accepted. -/
theorem datagram_accepts_iff (b : Bytes) :
    ((IPv4Datagram.parse {} b).1 = .NoError ↔ ValidDatagram b) ∧
      ((IPv4Datagram.parse {} b).1 = .NoError →
        (IPv4Datagram.parse {} b).2.payload.concatenate = b.drop (4 * headerLength b)) ↔
    ¬ SlipsThrough b := by
  have haccepts := parse_eq_noError_iff b
  constructor
  · rintro ⟨hiff, -⟩ hslips
    have hvalid := hiff.mp (haccepts.mpr (.inr hslips))
    rcases hslips with ⟨-, h⟩ | ⟨-, h, -⟩
    · exact h hvalid.verifies
    · exact h hvalid.toWellShapedDatagram
  · intro hgood
    rw [or_iff_left hgood] at haccepts
    refine ⟨haccepts, fun h => ?_⟩
    have hvalid := haccepts.mp h
    rw [parse_of_long {} hvalid.header, IPv4Header.asked,
      if_pos hvalid.toWellShapedDatagram, BufferList.concatenate_ofBuffer]

/-- A header without a checksum is accepted. -/
theorem datagram_accepts_bad_checksum :
    let b : Bytes := [0x45, 0, 0, 20] ++ List.replicate 16 0
    (IPv4Datagram.parse {} b).1 = .NoError ∧ ¬ ValidDatagram b :=
  ⟨by decide, fun h => absurd h.verifies (by decide)⟩

end IPv4Datagram

/-! ## §4 Round trip -/

namespace IPv4Header

/-- The checksum that `IPv4Datagram::serialize` fills in verifies. -/
theorem verifies_padded {h : IPv4Header} (hlow : 5 ≤ h.hlen) (hhigh : h.hlen ≤ 15) {cksum : UInt16}
    (hcksum : cksum = ((InternetChecksum.new 0).add { h with cksum := 0 }.padded).value) :
    InternetChecksum.Verifies 0 { h with cksum }.padded := by
  obtain ⟨pre, post, heven, hfields⟩ := h.serializeFields_cksum
  have hsplit : ∀ cksum : UInt16, { h with cksum }.padded =
      pre ++ (BigEndian.bytes 2 cksum.toNat ++
        (post ++ List.replicate (4 * h.hlen.toNat - 20) 0)) := by
    intro cksum
    rw [padded, hfields]
    simp only [List.append_assoc]
  have hle : h.hlen.toNat ≤ 15 := by simpa [UInt8.le_iff_toNat_le] using hhigh
  -- a header of 60 bytes does not let the sum overflow
  have hbound : ∀ cksum : UInt16,
      (0 : UInt32).toNat + OnesComplement.wordSum false { h with cksum }.padded + 65535 <
        2 ^ 32 := by
    intro cksum
    have hlen := length_padded (h := { h with cksum }) hlow
    have hsum := (OnesComplement.wordSum_le { h with cksum }.padded).1
    have hzero : (0 : UInt32).toNat = 0 := rfl
    rw [hlen] at hsum
    simp only at hsum
    omega
  rw [← InternetChecksum.value_add_eq_zero_iff (by have := hbound cksum; omega)]
  have hzero := hbound 0
  rw [hsplit] at hcksum hzero
  rw [hsplit, hcksum]
  exact InternetChecksum.value_filled heven hzero

end IPv4Header

namespace IPv4Datagram

/-- What `serialize` returns, for a datagram that it accepts. -/
theorem serialize_eq {h : IPv4Header} {payload : BufferList} (hver : h.ver = 4)
    (hhlen : 5 ≤ h.hlen) (hsize : payload.size = h.payloadLength.toNat) :
    ∃ cksum, IPv4Datagram.cksum ⟨h, payload⟩ = .ok cksum ∧
      cksum = ((InternetChecksum.new 0).add { h with cksum := 0 }.padded).value ∧
      IPv4Datagram.serialize ⟨h, payload⟩ =
        .ok ((BufferList.ofBuffer { h with cksum }.padded).append payload) := by
  have hheader : ∀ cksum, { h with cksum }.serialize = .ok { h with cksum }.padded :=
    fun cksum => IPv4Header.serialize_eq hver hhlen
  have hcksum : IPv4Datagram.cksum ⟨h, payload⟩ =
      .ok ((InternetChecksum.new 0).add { h with cksum := 0 }.padded).value := by
    simp only [IPv4Datagram.cksum, hheader, bind, Except.bind]
    rfl
  refine ⟨_, hcksum, rfl, ?_⟩
  rw [IPv4Datagram.serialize, if_neg (not_not.mpr hsize), hcksum]
  simp only [bind, Except.bind, hheader]
  rfl

/-- A serialized header in front of a payload is a valid datagram. -/
theorem validDatagram_padded {h : IPv4Header} (hver : h.ver = 4) (hlow : 5 ≤ h.hlen)
    (hhigh : h.hlen ≤ 15) (hoffset : h.offset ≤ 0x1fff) {payload : Bytes}
    (hlen : h.len.toNat = 4 * h.hlen.toNat + payload.length)
    (hverifies : InternetChecksum.Verifies 0 h.padded) :
    ValidDatagram (h.padded ++ payload) ∧ headerLength (h.padded ++ payload) = h.hlen.toNat ∧
      (IPv4Header.parseFields { buffer := h.padded ++ payload }).1 = h := by
  have hle : 5 ≤ h.hlen.toNat := by simpa [UInt8.le_iff_toNat_le] using hlow
  have hpadded := IPv4Header.length_padded hlow
  have hlength : (h.padded ++ payload).length = h.len.toNat := by
    rw [List.length_append, hpadded, hlen]
  -- the fields that are read are those of the header
  have hrun : (IPv4Header.parseFields { buffer := h.padded ++ payload }).1 = h := by
    rw [IPv4Header.padded, List.append_assoc, IPv4Header.parses_fields hver hhigh hoffset]
  have hfields := (IPv4Header.asks_parseFields (h.padded ++ payload) _ (Reads.start _)).2
    (by rw [hlength]; omega)
  rw [hrun] at hfields
  refine ⟨⟨⟨by omega, ?_, by rw [← hfields.hlen]; omega, by rw [← hfields.hlen]; omega, ?_⟩, ?_⟩,
    hfields.hlen.symm, hrun⟩
  · rw [← hfields.ver, hver]
    rfl
  · rw [← hfields.len, hlength]
  · rw [← hfields.hlen, List.take_left' hpadded]
    exact hverifies

/-- It is parsed back, and the header parser agrees. -/
theorem parse_padded {h : IPv4Header} (hver : h.ver = 4) (hlow : 5 ≤ h.hlen)
    (hhigh : h.hlen ≤ 15) (hoffset : h.offset ≤ 0x1fff) {payload : Bytes}
    (hlen : h.len.toNat = 4 * h.hlen.toNat + payload.length)
    (hverifies : InternetChecksum.Verifies 0 h.padded) :
    IPv4Datagram.parse {} (h.padded ++ payload) =
        (.NoError, { header := h, payload := .ofBuffer payload }) ∧
      (IPv4Header.parse {} { buffer := h.padded ++ payload }).1.1 = .NoError := by
  obtain ⟨hvalid, hheader, hrun⟩ :=
    validDatagram_padded hver hlow hhigh hoffset hlen hverifies
  refine ⟨?_, (IPv4Header.parse_eq_noError_iff {} hvalid.header).mpr hvalid⟩
  have hshape := hvalid.toWellShapedDatagram
  rw [parse_of_long {} hvalid.header, hrun, IPv4Header.asked, if_pos hshape,
    if_neg (not_not.mpr (claimedPayload_eq hshape)), hheader,
    List.drop_left' (IPv4Header.length_padded hlow)]

/-- The datagrams that are not encoded. -/
theorem serialize_error {d : IPv4Datagram} (hbad : d.payload.size ≠ d.header.payloadLength.toNat ∨
    d.header.ver ≠ 4 ∨ d.header.hlen < 5) : ∃ error, d.serialize = .error error := by
  by_cases hsize : d.payload.size = d.header.payloadLength.toNat
  · -- the header is not serialized
    obtain ⟨error, hheader⟩ : ∃ error, { d.header with cksum := 0 }.serialize = .error error := by
      unfold IPv4Header.serialize
      rcases hbad with h | hver | hlow
      · exact absurd hsize h
      · exact ⟨_, if_pos hver⟩
      · have hshort : 4 * d.header.hlen.toNat < IPv4Header.LENGTH := by
          have hlt : d.header.hlen.toNat < 5 := UInt8.lt_iff_toNat_lt.mp hlow
          rw [IPv4Header.LENGTH]
          omega
        simp only [if_pos hshort]
        split
        · exact ⟨_, rfl⟩
        · exact ⟨_, rfl⟩
    refine ⟨error, ?_⟩
    rw [IPv4Datagram.serialize, if_neg (not_not.mpr hsize), IPv4Datagram.cksum, hheader]
    rfl
  · exact ⟨_, by rw [IPv4Datagram.serialize, if_pos hsize]⟩

/-- What is encoded is parsed back. -/
theorem parse_serialize {h : IPv4Header} {p : BufferList} (hver : h.ver = 4)
    (hlow : 5 ≤ h.hlen) (hhigh : h.hlen ≤ 15) (hoffset : h.offset ≤ 0x1fff)
    (hlen : h.len.toNat = 4 * h.hlen.toNat + p.size) :
    ∃ out cksum, IPv4Datagram.serialize ⟨h, p⟩ = .ok out ∧
      IPv4Datagram.cksum ⟨h, p⟩ = .ok cksum ∧
      IPv4Datagram.parse {} out.concatenate =
        (.NoError, { header := { h with cksum }, payload := .ofBuffer p.concatenate }) ∧
      (IPv4Header.parse {} { buffer := out.concatenate }).1.1 = .NoError := by
  have hsize : p.size = h.payloadLength.toNat := by
    have := h.len.toNat_lt
    rw [IPv4Header.payloadLength_toNat]
    omega
  obtain ⟨cksum, hcksum, hvalue, hout⟩ := serialize_eq hver hlow hsize
  refine ⟨_, cksum, hout, hcksum, ?_⟩
  rw [BufferList.concatenate_append, BufferList.concatenate_ofBuffer]
  exact parse_padded (h := { h with cksum }) hver hlow hhigh hoffset
    (by rw [BufferList.length_concatenate]; exact hlen)
    (IPv4Header.verifies_padded hlow hhigh hvalue)

/-- **Decoding undoes encoding**, and a datagram with the wrong payload length, version or header
    length is not encoded. -/
theorem datagram_decode_encode (d : IPv4Datagram) :
    (d.header.ver = 4 → 5 ≤ d.header.hlen → d.header.hlen ≤ 15 → d.header.offset ≤ 0x1fff →
      d.header.len.toNat = 4 * d.header.hlen.toNat + d.payload.size →
      ∃ out cksum, d.serialize = .ok out ∧ d.cksum = .ok cksum ∧
        IPv4Datagram.parse {} out.concatenate = (.NoError,
          { header := { d.header with cksum }, payload := .ofBuffer d.payload.concatenate }) ∧
        (IPv4Header.parse {} { buffer := out.concatenate }).1.1 = .NoError) ∧
    (d.payload.size ≠ d.header.payloadLength.toNat ∨ d.header.ver ≠ 4 ∨ d.header.hlen < 5 →
      ∃ error, d.serialize = .error error) := by
  refine ⟨?_, serialize_error⟩
  intro hver hlow hhigh hoffset hlen
  obtain ⟨h, payload⟩ := d
  exact parse_serialize hver hlow hhigh hoffset hlen

/-- A datagram with options and a payload in two pieces, and one that claims no payload. -/
theorem datagram_decode_encode_options :
    (let d : IPv4Datagram := { header := { hlen := 6, len := 27, src := 0x0a000001 },
                               payload := ⟨[[1], [2, 3]]⟩ }
      ∃ out cksum, d.serialize = .ok out ∧ d.cksum = .ok cksum ∧
        IPv4Datagram.parse {} out.concatenate = (.NoError,
          { header := { d.header with cksum }, payload := .ofBuffer [1, 2, 3] }) ∧
        (IPv4Header.parse {} { buffer := out.concatenate }).1.1 = .NoError) ∧
    ∃ error, IPv4Datagram.serialize { header := { len := 20 }, payload := ⟨[[1]]⟩ } =
      .error error :=
  ⟨(datagram_decode_encode _).1 rfl (by decide) (by decide) (by decide) (by decide),
    (datagram_decode_encode _).2 (.inl (by decide))⟩

end IPv4Datagram

end Sponge
