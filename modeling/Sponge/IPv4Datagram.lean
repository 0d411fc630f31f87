import Sponge.InternetChecksum
import Sponge.Parser

/-!
# Encoding and Decoding IPv4 Datagrams

Model of `tcp_helpers/ipv4_header.hh`, `ipv4_header.cc`, `ipv4_datagram.hh` and
`ipv4_datagram.cc`.

A method that fills in the object it is called on takes the old object and returns the new one
beside its result: `IPv4Header::parse` leaves early, and then the fields it has not reached
keep their values.
-/

namespace Sponge

/-! ## §1 Headers -/

/-- The IPv4 header, with the source's default values. -/
structure IPv4Header where
  /-- IP version -/
  ver : UInt8 := 4
  /-- header length in multiples of 32 bits: `LENGTH / 4` -/
  hlen : UInt8 := 5
  /-- type of service -/
  tos : UInt8 := 0
  /-- total length of the packet -/
  len : UInt16 := 0
  /-- identification number -/
  id : UInt16 := 0
  /-- don't fragment -/
  df : Bool := true
  /-- more fragments -/
  mf : Bool := false
  /-- fragment offset -/
  offset : UInt16 := 0
  /-- time to live: `DEFAULT_TTL` -/
  ttl : UInt8 := 128
  /-- protocol: `PROTO_TCP` -/
  proto : UInt8 := 6
  /-- checksum -/
  cksum : UInt16 := 0
  /-- source address -/
  src : UInt32 := 0
  /-- destination address -/
  dst : UInt32 := 0
  deriving DecidableEq, Repr

namespace IPv4Header

/-- `LENGTH`: the length of a header without options. -/
def LENGTH : ℕ := 20

/-- `PROTO_TCP` -/
def PROTO_TCP : UInt8 := 6

/-- `payload_length()`, a 16-bit difference. -/
def payloadLength (h : IPv4Header) : UInt16 :=
  h.len - 4 * h.hlen.toUInt16

/-- `pseudo_cksum()`: the contribution of the pseudo-header to the TCP checksum. -/
def pseudoCksum (h : IPv4Header) : UInt32 :=
  let pcksum := (h.src >>> 16) + (h.src &&& 0xffff)
  let pcksum := pcksum + ((h.dst >>> 16) + (h.dst &&& 0xffff))
  let pcksum := pcksum + h.proto.toUInt32
  pcksum + h.payloadLength.toUInt32

/-- The fields that `parse` reads, in the order in which it reads them. -/
def parseFields : StateM NetParser IPv4Header := do
  let firstByte ← NetParser.u8
  let tos ← NetParser.u8
  let len ← NetParser.u16
  let id ← NetParser.u16
  let foVal ← NetParser.u16
  let ttl ← NetParser.u8
  let proto ← NetParser.u8
  let cksum ← NetParser.u16
  let src ← NetParser.u32
  let dst ← NetParser.u32
  return {
    ver := firstByte >>> 4
    hlen := firstByte &&& 0x0f
    tos, len, id
    df := foVal &&& 0x4000 ≠ 0
    mf := foVal &&& 0x2000 ≠ 0
    offset := foVal &&& 0x1fff
    ttl, proto, cksum, src, dst }

/-- `parse(p)` -/
def parse (old : IPv4Header) : StateM NetParser (ParseResult × IPv4Header) := do
  let original := (← get).buffer
  let dataSize := original.length
  if dataSize < LENGTH then
    return (.PacketTooShort, old)
  let h ← parseFields
  -- none of these verdicts reaches the parser
  if dataSize < 4 * h.hlen.toNat then
    return (.PacketTooShort, h)
  if h.ver ≠ 4 then
    return (.WrongIPVersion, h)
  if h.hlen < 5 then
    return (.HeaderTooShort, h)
  if dataSize ≠ h.len.toNat then
    return (.TruncatedPacket, h)
  -- skip any options
  NetParser.removePrefix (h.hlen.toNat * 4 - LENGTH)
  let error ← NetParser.getError
  if error ≠ .NoError then
    return (error, h)
  if ((InternetChecksum.new 0).add (original.take (4 * h.hlen.toNat))).value ≠ 0 then
    return (.BadChecksum, h)
  return (.NoError, h)

/-- The word with the two flags and the fragment offset. -/
def fragmentWord (h : IPv4Header) : UInt16 :=
  (if h.df then 0x4000 else 0) ||| (if h.mf then 0x2000 else 0) ||| (h.offset &&& 0x1fff)

/-- The fields that `serialize` writes. -/
def serializeFields (h : IPv4Header) : Bytes :=
  let ret := NetUnparser.u8 [] ((h.ver <<< 4) ||| (h.hlen &&& 0xf))
  let ret := NetUnparser.u8 ret h.tos
  let ret := NetUnparser.u16 ret h.len
  let ret := NetUnparser.u16 ret h.id
  let ret := NetUnparser.u16 ret h.fragmentWord
  let ret := NetUnparser.u8 ret h.ttl
  let ret := NetUnparser.u8 ret h.proto
  let ret := NetUnparser.u16 ret h.cksum
  let ret := NetUnparser.u32 ret h.src
  NetUnparser.u32 ret h.dst

/-- `serialize()` -/
def serialize (h : IPv4Header) : Except RuntimeError Bytes :=
  if h.ver ≠ 4 then .error ⟨"wrong IP version"⟩
  else if 4 * h.hlen.toNat < LENGTH then .error ⟨"IP header too short"⟩
  -- expand the header to its advertised size
  else .ok (resize h.serializeFields (4 * h.hlen.toNat))

end IPv4Header

/-! ## §2 Datagrams -/

/-- `IPv4Datagram` -/
structure IPv4Datagram where
  header : IPv4Header := {}
  payload : BufferList := ⟨[]⟩
  deriving DecidableEq, Repr

namespace IPv4Datagram

/-- `parse(buffer)` -/
def parse (d : IPv4Datagram) (buffer : Bytes) : ParseResult × IPv4Datagram :=
  -- the verdict of the header is ignored
  let ((_, header), p) := d.header.parse { buffer }
  let payload := BufferList.ofBuffer p.buffer
  if payload.size ≠ header.payloadLength.toNat then
    (.PacketTooShort, { header, payload })
  else
    (p.error, { header, payload })

/-- The checksum that `serialize` fills in, taken over the header only. -/
def cksum (d : IPv4Datagram) : Except RuntimeError UInt16 := do
  let header ← { d.header with cksum := 0 }.serialize
  return ((InternetChecksum.new 0).add header).value

/-- `serialize()` -/
def serialize (d : IPv4Datagram) : Except RuntimeError BufferList :=
  if d.payload.size ≠ d.header.payloadLength.toNat then
    .error ⟨"IPv4Datagram::serialize: payload is wrong size"⟩
  else do
    let cksum ← d.cksum
    let header ← { d.header with cksum }.serialize
    return (BufferList.ofBuffer header).append d.payload

end IPv4Datagram

end Sponge
