import Sponge.InternetChecksum
import Sponge.Parser
import Sponge.TCPSegment

/-!
# Encoding and Decoding TCP Segments

Model of the parts of `tcp_helpers/tcp_header.cc` and `tcp_helpers/tcp_segment.cc` that turn a
segment into bytes and back.

A method that fills in the object it is called on returns the new object beside its result.
-/

namespace Sponge

/-! ## §1 Headers -/

namespace TCPHeader

/-- `LENGTH`: the length of a header without options. -/
def LENGTH : ℕ := 20

/-- The byte with the six flags. -/
def flagByte (h : TCPHeader) : UInt8 :=
  (if h.urg then 0b00100000 else 0) ||| (if h.ack then 0b00010000 else 0) |||
    (if h.psh then 0b00001000 else 0) ||| (if h.rst then 0b00000100 else 0) |||
    (if h.syn then 0b00000010 else 0) ||| (if h.fin then 0b00000001 else 0)

/-- The fields that `parse` reads, in the order in which it reads them. -/
def parseFields : StateM NetParser TCPHeader := do
  let sport ← NetParser.u16
  let dport ← NetParser.u16
  let seqno ← NetParser.u32
  let ackno ← NetParser.u32
  let doff ← NetParser.u8
  let flB ← NetParser.u8
  let win ← NetParser.u16
  let cksum ← NetParser.u16
  let uptr ← NetParser.u16
  return {
    sport, dport
    seqno := ⟨seqno⟩
    ackno := ⟨ackno⟩
    doff := doff >>> 4
    urg := flB &&& 0b00100000 ≠ 0
    ack := flB &&& 0b00010000 ≠ 0
    psh := flB &&& 0b00001000 ≠ 0
    rst := flB &&& 0b00000100 ≠ 0
    syn := flB &&& 0b00000010 ≠ 0
    fin := flB &&& 0b00000001 ≠ 0
    win, cksum, uptr }

/-- `parse(p)` -/
def parse : StateM NetParser (ParseResult × TCPHeader) := do
  let h ← parseFields
  -- this verdict is returned, but the parser does not learn of it
  if h.doff < 5 then
    return (.HeaderTooShort, h)
  -- skip any options
  NetParser.removePrefix (h.doff.toNat * 4 - LENGTH)
  return (← NetParser.getError, h)

/-- The fields that `serialize` writes. -/
def serializeFields (h : TCPHeader) : Bytes :=
  let ret := NetUnparser.u16 [] h.sport
  let ret := NetUnparser.u16 ret h.dport
  let ret := NetUnparser.u32 ret h.seqno.rawValue
  let ret := NetUnparser.u32 ret h.ackno.rawValue
  let ret := NetUnparser.u8 ret (h.doff <<< 4)
  let ret := NetUnparser.u8 ret h.flagByte
  let ret := NetUnparser.u16 ret h.win
  let ret := NetUnparser.u16 ret h.cksum
  NetUnparser.u16 ret h.uptr

/-- `serialize()` -/
def serialize (h : TCPHeader) : Except RuntimeError Bytes :=
  if h.doff < 5 then .error ⟨"TCP header too short"⟩
  -- expand the header to its advertised size
  else .ok (resize h.serializeFields (4 * h.doff.toNat))

end TCPHeader

/-! ## §2 Segments -/

namespace TCPSegment

/-- `parse(buffer, datagram_layer_checksum)` -/
def parse (seg : TCPSegment) (buffer : Bytes) (datagramLayerChecksum : UInt32) :
    ParseResult × TCPSegment :=
  if ((InternetChecksum.new datagramLayerChecksum).add buffer).value ≠ 0 then
    (.BadChecksum, seg)
  else
    -- the verdict of the header is ignored
    let ((_, header), p) := TCPHeader.parse { buffer }
    (p.error, { header, payload := p.buffer })

/-- The checksum that `serialize` fills in, taken over the entire segment. -/
def cksum (seg : TCPSegment) (datagramLayerChecksum : UInt32) : Except RuntimeError UInt16 := do
  let header ← { seg.header with cksum := 0 }.serialize
  return (((InternetChecksum.new datagramLayerChecksum).add header).add seg.payload).value

/-- `serialize(datagram_layer_checksum)` -/
def serialize (seg : TCPSegment) (datagramLayerChecksum : UInt32) :
    Except RuntimeError BufferList := do
  let cksum ← seg.cksum datagramLayerChecksum
  let header ← { seg.header with cksum }.serialize
  return (BufferList.ofBuffer header).append (.ofBuffer seg.payload)

end TCPSegment

end Sponge
