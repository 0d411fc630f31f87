import Sponge.IPv4Datagram
import Sponge.SegmentCodec

/-!
# TCP over IPv4

Model of `tcp_helpers/tcp_over_ip.cc` and of what it uses of `tcp_helpers/fd_adapter.hh` and
`tcp_helpers/tcp_config.hh`.

## Modelling notes

- An `Address` is what the adapter asks it for: `ipv4_numeric()` and `port()`.  The text that
  `inet_ntoa` makes of an address denotes that address.
- `unwrap_tcp_in_ip` hands the payload of the datagram to the segment parser as one `Buffer`;
  the conversion raises an exception when the payload has several.
-/

namespace Sponge

/-- `Address` -/
structure Address where
  ipv4Numeric : UInt32 := 0
  port : UInt16 := 0
  deriving DecidableEq, Repr

/-- The state of a `TCPOverIPv4Adapter`: the addresses of its `FdAdapterConfig` and the listening
    flag. -/
structure TCPOverIPv4Adapter where
  source : Address := {}
  destination : Address := {}
  listening : Bool := false
  deriving DecidableEq, Repr

namespace TCPOverIPv4Adapter

/-- The part of `unwrap_tcp_in_ip` after the segment was parsed. -/
def acceptSegment (a : TCPOverIPv4Adapter) (ipDgram : IPv4Datagram) (tcpSeg : TCPSegment) :
    Option TCPSegment × TCPOverIPv4Adapter :=
  -- is the segment for us?
  if tcpSeg.header.dport ≠ a.source.port then (none, a)
  else if a.listening then
    -- should we target this source in reply?
    if tcpSeg.header.syn && !tcpSeg.header.rst then
      (some tcpSeg, {
        source := ⟨ipDgram.header.dst, a.source.port⟩
        -- the check of the source port is against the port that was just recorded
        destination := ⟨ipDgram.header.src, tcpSeg.header.sport⟩
        listening := false })
    else (none, a)
  -- is the segment from our peer?
  else if tcpSeg.header.sport ≠ a.destination.port then (none, a)
  else (some tcpSeg, a)

/-- `unwrap_tcp_in_ip(ip_dgram)` -/
def unwrapTcpInIp (a : TCPOverIPv4Adapter) (ipDgram : IPv4Datagram) :
    Except RuntimeError (Option TCPSegment × TCPOverIPv4Adapter) :=
  -- is the datagram for us, and from our peer?
  if !a.listening && ipDgram.header.dst ≠ a.source.ipv4Numeric then .ok (none, a)
  else if !a.listening && ipDgram.header.src ≠ a.destination.ipv4Numeric then .ok (none, a)
  else if ipDgram.header.proto ≠ IPv4Header.PROTO_TCP then .ok (none, a)
  else do
    -- is the payload a valid segment?
    let buffer ← ipDgram.payload.toBuffer
    let (result, tcpSeg) := TCPSegment.parse {} buffer ipDgram.header.pseudoCksum
    if result ≠ .NoError then return (none, a)
    return a.acceptSegment ipDgram tcpSeg

/-- The ports that `wrap_tcp_in_ip` sets. -/
def setPorts (a : TCPOverIPv4Adapter) (seg : TCPSegment) : TCPSegment :=
  { seg with header := { seg.header with sport := a.source.port, dport := a.destination.port } }

/-- The datagram header that `wrap_tcp_in_ip` makes. -/
def datagramHeader (a : TCPOverIPv4Adapter) (seg : TCPSegment) : IPv4Header :=
  let header : IPv4Header :=
    { src := a.source.ipv4Numeric, dst := a.destination.ipv4Numeric }
  { header with
    len := UInt16.ofNat
      (header.hlen.toNat * 4 + seg.header.doff.toNat * 4 + seg.payload.length) }

/-- `wrap_tcp_in_ip(seg)`, which also sets the ports of `seg`. -/
def wrapTcpInIp (a : TCPOverIPv4Adapter) (seg : TCPSegment) :
    Except RuntimeError (IPv4Datagram × TCPSegment) := do
  let seg := a.setPorts seg
  let header := a.datagramHeader seg
  let payload ← seg.serialize header.pseudoCksum
  return ({ header, payload }, seg)

end TCPOverIPv4Adapter

end Sponge
