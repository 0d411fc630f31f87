import Sponge.Codec.Datagram
import Sponge.Codec.Segment
import Sponge.TCPOverIP

/-!
# Segments in Datagrams

`encapsulation_round_trip`: what one adapter wraps, its peer unwraps, through both codecs.  The two
layers meet in the pseudo-header: both ends compute its sum from the header of the datagram, and
the checksum of that header is not part of it.
-/

namespace Sponge

namespace TCPOverIPv4Adapter

/-- The adapter at the other end. -/
def peer (a : TCPOverIPv4Adapter) : TCPOverIPv4Adapter where
  source := a.destination
  destination := a.source
  listening := false

/-- The length of the datagram, without truncation. -/
theorem datagramHeader_len (a : TCPOverIPv4Adapter) (seg : TCPSegment)
    (hlen : 20 + 4 * seg.header.doff.toNat + seg.payload.length ≤ 65535) :
    (a.datagramHeader seg).len.toNat =
      20 + 4 * seg.header.doff.toNat + seg.payload.length := by
  have hhlen : (5 : UInt8).toNat = 5 := rfl
  simp only [datagramHeader, UInt16.toNat_ofNat', hhlen]
  omega

/-- The peer accepts a segment with its ports from a datagram with its addresses. -/
theorem unwrapTcpInIp_peer (a : TCPOverIPv4Adapter) {h : IPv4Header} {buffer : Bytes}
    {seg : TCPSegment} (hsrc : h.src = a.source.ipv4Numeric)
    (hdst : h.dst = a.destination.ipv4Numeric) (hproto : h.proto = IPv4Header.PROTO_TCP)
    (hparse : TCPSegment.parse {} buffer h.pseudoCksum = (.NoError, seg))
    (hsport : seg.header.sport = a.source.port) (hdport : seg.header.dport = a.destination.port) :
    a.peer.unwrapTcpInIp ⟨h, .ofBuffer buffer⟩ = .ok (some seg, a.peer) := by
  have haccept : a.peer.acceptSegment ⟨h, .ofBuffer buffer⟩ seg = (some seg, a.peer) := by
    simp [acceptSegment, peer, hsport, hdport]
  have hbuffer : (BufferList.ofBuffer buffer).toBuffer = .ok buffer := rfl
  simp only [unwrapTcpInIp, hproto, hbuffer, bind, Except.bind, hparse, haccept]
  simp [peer, hsrc, hdst, pure, Except.pure]

section RoundTrip

variable {a : TCPOverIPv4Adapter} {h : TCPHeader} {payload : Bytes}

/-- The datagram that carries a serialized segment is parsed back. -/
theorem parse_datagram (hlen : 20 + 4 * h.doff.toNat + payload.length ≤ 65535)
    (hdoff : 5 ≤ h.doff) :
    ∃ out cksum, IPv4Datagram.serialize ⟨a.datagramHeader ⟨h, payload⟩, ⟨[h.padded, payload]⟩⟩ =
        .ok out ∧
      IPv4Datagram.cksum ⟨a.datagramHeader ⟨h, payload⟩, ⟨[h.padded, payload]⟩⟩ = .ok cksum ∧
      IPv4Datagram.parse {} out.concatenate =
        (.NoError, { header := { a.datagramHeader ⟨h, payload⟩ with cksum }
                     payload := .ofBuffer (h.padded ++ payload) }) := by
  have hsize : (BufferList.mk [h.padded, payload]).size = 4 * h.doff.toNat + payload.length := by
    simp [BufferList.size, TCPHeader.length_padded hdoff]
  have hconcat : (BufferList.mk [h.padded, payload]).concatenate = h.padded ++ payload := by
    simp [BufferList.concatenate]
  have hheader := a.datagramHeader_len ⟨h, payload⟩ hlen
  have hhlen : (a.datagramHeader ⟨h, payload⟩).hlen.toNat = 5 := rfl
  dsimp only at hheader
  obtain ⟨out, cksum, hout, hcksum, hparse, -⟩ :=
    IPv4Datagram.parse_serialize (h := a.datagramHeader ⟨h, payload⟩)
      (p := ⟨[h.padded, payload]⟩) rfl (show (5 : UInt8) ≤ 5 by decide)
      (show (5 : UInt8) ≤ 15 by decide) (show (0 : UInt16) ≤ 0x1fff by decide)
      (by rw [hheader, hhlen, hsize]; omega)
  rw [hconcat] at hparse
  exact ⟨out, cksum, hout, hcksum, hparse⟩

end RoundTrip

/-- **What one adapter wraps, its peer unwraps.** -/
theorem encapsulation_round_trip (a : TCPOverIPv4Adapter) (seg : TCPSegment)
    (hlow : 5 ≤ seg.header.doff) (hhigh : seg.header.doff ≤ 15)
    (hlen : 20 + 4 * seg.header.doff.toNat + seg.payload.length ≤ 65535) :
    ∃ d out ipCksum received tcpCksum,
      a.wrapTcpInIp seg = .ok (d, a.setPorts seg) ∧ d.serialize = .ok out ∧
      d.cksum = .ok ipCksum ∧ IPv4Datagram.parse {} out.concatenate = (.NoError, received) ∧
      received.header = { d.header with cksum := ipCksum } ∧
      a.peer.unwrapTcpInIp received = .ok (some { a.setPorts seg with
        header := { (a.setPorts seg).header with cksum := tcpCksum } }, a.peer) := by
  have hlen' : 4 * seg.header.doff.toNat + seg.payload.length ≤ 65535 := by omega
  generalize hheader : (a.setPorts seg).header = h
  have hseg : a.setPorts seg = ⟨h, seg.payload⟩ := by rw [← hheader]; rfl
  have hdoff : seg.header.doff = h.doff := by rw [← hheader]; rfl
  have hsport : h.sport = a.source.port := by rw [← hheader]; rfl
  have hdport : h.dport = a.destination.port := by rw [← hheader]; rfl
  rw [hdoff] at hlow hhigh hlen hlen'
  -- the checksum of the segment, with the pseudo-header of the datagram
  obtain ⟨tcpCksum, -, htcp, hpayload⟩ := TCPSegment.serialize_eq seg.payload hlow
    (a.datagramHeader ⟨h, seg.payload⟩).pseudoCksum
  have hvalue := TCPSegment.value_serialized (.inr ⟨_, rfl⟩) hlow hlen' htcp
  -- the datagram around it
  obtain ⟨out, ipCksum, hout, hipCksum, hparse⟩ :=
    parse_datagram (a := a) (h := { h with cksum := tcpCksum }) hlen hlow
  have hwrap : a.wrapTcpInIp seg = .ok (⟨a.datagramHeader ⟨h, seg.payload⟩,
      ⟨[{ h with cksum := tcpCksum }.padded, seg.payload]⟩⟩, a.setPorts seg) := by
    simp only [wrapTcpInIp, hseg, hpayload, bind, Except.bind]
    rfl
  refine ⟨_, out, ipCksum, _, tcpCksum, hwrap, hout, hipCksum, hparse, rfl, ?_⟩
  rw [hseg]
  exact unwrapTcpInIp_peer a rfl rfl rfl
    (TCPSegment.parse_padded (h := { h with cksum := tcpCksum }) hlow hhigh hvalue {}) hsport hdport

/-- A segment between two hosts. -/
theorem encapsulation_round_trip_segment :
    let a : TCPOverIPv4Adapter :=
      { source := ⟨0x0a000001, 1234⟩, destination := ⟨0x0a000002, 80⟩ }
    let seg : TCPSegment :=
      { header := { seqno := ⟨7⟩, ack := true, doff := 6 }, payload := [1, 2, 3] }
    ∃ d out ipCksum received tcpCksum,
      a.wrapTcpInIp seg = .ok (d, a.setPorts seg) ∧ d.serialize = .ok out ∧
      d.cksum = .ok ipCksum ∧ IPv4Datagram.parse {} out.concatenate = (.NoError, received) ∧
      received.header = { d.header with cksum := ipCksum } ∧
      a.peer.unwrapTcpInIp received = .ok (some { a.setPorts seg with
        header := { (a.setPorts seg).header with cksum := tcpCksum } }, a.peer) :=
  encapsulation_round_trip _ _ (by decide) (by decide) (by decide)

end TCPOverIPv4Adapter

end Sponge
