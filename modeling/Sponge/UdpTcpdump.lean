import Sponge.Lib.Loop
import Sponge.StreamReassembler

/-!
# Packet Dissector

Model of `process_ipv4_ipv6` of `apps/udp_tcpdump.cc`, which finds the UDP payload in a captured
packet, and of what `main` computes from its result.

## Modelling notes

- The packet is the list of its bytes, and the parameter `len` is its length.
- A read past the end and an overflow of an `int` are undefined in the source.  Here they are
  faults that end the execution.
- An address is the bytes that are given to `inet_ntop`.
- What the function writes to `cerr` when it gives up is part of its result.
-/

namespace Sponge

namespace UdpTcpdump

/-- What is undefined in the source. -/
inductive Fault where
  /-- a read at this index, which is not below the length -/
  | outOfBounds (index : ℕ)
  /-- an `int` that cannot hold its value -/
  | overflow
  deriving DecidableEq, Repr

/-- The result of `process_ipv4_ipv6`. -/
inductive Dissection where
  /-- `-1`, and what is written to `cerr` -/
  | malformed (cerr : String)
  /-- the offset that is returned, and the two addresses -/
  | udp (offset : ℕ) (srcAddr dstAddr : Bytes)
  deriving DecidableEq, Repr

/-- `data[index]` -/
def byteAt (data : Bytes) (index : ℕ) : Except Fault Byte :=
  match data[index]? with
  | some b => .ok b
  | none => .error (.outOfBounds index)

/-- The `count` bytes at `data + index`. -/
def bytesAt (data : Bytes) (index count : ℕ) : Except Fault Bytes :=
  if index + count ≤ data.length then .ok ((data.drop index).take count)
  else .error (.outOfBounds data.length)

/-- The bytes that `inet4_addr(data + index)` formats. -/
def inet4Addr (data : Bytes) (index : ℕ) : Except Fault Bytes :=
  bytesAt data index 4

/-- The bytes that `inet6_addr(data + index)` formats. -/
def inet6Addr (data : Bytes) (index : ℕ) : Except Fault Bytes :=
  bytesAt data index 16

/-- The value of an expression of type `int`. -/
def int (n : ℕ) : Except Fault ℕ :=
  if n < 2 ^ 31 then .ok n else .error .overflow

/-! ## §1 IPv4 -/

/-- The branch for IPv4; `first` is the first byte. -/
def processIpv4 (data : Bytes) (first : Byte) : Except Fault Dissection := do
  -- check packet length and proto
  let dataOffset := (first &&& 0x0f).toNat * 4
  if data.length < dataOffset then
    return .malformed ""
  let proto ← byteAt data 9
  if proto ≠ 0x11 then
    return .malformed "Not UDP; "
  let srcAddr ← inet4Addr data 12
  let dstAddr ← inet4Addr data 16
  -- skip UDP header
  let offset ← int (dataOffset + 8)
  return .udp offset srcAddr dstAddr

/-! ## §2 IPv6 -/

/-- The loop variables of the branch for IPv6. -/
structure Cursor where
  nxt : Byte
  dataOffset : ℕ
  deriving DecidableEq, Repr

/-- What follows the loop. -/
def finishIpv6 (data : Bytes) (dataOffset : ℕ) : Except Fault Dissection := do
  let srcAddr ← inet6Addr data 8
  let dstAddr ← inet6Addr data 24
  -- skip UDP header
  let offset ← int (dataOffset + 8)
  return .udp offset srcAddr dstAddr

/-- The step over one extension header, and `data_offset + 2` of the check behind it. -/
def skipExtension (data : Bytes) (dataOffset : ℕ) : Except Fault (Cursor × ℕ) := do
  let nxt ← byteAt data dataOffset
  let extra ← byteAt data (dataOffset + 1)
  let dataOffset ← int (dataOffset + 8 * (1 + extra.toNat))
  let needed ← int (dataOffset + 2)
  return (⟨nxt, dataOffset⟩, needed)

/-- One round of the loop. -/
def extensionRound (data : Bytes) (c : Cursor) : Loop.Round Cursor (Except Fault Dissection) :=
  if c.nxt = 0x11 then .exit (finishIpv6 data c.dataOffset)
  else if c.nxt ≠ 0 ∧ c.nxt ≠ 43 ∧ c.nxt ≠ 60 then
    .exit (.ok (.malformed "Not UDP or fragmented; "))
  else
    match skipExtension data c.dataOffset with
    | .error fault => .exit (.error fault)
    | .ok (c, needed) =>
      if data.length < needed then .exit (.ok (.malformed "")) else .next c

/-- The branch for IPv6, with at most so many rounds of the loop. -/
def processIpv6 (rounds : ℕ) (data : Bytes) : Option (Except Fault Dissection) :=
  -- check packet length
  if data.length < 42 then some (.ok (.malformed ""))
  else
    match byteAt data 6 with
    | .error fault => some (.error fault)
    | .ok nxt => Loop.iterate (extensionRound data) rounds ⟨nxt, 40⟩

/-! ## §3 The function and its caller -/

/-- `process_ipv4_ipv6(len, data, src_addr, dst_addr)` -/
def processIpv4Ipv6 (rounds : ℕ) (data : Bytes) : Option (Except Fault Dissection) :=
  -- this is either an IPv4 or IPv6 packet, we hope
  if data.length < 1 then some (.ok (.malformed ""))
  else
    match byteAt data 0 with
    | .error fault => some (.error fault)
    | .ok first =>
      let pt := first &&& 0xf0
      if pt = 0x40 then some (processIpv4 data first)
      else if pt = 0x60 then processIpv6 rounds data
      else some (.ok (.malformed ""))

/-- The length of the payload that `main` computes in `size_t`, of a packet of `caplen` bytes
    with a link-layer header of `hdrOff` bytes. -/
def payloadLen (caplen hdrOff startOff : ℕ) : ℕ :=
  let payloadOff := sizeT (hdrOff + startOff)
  sizeTSub caplen payloadOff

end UdpTcpdump

end Sponge
