import Sponge.ByteStream
import Sponge.WrappingIntegers

/-!
# TCP Segments and Configuration

Model of `tcp_helpers/tcp_header.hh`, `tcp_helpers/tcp_segment.hh` and
`tcp_helpers/tcp_config.hh`, as far as the connection uses them.

A payload is the byte string its `Buffer` holds.
-/

namespace Sponge

/-- The TCP header, with the source's default values. -/
structure TCPHeader where
  /-- source port -/
  sport : UInt16 := 0
  /-- destination port -/
  dport : UInt16 := 0
  /-- sequence number -/
  seqno : WrappingInt32 := ⟨0⟩
  /-- ack number -/
  ackno : WrappingInt32 := ⟨0⟩
  /-- data offset: `LENGTH / 4` -/
  doff : UInt8 := 5
  urg : Bool := false
  ack : Bool := false
  psh : Bool := false
  rst : Bool := false
  syn : Bool := false
  fin : Bool := false
  /-- window size -/
  win : UInt16 := 0
  /-- checksum -/
  cksum : UInt16 := 0
  /-- urgent pointer -/
  uptr : UInt16 := 0
  deriving DecidableEq, Repr

/-- A TCP segment: header and payload. -/
structure TCPSegment where
  header : TCPHeader := {}
  payload : Bytes := []
  deriving DecidableEq, Repr

namespace TCPSegment

/-- `length_in_sequence_space()`: the payload, and one number each for SYN and FIN. -/
def lengthInSequenceSpace (seg : TCPSegment) : ℕ :=
  seg.payload.length + (if seg.header.syn then 1 else 0) + (if seg.header.fin then 1 else 0)

/-- The sequence numbers a list of segments occupies. -/
def seqLength (segs : List TCPSegment) : ℕ :=
  (segs.map lengthInSequenceSpace).sum

@[simp] theorem seqLength_nil : seqLength [] = 0 := rfl

@[simp] theorem seqLength_cons (seg : TCPSegment) (segs : List TCPSegment) :
    seqLength (seg :: segs) = seg.lengthInSequenceSpace + seqLength segs := by
  simp [seqLength]

@[simp] theorem seqLength_append (l₁ l₂ : List TCPSegment) :
    seqLength (l₁ ++ l₂) = seqLength l₁ + seqLength l₂ := by
  simp [seqLength]

end TCPSegment

/-- `TCPConfig`: the parameters of one connection. -/
structure TCPConfig where
  /-- initial value of the retransmission timeout, in milliseconds -/
  rtTimeout : UInt16 := 1000
  /-- receive capacity, in bytes -/
  recvCapacity : UInt64 := 64000
  /-- sender capacity, in bytes -/
  sendCapacity : UInt64 := 64000
  /-- the initial sequence number, when it is not to be random -/
  fixedIsn : Option WrappingInt32 := none
  deriving DecidableEq, Repr

namespace TCPConfig

/-- `MAX_PAYLOAD_SIZE` -/
def maxPayloadSize : ℕ := 1000

/-- `MAX_RETX_ATTEMPTS` -/
def maxRetxAttempts : UInt32 := 8

end TCPConfig

end Sponge
