import Sponge.StreamReassembler
import Sponge.TCPSegment

/-!
# TCP Receiver

Model of `libsponge/tcp_receiver.hh` and `tcp_receiver.cc`: the receiver unwraps the
sequence numbers of incoming segments, hands their payloads to the reassembler, and
computes the acknowledgement number and the window it advertises.
-/

namespace Sponge

/-- `TCPReceiver` -/
structure TCPReceiver where
  reassembler : StreamReassembler
  capacity : UInt64
  -- a SYN has been received
  syn : Bool
  -- the sequence number of that SYN
  isn : WrappingInt32
  deriving DecidableEq

namespace TCPReceiver

/-- The constructor `TCPReceiver(capacity)`. -/
def new (capacity : UInt64) : TCPReceiver where
  reassembler := .new capacity
  capacity := capacity
  syn := false
  isn := ⟨0⟩

/-- `stream_out()` -/
def streamOut (r : TCPReceiver) : ByteStream :=
  r.reassembler.output

/-- `unassembled_bytes()` -/
def unassembledBytes (r : TCPReceiver) : ℕ :=
  r.reassembler.unassembledBytes

/-- `segment_received(seg)` -/
def segmentReceived (r : TCPReceiver) (seg : TCPSegment) : Except StdException TCPReceiver :=
  if !r.syn then
    -- nothing is accepted before the SYN
    if !seg.header.syn then
      .ok r
    else do
      -- the payload of the first SYN is indexed from 0
      let reassembler ← r.reassembler.pushSubstring seg.payload 0 seg.header.fin
      return { r with isn := seg.header.seqno, syn := seg.header.syn, reassembler }
  else do
    -- every later segment, a repeated SYN too, goes by its absolute number
    let absSeqno := unwrap seg.header.seqno r.isn r.reassembler.firstUnassembled
    -- `abs_seqno - 1` in unsigned arithmetic
    let reassembler ←
      r.reassembler.pushSubstring seg.payload (UInt64.ofNat absSeqno - 1) seg.header.fin
    return { r with reassembler }

/-- The absolute acknowledgement number: SYN, the assembled bytes, and FIN. -/
def absAckno (r : TCPReceiver) : ℕ :=
  r.reassembler.firstUnassembled + 1 + (if r.streamOut.inputEnded then 1 else 0)

/-- `ackno()` -/
def ackno (r : TCPReceiver) : Option WrappingInt32 :=
  if !r.syn then none else some (wrap r.absAckno r.isn)

/-- `window_size()` -/
def windowSize (r : TCPReceiver) : ℕ :=
  sizeTSub r.reassembler.firstUnacceptable r.reassembler.firstUnassembled

end TCPReceiver

end Sponge
