import Sponge.Lib.Loop
import Sponge.StreamReassembler
import Sponge.TCPSegment

/-!
# TCP Sender

Model of `libsponge/tcp_sender.hh` and `tcp_sender.cc`: the sender cuts its byte stream
into segments, keeps the segments in flight, and retransmits the oldest of them when the
timer expires.

## Modelling notes

- Absolute sequence numbers are natural numbers, where the source has 64-bit ones.  They never
  exceed the number of bytes written by more than two, so the model is exact for the runs in which
  fewer than `2 ^ 64 - 2` bytes are written.  `remainingWin` is the difference the source computes
  in `size_t`, reduced modulo `2 ^ 64`.
- `sent` and `diverged` are history variables that no operation reads: the segments ever
  passed to `send_segment`, and whether the loop of some `fill_window` failed to end.
- The loop of `fill_window` reuses one segment object from round to round, so the object is
  part of the loop state.
-/

namespace Sponge

/-! ## §1 Retransmission timer -/

/-- `RetransmissionTimer` -/
structure RetransmissionTimer where
  remainingTime : UInt32 := 0
  expired : Bool := false
  started : Bool := false
  deriving DecidableEq, Repr

namespace RetransmissionTimer

/-- `start(rto)` -/
def start (_ : RetransmissionTimer) (rto : UInt32) : RetransmissionTimer :=
  { started := true, expired := false, remainingTime := rto }

/-- `stop()` -/
def stop (_ : RetransmissionTimer) : RetransmissionTimer :=
  { started := false, expired := false, remainingTime := 0 }

/-- `is_start()` -/
def isStart (t : RetransmissionTimer) : Bool :=
  t.started

/-- `is_expired()` -/
def isExpired (t : RetransmissionTimer) : Bool :=
  t.expired && t.started

/-- `tick(ms_since_last_tick)` -/
def tick (t : RetransmissionTimer) (ms : UInt64) : RetransmissionTimer :=
  if !t.isStart then t
  else if t.remainingTime.toNat ≤ ms.toNat then { t with expired := true }
  else { t with remainingTime := t.remainingTime - ms.toUInt32 }

@[simp] theorem isStart_start (t : RetransmissionTimer) (rto : UInt32) :
    (t.start rto).isStart = true := rfl

@[simp] theorem isStart_stop (t : RetransmissionTimer) : t.stop.isStart = false := rfl

@[simp] theorem isStart_tick (t : RetransmissionTimer) (ms : UInt64) :
    (t.tick ms).isStart = t.isStart := by
  unfold tick
  split
  · rfl
  · split <;> rfl

end RetransmissionTimer

/-! ## §2 Sender -/

/-- `TCPSender` -/
structure TCPSender where
  isn : WrappingInt32
  -- the queue of segments to be sent
  segmentsOut : List TCPSegment
  initialRetransmissionTimeout : UInt32
  stream : ByteStream
  -- the absolute number of the next byte to be sent
  nextSeqno : ℕ
  rto : UInt32
  retransmissionCount : UInt32
  lastAckno : ℕ
  lastWin : UInt16
  timer : RetransmissionTimer
  -- the queue of segments in flight
  outstandingSeg : List TCPSegment
  -- history: the segments passed to `send_segment`, in order
  sent : List TCPSegment
  -- history: the loop of a `fill_window` did not end
  diverged : Bool
  deriving DecidableEq

namespace TCPSender

/-- The constructor `TCPSender(capacity, retx_timeout, fixed_isn)`; `randomDevice` is the
    number drawn when no initial sequence number is fixed. -/
def new (capacity : UInt64) (retxTimeout : UInt16) (fixedIsn : Option WrappingInt32)
    (randomDevice : UInt32) : TCPSender where
  isn := fixedIsn.getD ⟨randomDevice⟩
  segmentsOut := []
  initialRetransmissionTimeout := retxTimeout.toUInt32
  stream := .new capacity
  nextSeqno := 0
  rto := retxTimeout.toUInt32
  retransmissionCount := 0
  lastAckno := 0
  lastWin := 1
  timer := {}
  outstandingSeg := []
  sent := []
  diverged := false

/-- `bytes_in_flight()` -/
def bytesInFlight (s : TCPSender) : ℕ :=
  s.nextSeqno - s.lastAckno

/-- `next_seqno()` -/
def nextSeqnoWrapped (s : TCPSender) : WrappingInt32 :=
  wrap s.nextSeqno s.isn

/-- `send_segment(seg)` -/
def sendSegment (s : TCPSender) (seg : TCPSegment) : TCPSender :=
  let seg := { seg with header := { seg.header with seqno := s.nextSeqnoWrapped } }
  { s with
    nextSeqno := s.nextSeqno + seg.lengthInSequenceSpace
    segmentsOut := s.segmentsOut ++ [seg]
    outstandingSeg := s.outstandingSeg ++ [seg]
    sent := s.sent ++ [seg]
    timer := if s.timer.isStart then s.timer else s.timer.start s.rto }

/-- `send_empty_segment()` -/
def sendEmptySegment (s : TCPSender) : TCPSender :=
  { s with segmentsOut := s.segmentsOut ++ [{ header := { seqno := s.nextSeqnoWrapped } }] }

/-! ## §3 Filling the window -/

/-- `cur_win`: an advertised window of zero counts as one. -/
def curWin (s : TCPSender) : UInt16 :=
  if s.lastWin = 0 then 1 else s.lastWin

/-- `remaining_win`: the unsigned difference of the window and the bytes in flight. -/
def remainingWin (s : TCPSender) : ℕ :=
  sizeTSub s.curWin.toNat s.bytesInFlight

/-- `payload_size` -/
def payloadSize (s : TCPSender) : ℕ :=
  min TCPConfig.maxPayloadSize s.remainingWin

/-- The segment object after a round has put the bytes just read into it.  FIN rides along when
    the stream is exhausted and the window has room for it. -/
def loaded (s : TCPSender) (seg : TCPSegment) : TCPSegment :=
  let (data, stream) := s.stream.read s.payloadSize
  let seg := { seg with payload := data }
  if stream.eof ∧ seg.lengthInSequenceSpace < s.remainingWin then
    { seg with header := { seg.header with fin := true } }
  else seg

/-- One round of the loop of `fill_window`.  The window and the last acknowledgement do not
    change in the loop, so `cur_win` is read off the sender in every round. -/
def fillRound : TCPSender × TCPSegment → Loop.Round (TCPSender × TCPSegment) TCPSender
  | (s, seg) =>
    -- the condition of the loop
    if s.remainingWin = 0 then .exit s
    else if !s.stream.eof ∧ s.bytesInFlight < s.nextSeqno then
      let seg := s.loaded seg
      let s := { s with stream := (s.stream.read s.payloadSize).2 }
      -- nothing to read: leave the call
      if seg.lengthInSequenceSpace = 0 then .exit s
      else .next (s.sendSegment seg, seg)
    else if s.stream.eof then
      -- the stream is exhausted: send a FIN if none was sent
      if s.nextSeqno < s.stream.bytesWritten + 2 then
        .exit (s.sendSegment { seg with header := { seg.header with fin := true } })
      else .exit s
    -- not reached, as the SYN is acknowledged when the loop is entered
    else .next (s, seg)

/-- The loop of `fill_window`, run for `n` rounds at most. -/
def fillLoop (n : ℕ) (s : TCPSender) : Option TCPSender :=
  Loop.iterate fillRound n (s, {})

/-- `fill_window()`.  Every round but the last takes a byte off the stream, so the rounds
    allowed are enough; if they were not, `diverged` would record it. -/
def fillWindow (s : TCPSender) : TCPSender :=
  if s.nextSeqno = 0 then
    s.sendSegment { header := { syn := true } }
  else if 0 < s.nextSeqno ∧ s.nextSeqno = s.bytesInFlight then
    s
  else
    match fillLoop (s.stream.bufferSize + 1) s with
    | some s' => s'
    | none => { s with diverged := true }

/-! ## §4 Acknowledgements and time -/

/-- The loop of `ack_received` that pops acknowledged segments: the raw sequence number plus
    the length, in 64 bits, against the raw acknowledgement number. -/
def popAcked (ackno : WrappingInt32) (segs : List TCPSegment) : List TCPSegment :=
  segs.dropWhile fun seg =>
    seg.header.seqno.rawValue.toNat + seg.lengthInSequenceSpace ≤ ackno.rawValue.toNat

/-- `ack_received` up to its call of `fill_window`; `none` when the acknowledgement is
    ignored. -/
def acceptAck (s : TCPSender) (ackno : WrappingInt32) (windowSize : UInt16) :
    Option TCPSender :=
  let absAck := unwrap ackno s.isn s.lastAckno
  -- something that was never sent
  if s.nextSeqno < absAck then none
  -- something new is acknowledged
  else if s.lastAckno < absAck then
    let outstanding := popAcked ackno s.outstandingSeg
    let rto := s.initialRetransmissionTimeout
    some { s with
      lastAckno := absAck
      outstandingSeg := outstanding
      retransmissionCount := 0
      rto := rto
      timer := if !outstanding.isEmpty then s.timer.start rto else s.timer.stop
      lastWin := windowSize }
  else
    some { s with lastWin := windowSize }

/-- `ack_received(ackno, window_size)` -/
def ackReceived (s : TCPSender) (ackno : WrappingInt32) (windowSize : UInt16) : TCPSender :=
  match s.acceptAck ackno windowSize with
  | none => s
  | some s' => s'.fillWindow

/-- `tick(ms_since_last_tick)` -/
def tick (s : TCPSender) (ms : UInt64) : TCPSender :=
  let timer := s.timer.tick ms
  match s.outstandingSeg with
  | [] => { s with timer := timer.stop }
  | front :: _ =>
    if timer.isExpired then
      let s := { s with segmentsOut := s.segmentsOut ++ [front] }
      let s :=
        -- no back-off while the peer advertises no window
        if (0 : UInt16) < s.lastWin then
          { s with retransmissionCount := s.retransmissionCount + 1, rto := s.rto * 2 }
        else s
      { s with timer := timer.start s.rto }
    else
      { s with timer := timer }

/-! ## §5 Runs of a sender -/

/-- The operations on a sender.  `dequeue` and `setError` are the two things its owner does
    through `segments_out()` and `stream_in()` besides writing. -/
inductive Op where
  | write (data : Bytes)
  | endInput
  | fillWindow
  | ackReceived (ackno : WrappingInt32) (windowSize : UInt16)
  | tick (ms : UInt64)
  | sendEmptySegment
  | dequeue
  | setError
  deriving DecidableEq, Repr

/-- Perform one operation. -/
def apply (s : TCPSender) : Op → TCPSender
  | .write data => { s with stream := (s.stream.write data).1 }
  | .endInput => { s with stream := s.stream.endInput }
  | .fillWindow => s.fillWindow
  | .ackReceived ackno windowSize => s.ackReceived ackno windowSize
  | .tick ms => s.tick ms
  | .sendEmptySegment => s.sendEmptySegment
  | .dequeue => { s with segmentsOut := s.segmentsOut.tail }
  | .setError => { s with stream := s.stream.setError }

/-- Perform a list of operations. -/
def run (s : TCPSender) (ops : List Op) : TCPSender :=
  ops.foldl apply s

/-- One operation as a step of a transition relation. -/
def Step (s : TCPSender) (op : Op) (t : TCPSender) : Prop :=
  s.apply op = t

end TCPSender

end Sponge
