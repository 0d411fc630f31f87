import Sponge.TCPReceiver
import Sponge.TCPSender

/-!
# TCP Connection

Model of `tcp_helpers/tcp_state.hh`, `tcp_state.cc`, `tcp_connection.hh` and
`tcp_connection.cc`: one endpoint of a connection, built from a sender and a receiver.

## Modelling notes

- The state summaries are strings in the source that are only compared with each other;
  here they are enumerations.
- Nothing in the connection reads its own queue `segments_out()`, which its owner empties.
  The model never empties it: it is the list of all segments the connection has emitted.
- `segment_received` returns in `Except StdException`, as the reassembler does.
-/

namespace Sponge

/-! ## §1 State summaries -/

/-- `TCPReceiverStateSummary` -/
inductive ReceiverSummary where
  | error | listen | synRecv | finRecv
  deriving DecidableEq, Repr

/-- `TCPSenderStateSummary` -/
inductive SenderSummary where
  | error | closed | synSent | synAcked | finSent | finAcked
  deriving DecidableEq, Repr

/-- `TCPState::state_summary(receiver)` -/
def TCPReceiver.stateSummary (r : TCPReceiver) : ReceiverSummary :=
  if r.streamOut.error then .error
  else if r.ackno.isNone then .listen
  else if r.streamOut.inputEnded then .finRecv
  else .synRecv

/-- `TCPState::state_summary(sender)` -/
def TCPSender.stateSummary (s : TCPSender) : SenderSummary :=
  if s.stream.error then .error
  else if s.nextSeqno = 0 then .closed
  else if s.nextSeqno = s.bytesInFlight then .synSent
  else if !s.stream.eof then .synAcked
  else if s.nextSeqno < s.stream.bytesWritten + 2 then .synAcked
  else if s.bytesInFlight ≠ 0 then .finSent
  else .finAcked

/-- `TCPState` -/
structure TCPState where
  sender : SenderSummary
  receiver : ReceiverSummary
  active : Bool := true
  lingerAfterStreamsFinish : Bool := true
  deriving DecidableEq, Repr

/-- `TCPState::State`: the official state names. -/
inductive TCPState.State where
  | LISTEN | SYN_RCVD | SYN_SENT | ESTABLISHED | CLOSE_WAIT | LAST_ACK
  | FIN_WAIT_1 | FIN_WAIT_2 | CLOSING | TIME_WAIT | CLOSED | RESET
  deriving DecidableEq, Repr

/-- The constructor `TCPState(state)`. -/
def TCPState.ofState : TCPState.State → TCPState
  | .LISTEN => { receiver := .listen, sender := .closed }
  | .SYN_RCVD => { receiver := .synRecv, sender := .synSent }
  | .SYN_SENT => { receiver := .listen, sender := .synSent }
  | .ESTABLISHED => { receiver := .synRecv, sender := .synAcked }
  | .CLOSE_WAIT =>
    { receiver := .finRecv, sender := .synAcked, lingerAfterStreamsFinish := false }
  | .LAST_ACK =>
    { receiver := .finRecv, sender := .finSent, lingerAfterStreamsFinish := false }
  | .CLOSING => { receiver := .finRecv, sender := .finSent }
  | .FIN_WAIT_1 => { receiver := .synRecv, sender := .finSent }
  | .FIN_WAIT_2 => { receiver := .synRecv, sender := .finAcked }
  | .TIME_WAIT => { receiver := .finRecv, sender := .finAcked }
  | .RESET =>
    { receiver := .error, sender := .error, lingerAfterStreamsFinish := false, active := false }
  | .CLOSED =>
    { receiver := .finRecv, sender := .finAcked, lingerAfterStreamsFinish := false,
      active := false }

/-! ## §2 Connection -/

/-- `TCPConnection` -/
structure TCPConnection where
  cfg : TCPConfig
  receiver : TCPReceiver
  sender : TCPSender
  -- every segment the connection has put on its outbound queue
  segmentsOut : List TCPSegment
  lingerAfterStreamsFinish : Bool
  isactive : Bool
  timeSinceLastSegmentReceived : UInt64
  deriving DecidableEq

namespace TCPConnection

/-- The constructor `TCPConnection(cfg)`. -/
def new (cfg : TCPConfig) (randomDevice : UInt32) : TCPConnection where
  cfg := cfg
  receiver := .new cfg.recvCapacity
  sender := .new cfg.sendCapacity cfg.rtTimeout cfg.fixedIsn randomDevice
  segmentsOut := []
  lingerAfterStreamsFinish := true
  isactive := true
  timeSinceLastSegmentReceived := 0

/-- `inbound_stream()` -/
def inboundStream (c : TCPConnection) : ByteStream :=
  c.receiver.streamOut

/-- `remaining_outbound_capacity()` -/
def remainingOutboundCapacity (c : TCPConnection) : ℕ :=
  c.sender.stream.remainingCapacity

/-- `state()` -/
def state (c : TCPConnection) : TCPState where
  sender := c.sender.stateSummary
  receiver := c.receiver.stateSummary
  active := c.isactive
  lingerAfterStreamsFinish := if c.isactive then c.lingerAfterStreamsFinish else false

/-! ## §3 Sending and shutting down -/

/-- The window field of an outgoing segment. -/
def advertisedWindow (r : TCPReceiver) : UInt16 :=
  if r.windowSize ≤ 65535 then UInt16.ofNat r.windowSize else 65535

/-- The acknowledgement fields filled into an outgoing segment. -/
def fillHeader (r : TCPReceiver) (seg : TCPSegment) : TCPSegment :=
  match r.ackno with
  | none => seg
  | some a =>
    { seg with header := { seg.header with ack := true, ackno := a, win := advertisedWindow r } }

/-- `send_segment()`: move the sender's queue to the outbound queue. -/
def sendSegment (c : TCPConnection) : TCPConnection :=
  { c with
    sender := { c.sender with segmentsOut := [] }
    segmentsOut := c.segmentsOut ++ c.sender.segmentsOut.map (fillHeader c.receiver) }

/-- `send_rst_segment()` -/
def sendRstSegment (c : TCPConnection) : TCPConnection :=
  let s := c.sender.fillWindow
  match s.segmentsOut with
  | [] => { c with sender := s.sendEmptySegment }
  | seg :: rest =>
    let seg := fillHeader c.receiver seg
    { c with
      sender := { s with segmentsOut := rest }
      segmentsOut := c.segmentsOut ++ [{ seg with header := { seg.header with rst := true } }] }

/-- `clean_shutdown()` -/
def cleanShutdown (c : TCPConnection) : TCPConnection :=
  -- the peer finished first, so there is no need to linger
  if c.receiver.streamOut.inputEnded ∧ ¬ c.sender.stream.eof then
    { c with lingerAfterStreamsFinish := false }
  else if c.sender.stateSummary = .finAcked ∧ c.receiver.stateSummary = .finRecv then
    -- both directions are finished
    if ¬ c.lingerAfterStreamsFinish ∨
        10 * c.cfg.rtTimeout.toNat ≤ c.timeSinceLastSegmentReceived.toNat then
      { c with isactive := false }
    else c
  else c

/-- `unclean_shutdown()` -/
def uncleanShutdown (c : TCPConnection) : TCPConnection :=
  { c with
    sender := { c.sender with stream := c.sender.stream.setError }
    receiver :=
      { c.receiver with
        reassembler :=
          { c.receiver.reassembler with output := c.receiver.reassembler.output.setError } }
    isactive := false }

/-! ## §4 Operations -/

/-- `connect()` -/
def connect (c : TCPConnection) : TCPConnection :=
  { c with sender := c.sender.fillWindow }.sendSegment

/-- `write(data)`; returns the number of bytes accepted. -/
def write (c : TCPConnection) (data : Bytes) : TCPConnection × ℕ :=
  if !c.isactive || data.isEmpty then (c, 0)
  else
    let (stream, len) := c.sender.stream.write data
    ({ c with sender := { c.sender with stream }.fillWindow }.sendSegment, len)

/-- `end_input_stream()` -/
def endInputStream (c : TCPConnection) : TCPConnection :=
  { c with sender := { c.sender with stream := c.sender.stream.endInput }.fillWindow }.sendSegment

/-- `tick(ms_since_last_tick)` -/
def tick (c : TCPConnection) (ms : UInt64) : TCPConnection :=
  if !c.isactive then c
  else
    let c :=
      { c with
        sender := c.sender.tick ms
        timeSinceLastSegmentReceived := c.timeSinceLastSegmentReceived + ms }
    -- too many retransmissions in a row
    if TCPConfig.maxRetxAttempts < c.sender.retransmissionCount then
      c.sendRstSegment.uncleanShutdown
    else
      c.sendSegment.cleanShutdown

/-- The part of `segment_received` that lets the sender react: process the acknowledgement,
    make sure that a segment occupying sequence space is answered, and answer a keep-alive. -/
def reply (c : TCPConnection) (seg : TCPSegment) : TCPSender :=
  let s := if seg.header.ack then c.sender.ackReceived seg.header.ackno seg.header.win
    else c.sender
  -- a segment with content is acknowledged in any case
  let s := if 0 < seg.lengthInSequenceSpace ∧ s.segmentsOut.isEmpty then s.sendEmptySegment else s
  match c.receiver.ackno with
  | none => s
  | some a =>
    -- a keep-alive
    if seg.lengthInSequenceSpace = 0 ∧ seg.header.seqno = a - (1 : UInt32) then
      s.sendEmptySegment
    else s

/-- `segment_received(seg)` -/
def segmentReceived (c : TCPConnection) (seg : TCPSegment) :
    Except StdException TCPConnection :=
  if !c.isactive then .ok c
  else
    let c := { c with timeSinceLastSegmentReceived := 0 }
    if seg.header.rst then .ok c.uncleanShutdown
    else do
      let receiver ← c.receiver.segmentReceived seg
      let c := { c with receiver }
      -- a SYN in LISTEN is answered by connecting
      if c.receiver.stateSummary = .synRecv ∧ c.sender.stateSummary = .closed then
        return c.connect
      else
        return { c with sender := c.reply seg }.sendSegment.cleanShutdown

/-- A read of `len` bytes from `inbound_stream()`. -/
def readInbound (c : TCPConnection) (len : ℕ) : TCPConnection :=
  { c with
    receiver :=
      { c.receiver with
        reassembler :=
          { c.receiver.reassembler with output := (c.receiver.reassembler.output.read len).2 } } }

/-! ## §5 Runs of a connection -/

/-- The operations of a connection's owner. -/
inductive Op where
  | connect
  | write (data : Bytes)
  | endInputStream
  | segmentReceived (seg : TCPSegment)
  | tick (ms : UInt64)
  | readInbound (len : ℕ)
  deriving DecidableEq, Repr

/-- Perform one operation. -/
def apply (c : TCPConnection) : Op → Except StdException TCPConnection
  | .connect => .ok c.connect
  | .write data => .ok (c.write data).1
  | .endInputStream => .ok c.endInputStream
  | .segmentReceived seg => c.segmentReceived seg
  | .tick ms => .ok (c.tick ms)
  | .readInbound len => .ok (c.readInbound len)

/-- One operation as a step of a transition relation. -/
def Step (c : TCPConnection) (op : Op) (d : TCPConnection) : Prop :=
  c.apply op = .ok d

end TCPConnection

end Sponge
