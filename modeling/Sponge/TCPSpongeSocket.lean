import Sponge.FileDescriptor
import Sponge.Lib.Execution
import Sponge.TCPConnection

/-!
# Sponge Socket

Model of `tcp_helpers/tcp_sponge_socket.hh` and `tcp_sponge_socket.cc`: the thread that runs a
connection.  An event loop with four rules moves data between the connection, the datagram
adapter below it and the local stream socket to the application above it.

## Modelling notes

- The members that the rules use are the state of their closures.  The debugging output and
  `_abort`, which only ends the loop, are left out.
- `Answer` is what the system calls of a callback return.  A system call that fails raises an
  exception and so ends the callback.
- A connection never takes segments off the list of what it has emitted, see `TCPConnection`.
  The socket counts how many of them it has taken.
- The adapter is a descriptor to read segments from and write segments to.  A lossy adapter
  writes fewer segments than it is given.
-/

namespace Sponge

open EventLoop (Rule Poll LoopException)

/-! ## §1 The socket -/

/-- The members of a `TCPSpongeSocket` that the rules use. -/
structure TCPSpongeSocket where
  tcp : TCPConnection
  threadData : FileDescriptor := {}
  datagramAdapter : FileDescriptor := {}
  -- the number of segments taken off `segments_out()`
  popped : ℕ := 0
  inboundShutdown : Bool := false
  outboundShutdown : Bool := false
  fullyAcked : Bool := false

/-- What a callback may throw. -/
inductive SocketException where
  /-- "TCPConnection::write() accepted less than advertised length" -/
  | acceptedLess
  /-- "write returned 0 given non-empty input buffer" -/
  | wroteNothing
  /-- a system call has failed -/
  | unixError
  /-- an exception of the connection -/
  | std (e : StdException)
  deriving DecidableEq, Repr

/-- What the system calls of a callback answer. -/
structure Answer where
  /-- the call fails -/
  fails : Bool := false
  /-- the segment that the adapter finds in the next datagram -/
  segment : Option TCPSegment := none
  /-- reading from the adapter has met the end of the file -/
  adapterEof : Bool := false
  /-- what the application has written and the kernel hands over -/
  available : Bytes := []
  /-- the number of bytes that the kernel takes -/
  taken : ℕ := 0
  /-- the number of segments that the adapter writes -/
  sent : UInt32 := 0

namespace TCPSpongeSocket

/-- `_tcp->segments_out()` -/
def segmentsOut (s : TCPSpongeSocket) : List TCPSegment :=
  s.tcp.segmentsOut.drop s.popped

/-- The callback of rule 1. -/
def readSegment (a : Answer) (s : TCPSpongeSocket) : Except SocketException TCPSpongeSocket :=
  if a.fails then .error .unixError
  else
    let fd := s.datagramAdapter.registerRead
    let s := { s with datagramAdapter := { fd with eof := fd.eof || a.adapterEof } }
    let received : Except StdException TCPConnection :=
      match a.segment with
      | none => .ok s.tcp
      | some seg => s.tcp.segmentReceived seg
    match received with
    | .error e => .error (.std e)
    | .ok tcp =>
      let s := { s with tcp }
      if s.threadData.eof && s.tcp.sender.bytesInFlight == 0 && !s.fullyAcked then
        .ok { s with fullyAcked := true }
      else .ok s

/-- The callback of rule 2. -/
def readData (a : Answer) (s : TCPSpongeSocket) : Except SocketException TCPSpongeSocket :=
  if a.fails then .error .unixError
  else
    let (data, threadData) := s.threadData.read s.tcp.remainingOutboundCapacity a.available
    let (tcp, amountWritten) := s.tcp.write data
    if amountWritten ≠ data.length then .error .acceptedLess
    else
      let s := { s with threadData, tcp }
      if s.threadData.eof then
        .ok { s with tcp := s.tcp.endInputStream, outboundShutdown := true }
      else .ok s

/-- The `cancel` function of rule 2. -/
def cancelData (s : TCPSpongeSocket) : TCPSpongeSocket :=
  { s with tcp := s.tcp.endInputStream, outboundShutdown := true }

/-- The callback of rule 3. -/
def writeData (a : Answer) (s : TCPSpongeSocket) : Except SocketException TCPSpongeSocket :=
  if a.fails then .error .unixError
  else
    let amountToWrite := min 65536 s.tcp.inboundStream.bufferSize
    let buffer := s.tcp.inboundStream.peekOutput amountToWrite
    let bytesWritten := min a.taken buffer.length
    if bytesWritten = 0 ∧ buffer.length ≠ 0 then .error .wroteNothing
    else
      let s := { s with
        threadData := s.threadData.registerWrite
        tcp := s.tcp.readInbound bytesWritten }
      if s.tcp.inboundStream.eof || s.tcp.inboundStream.error then
        -- `shutdown(SHUT_WR)` counts as a write
        .ok { s with threadData := s.threadData.registerWrite, inboundShutdown := true }
      else .ok s

/-- The callback of rule 4: the loop sends all that is queued. -/
def writeSegments (a : Answer) (s : TCPSpongeSocket) :
    Except SocketException TCPSpongeSocket :=
  if a.fails && !s.segmentsOut.isEmpty then .error .unixError
  else
    .ok { s with
      popped := s.tcp.segmentsOut.length
      datagramAdapter :=
        { s.datagramAdapter with writeCount := s.datagramAdapter.writeCount + a.sent } }

/-! ## §2 The rules of `_initialize_TCP` -/

/-- Rule 1: read from the filtered packet stream and dump into the connection. -/
def rule1 : Rule TCPSpongeSocket Answer SocketException where
  fd := datagramAdapter
  direction := .In
  callback := readSegment
  interest s := s.tcp.isactive

/-- Rule 2: read from the pipe into the outbound buffer. -/
def rule2 : Rule TCPSpongeSocket Answer SocketException where
  fd := threadData
  direction := .In
  callback := readData
  interest s := s.tcp.isactive && !s.outboundShutdown && 0 < s.tcp.remainingOutboundCapacity
  cancel := cancelData

/-- Rule 3: read from the inbound buffer into the pipe. -/
def rule3 : Rule TCPSpongeSocket Answer SocketException where
  fd := threadData
  direction := .Out
  callback := writeData
  interest s :=
    let inbound := s.tcp.inboundStream
    !inbound.bufferEmpty || ((inbound.eof || inbound.error) && !s.inboundShutdown)

/-- Rule 4: read outbound segments from the connection and send them as datagrams. -/
def rule4 : Rule TCPSpongeSocket Answer SocketException where
  fd := datagramAdapter
  direction := .Out
  callback := writeSegments
  interest s := !s.segmentsOut.isEmpty

/-! ## §3 Runs -/

/-- A socket with its event loop. -/
structure Running where
  rules : List (Rule TCPSpongeSocket Answer SocketException)
  socket : TCPSpongeSocket

/-- `_initialize_TCP(config)` -/
def initializeTCP (config : TCPConfig) (randomDevice : UInt32) : Running where
  rules := [rule1, rule2, rule3, rule4]
  socket := { tcp := .new config randomDevice }

/-- `connect(c_tcp, c_ad)` up to its event loop. -/
def connect (config : TCPConfig) (randomDevice : UInt32) : Running where
  rules := (initializeTCP config randomDevice).rules
  socket := { tcp := (TCPConnection.new config randomDevice).connect }

/-- `listen_and_accept(c_tcp, c_ad)` up to its event loop. -/
def listenAndAccept (config : TCPConfig) (randomDevice : UInt32) : Running :=
  initializeTCP config randomDevice

/-- The two parts of a round of `_tcp_loop`.  A round that is left early has no second part. -/
inductive Event where
  | waitNextEvent (poll : Poll Answer)
  | tick (ms : UInt64)

/-- `_tcp_loop`: the clock goes on while the connection is active. -/
def tick (s : TCPSpongeSocket) (ms : UInt64) : TCPSpongeSocket :=
  if s.tcp.isactive then { s with tcp := s.tcp.tick ms } else s

/-- One event of a run.  An exception ends the run. -/
def Running.Step (r : Running) : Event → Running → Prop
  | .waitNextEvent poll, r' => ∃ result,
    EventLoop.waitNextEvent r.rules r.socket poll = .ok (result, r'.rules, r'.socket)
  | .tick ms, r' => r' = { r with socket := r.socket.tick ms }

end TCPSpongeSocket

end Sponge
