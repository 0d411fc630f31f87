import Sponge.FileDescriptor

/-!
# Copying Between a Socket and the Standard Streams

Model of `apps/bidirectional_stream_copy.cc`, the loop of the programs `tcp_ipv4`, `tcp_udp` and
`tcp_native`: what arrives on the standard input goes to a socket, and what arrives at the socket
goes to the standard output, through a byte stream each.

## Modelling notes

- A `Conduit` is one direction: its byte stream, what has arrived at its source, and what its
  destination has taken.
- The descriptors do not block.  Reading from one fails when nothing has arrived and more may
  arrive.  Otherwise the kernel hands over at least one byte, and nothing at all only at the end.
- A system call that fails raises an exception, which ends the program.
-/

namespace Sponge

open EventLoop (Rule Poll)

/-! ## §1 One direction -/

/-- One direction of the copy. -/
structure Conduit where
  /-- `_outbound` or `_inbound` -/
  stream : ByteStream := .new 1048576
  /-- what has arrived at the source -/
  arrived : Bytes := []
  /-- the number of these bytes that have been read -/
  taken : ℕ := 0
  /-- no more will arrive -/
  closed : Bool := false
  /-- what the destination has taken -/
  delivered : Bytes := []

/-- What a callback may throw. -/
inductive CopyException where
  /-- "write returned 0 given non-empty input buffer" -/
  | wroteNothing
  /-- a system call has failed -/
  | unixError
  deriving DecidableEq, Repr

/-- What the system calls of a callback answer. -/
structure CopyAnswer where
  /-- a call fails -/
  fails : Bool := false
  /-- how many bytes the kernel would move -/
  amount : ℕ := 0
  deriving DecidableEq, Repr

namespace Conduit

/-- The bytes that have arrived and have not been read. -/
def pending (c : Conduit) : Bytes :=
  c.arrived.drop c.taken

/-- The callback of the rules 1 and 3, which read from the descriptor `fd` into the stream. -/
def fill (fd : FileDescriptor) (c : Conduit) (a : CopyAnswer) :
    Except CopyException (FileDescriptor × Conduit) :=
  if a.fails || (c.pending.isEmpty && !c.closed) then .error .unixError
  else
    let (data, fd) := fd.read c.stream.remainingCapacity (c.pending.take (a.amount + 1))
    -- how much the stream accepts is not asked
    let stream := (c.stream.write data).1
    let stream := if fd.eof then stream.endInput else stream
    .ok (fd, { c with stream, taken := c.taken + data.length })

/-- `max_copy_length` -/
def maxCopyLength : ℕ := 65536

/-- The callback of the rules 2 and 4 up to the end of the stream: they write from the stream to
    the descriptor `fd`. -/
def drain (fd : FileDescriptor) (c : Conduit) (a : CopyAnswer) :
    Except CopyException (FileDescriptor × Conduit) :=
  if a.fails then .error .unixError
  else
    let bytesToWrite := min maxCopyLength c.stream.bufferSize
    let buffer := c.stream.peekOutput bytesToWrite
    let bytesWritten := min a.amount buffer.length
    if bytesWritten = 0 ∧ buffer.length ≠ 0 then .error .wroteNothing
    else
      .ok (fd.registerWrite, { c with
        stream := c.stream.popOutput bytesWritten
        delivered := c.delivered ++ buffer.take bytesWritten })

/-- `end_input()` of the stream. -/
def endInput (c : Conduit) : Conduit :=
  { c with stream := c.stream.endInput }

/-- More bytes arrive at the source. -/
def arrive (c : Conduit) (data : Bytes) : Conduit :=
  { c with arrived := c.arrived ++ data }

/-- The source is closed. -/
def close (c : Conduit) : Conduit :=
  { c with closed := true }

end Conduit

/-! ## §2 The loop -/

/-- The variables of `bidirectional_stream_copy(socket)`. -/
structure Copier where
  input : FileDescriptor := {}
  output : FileDescriptor := {}
  socket : FileDescriptor := {}
  outbound : Conduit := {}
  inbound : Conduit := {}
  outboundShutdown : Bool := false
  inboundShutdown : Bool := false

namespace Copier

/-- The callback of rule 1. -/
def readInput (a : CopyAnswer) (s : Copier) : Except CopyException Copier := do
  let (input, outbound) ← Conduit.fill s.input s.outbound a
  return { s with input, outbound }

/-- The callback of rule 2. -/
def writeSocket (a : CopyAnswer) (s : Copier) : Except CopyException Copier := do
  let (socket, outbound) ← Conduit.drain s.socket s.outbound a
  if outbound.stream.eof then
    -- `shutdown(SHUT_WR)` counts as a write
    return { s with socket := socket.registerWrite, outbound, outboundShutdown := true }
  else return { s with socket, outbound }

/-- The callback of rule 3. -/
def readSocket (a : CopyAnswer) (s : Copier) : Except CopyException Copier := do
  let (socket, inbound) ← Conduit.fill s.socket s.inbound a
  return { s with socket, inbound }

/-- The callback of rule 4. -/
def writeOutput (a : CopyAnswer) (s : Copier) : Except CopyException Copier := do
  let (output, inbound) ← Conduit.drain s.output s.inbound a
  if inbound.stream.eof then
    -- `close()` sets both flags
    return { s with
      output := { output with eof := true, closed := true }
      inbound, inboundShutdown := true }
  else return { s with output, inbound }

/-- Rule 1: read from stdin into outbound byte stream. -/
def rule1 : Rule Copier CopyAnswer CopyException where
  fd := input
  direction := .In
  callback := readInput
  interest s := !s.outbound.stream.error && 0 < s.outbound.stream.remainingCapacity &&
    !s.inbound.stream.error
  cancel s := { s with outbound := s.outbound.endInput }

/-- Rule 2: read from outbound byte stream into socket. -/
def rule2 : Rule Copier CopyAnswer CopyException where
  fd := socket
  direction := .Out
  callback := writeSocket
  interest s := !s.outbound.stream.bufferEmpty || (s.outbound.stream.eof && !s.outboundShutdown)
  cancel s := { s with outbound := s.outbound.endInput }

/-- Rule 3: read from socket into inbound byte stream. -/
def rule3 : Rule Copier CopyAnswer CopyException where
  fd := socket
  direction := .In
  callback := readSocket
  interest s := !s.inbound.stream.error && 0 < s.inbound.stream.remainingCapacity &&
    !s.outbound.stream.error
  cancel s := { s with inbound := s.inbound.endInput }

/-- Rule 4: read from inbound byte stream into stdout. -/
def rule4 : Rule Copier CopyAnswer CopyException where
  fd := output
  direction := .Out
  callback := writeOutput
  interest s := !s.inbound.stream.bufferEmpty || (s.inbound.stream.eof && !s.inboundShutdown)
  cancel s := { s with inbound := s.inbound.endInput }

def rules : List (Rule Copier CopyAnswer CopyException) :=
  [rule1, rule2, rule3, rule4]

/-! ## §3 Runs -/

/-- The loop with its rules. -/
structure Running where
  rules : List (Rule Copier CopyAnswer CopyException) := Copier.rules
  copier : Copier := {}

/-- A pass of the loop, and what happens at the two sources. -/
inductive Event where
  | waitNextEvent (poll : Poll CopyAnswer)
  /-- bytes arrive on the standard input -/
  | typed (data : Bytes)
  | endOfInput
  /-- bytes arrive at the socket -/
  | received (data : Bytes)
  | endOfStream

/-- One event of a run.  An exception ends the run. -/
def Running.Step (r : Running) : Event → Running → Prop
  | .waitNextEvent poll, r' => ∃ result,
    EventLoop.waitNextEvent r.rules r.copier poll = .ok (result, r'.rules, r'.copier)
  | .typed data, r' => r.copier.outbound.closed = false ∧
    r' = { r with copier := { r.copier with outbound := r.copier.outbound.arrive data } }
  | .endOfInput, r' =>
    r' = { r with copier := { r.copier with outbound := r.copier.outbound.close } }
  | .received data, r' => r.copier.inbound.closed = false ∧
    r' = { r with copier := { r.copier with inbound := r.copier.inbound.arrive data } }
  | .endOfStream, r' =>
    r' = { r with copier := { r.copier with inbound := r.copier.inbound.close } }

/-- Perform an event, if it is possible. -/
def Running.perform (r : Running) : Event → Option Running
  | .waitNextEvent poll =>
    match EventLoop.waitNextEvent r.rules r.copier poll with
    | .ok (_, rules, copier) => some ⟨rules, copier⟩
    | .error _ => none
  | .typed data =>
    if r.copier.outbound.closed then none
    else some { r with copier := { r.copier with outbound := r.copier.outbound.arrive data } }
  | .endOfInput =>
    some { r with copier := { r.copier with outbound := r.copier.outbound.close } }
  | .received data =>
    if r.copier.inbound.closed then none
    else some { r with copier := { r.copier with inbound := r.copier.inbound.arrive data } }
  | .endOfStream =>
    some { r with copier := { r.copier with inbound := r.copier.inbound.close } }

theorem Running.step_of_perform {r r' : Running} {event : Event}
    (h : r.perform event = some r') : r.Step event r' := by
  cases event with
  | waitNextEvent poll =>
    simp only [perform] at h
    split at h
    · rename_i result rules copier hpass
      cases h
      exact ⟨result, hpass⟩
    · cases h
  | typed data =>
    simp only [perform] at h
    split at h
    · cases h
    · rename_i hopen
      cases h
      exact ⟨by simpa using hopen, rfl⟩
  | endOfInput =>
    cases h
    rfl
  | received data =>
    simp only [perform] at h
    split at h
    · cases h
    · rename_i hopen
      cases h
      exact ⟨by simpa using hopen, rfl⟩
  | endOfStream =>
    cases h
    rfl

end Copier

end Sponge
