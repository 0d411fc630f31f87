import Sponge.Adapters
import Sponge.TCPSpongeSocket

/-!
# A Socket with Its Adapter and Its Application

The instances `TCPSpongeSocket<AdaptT>` of `tcp_helpers/tcp_sponge_socket.cc`.  The model of the
socket leaves open what the adapter finds in a datagram and which bytes the application has
written.  Here both are part of the state: the adapter, the datagrams it has written, and the
pair of stream sockets between the application and the thread.

## Modelling notes

- The end of the socket pair on the side of the thread does not block.  Reading from it fails
  when the application has written nothing and may still write.  Otherwise the kernel hands
  over at least one byte, and nothing at all only when the application has shut down its end.
- What the thread writes to the application stays in `inbox`, whether it has been read or not.
- `passed` is a history variable that no function reads.
-/

namespace Sponge

open EventLoop (Rule Poll)

/-- A `TCPSpongeSocket<AdaptT>` and what is around it. -/
structure Endpoint (α δ : Type) where
  socket : TCPSpongeSocket
  adapter : α
  /-- every datagram that the adapter has written -/
  wire : List δ := []
  /-- what the application has written to its end of the socket pair -/
  outbox : Bytes := []
  /-- the number of these bytes that the thread has read -/
  taken : ℕ := 0
  /-- the application writes no more -/
  outboxClosed : Bool := false
  /-- what the thread has written to the application -/
  inbox : Bytes := []
  /-- history: the datagrams in which the adapter has found a segment -/
  passed : List δ := []

/-- What a callback may throw. -/
inductive EndpointException where
  | socket (e : SocketException)
  /-- an exception of the adapter -/
  | adapter (e : RuntimeError)
  deriving DecidableEq, Repr

/-- What the system calls of a callback answer. -/
structure SystemAnswer (δ : Type) where
  /-- the call fails -/
  fails : Bool := false
  /-- the datagram that is next in line -/
  datagram : δ
  /-- the numbers that the random generator of the adapter yields -/
  random : ℕ → UInt32 := fun _ => 0
  /-- how many bytes the kernel would move -/
  amount : ℕ := 0

namespace Endpoint

variable {α δ : Type} [FdAdapter α δ]

/-- The bytes that the application has written and the thread has not read. -/
def pending (e : Endpoint α δ) : Bytes :=
  e.outbox.drop e.taken

/-! ## §1 The callbacks -/

/-- The callback of rule 1. -/
def readSegment (a : SystemAnswer δ) (e : Endpoint α δ) :
    Except EndpointException (Endpoint α δ) :=
  if a.fails then .error (.socket .unixError)
  else
    match FdAdapter.read e.adapter a.datagram (a.random 0) with
    | .error err => .error (.adapter err)
    | .ok (segment, adapter) =>
      match e.socket.readSegment { segment, adapterEof := FdAdapter.meetsEof α a.datagram } with
      | .error err => .error (.socket err)
      | .ok socket => .ok { e with
          socket, adapter
          passed := if segment.isSome then e.passed ++ [a.datagram] else e.passed }

/-- The bytes that the kernel hands over when rule 2 reads. -/
def available (a : SystemAnswer δ) (e : Endpoint α δ) : Bytes :=
  e.pending.take (a.amount + 1)

/-- The callback of rule 2. -/
def readData (a : SystemAnswer δ) (e : Endpoint α δ) :
    Except EndpointException (Endpoint α δ) :=
  if a.fails || (e.pending.isEmpty && !e.outboxClosed) then .error (.socket .unixError)
  else
    let available := available a e
    let (data, _) := e.socket.threadData.read e.socket.tcp.remainingOutboundCapacity available
    match e.socket.readData { available } with
    | .error err => .error (.socket err)
    | .ok socket => .ok { e with socket, taken := e.taken + data.length }

/-- The callback of rule 3. -/
def writeData (a : SystemAnswer δ) (e : Endpoint α δ) :
    Except EndpointException (Endpoint α δ) :=
  let inbound := e.socket.tcp.inboundStream
  let buffer := inbound.peekOutput (min 65536 inbound.bufferSize)
  match e.socket.writeData { fails := a.fails, taken := a.amount } with
  | .error err => .error (.socket err)
  | .ok socket => .ok { e with socket, inbox := e.inbox ++ buffer.take a.amount }

/-- The loop of rule 4: the datagrams that are written for the segments. -/
def writeAll (adapter : α) (random : ℕ → UInt32) :
    ℕ → List TCPSegment → Except RuntimeError (List δ)
  | _, [] => .ok []
  | i, seg :: segs => do
    let datagram ← FdAdapter.write adapter seg (random i)
    let datagrams ← writeAll adapter random (i + 1) segs
    return datagram.toList ++ datagrams

/-- The callback of rule 4. -/
def writeSegments (a : SystemAnswer δ) (e : Endpoint α δ) :
    Except EndpointException (Endpoint α δ) :=
  match writeAll e.adapter a.random 0 e.socket.segmentsOut with
  | .error err => .error (.adapter err)
  | .ok datagrams =>
    match e.socket.writeSegments { fails := a.fails, sent := UInt32.ofNat datagrams.length } with
    | .error err => .error (.socket err)
    | .ok socket => .ok { e with socket, wire := e.wire ++ datagrams }

/-! ## §2 The rules -/

/-- A rule of the socket, with the callback of this instance. -/
def ruleOf (rule : Rule TCPSpongeSocket Answer SocketException)
    (callback : SystemAnswer δ → Endpoint α δ → Except EndpointException (Endpoint α δ)) :
    Rule (Endpoint α δ) (SystemAnswer δ) EndpointException where
  fd e := rule.fd e.socket
  direction := rule.direction
  callback := callback
  interest e := rule.interest e.socket
  cancel e := { e with socket := rule.cancel e.socket }

section Rules

variable (α δ)

def rule1 : Rule (Endpoint α δ) (SystemAnswer δ) EndpointException :=
  ruleOf TCPSpongeSocket.rule1 readSegment

def rule2 : Rule (Endpoint α δ) (SystemAnswer δ) EndpointException :=
  ruleOf TCPSpongeSocket.rule2 readData

def rule3 : Rule (Endpoint α δ) (SystemAnswer δ) EndpointException :=
  ruleOf TCPSpongeSocket.rule3 writeData

def rule4 : Rule (Endpoint α δ) (SystemAnswer δ) EndpointException :=
  ruleOf TCPSpongeSocket.rule4 writeSegments

/-- The rules that `_initialize_TCP` installs. -/
def rules : List (Rule (Endpoint α δ) (SystemAnswer δ) EndpointException) :=
  [rule1 α δ, rule2 α δ, rule3 α δ, rule4 α δ]

end Rules

/-! ## §3 Runs -/

/-- An endpoint with its event loop. -/
structure Running (α δ : Type) where
  rules : List (Rule (Endpoint α δ) (SystemAnswer δ) EndpointException)
  endpoint : Endpoint α δ

/-- `connect(c_tcp, c_ad)` up to its event loop; `adapter` is configured by `c_ad`. -/
def connect (config : TCPConfig) (randomDevice : UInt32) (adapter : α) : Running α δ where
  rules := rules α δ
  endpoint := { socket := (TCPSpongeSocket.connect config randomDevice).socket, adapter }

/-- `listen_and_accept(c_tcp, c_ad)` up to its event loop; `adapter` is configured by `c_ad` and
    listening. -/
def listenAndAccept (config : TCPConfig) (randomDevice : UInt32) (adapter : α) :
    Running α δ where
  rules := rules α δ
  endpoint := { socket := (TCPSpongeSocket.listenAndAccept config randomDevice).socket, adapter }

/-- How a socket is opened. -/
structure Opening (α : Type) where
  config : TCPConfig := {}
  randomDevice : UInt32 := 0
  /-- the adapter, configured and possibly listening -/
  adapter : α
  /-- `connect` or `listen_and_accept` -/
  connects : Bool

/-- The socket when its event loop starts. -/
def Opening.start (o : Opening α) : Running α δ :=
  if o.connects then connect o.config o.randomDevice o.adapter
  else listenAndAccept o.config o.randomDevice o.adapter

/-- The two parts of a round of `_tcp_loop`, and what the application does at its end of the
    socket pair. -/
inductive Event (δ : Type) where
  | waitNextEvent (poll : Poll (SystemAnswer δ))
  | tick (ms : UInt64)
  | write (data : Bytes)
  | shutdown

/-- One event of a run.  An exception ends the run. -/
def Running.Step (r : Running α δ) : Event δ → Running α δ → Prop
  | .waitNextEvent poll, r' => ∃ result,
    EventLoop.waitNextEvent r.rules r.endpoint poll = .ok (result, r'.rules, r'.endpoint)
  | .tick ms, r' =>
    r' = { r with endpoint := { r.endpoint with socket := r.endpoint.socket.tick ms } }
  | .write data, r' => r.endpoint.outboxClosed = false ∧
    r' = { r with endpoint := { r.endpoint with outbox := r.endpoint.outbox ++ data } }
  | .shutdown, r' => r' = { r with endpoint := { r.endpoint with outboxClosed := true } }

/-- Perform an event, if it is possible. -/
def Running.perform (r : Running α δ) : Event δ → Option (Running α δ)
  | .waitNextEvent poll =>
    match EventLoop.waitNextEvent r.rules r.endpoint poll with
    | .ok (_, rules, endpoint) => some ⟨rules, endpoint⟩
    | .error _ => none
  | .tick ms => some { r with endpoint := { r.endpoint with socket := r.endpoint.socket.tick ms } }
  | .write data =>
    if r.endpoint.outboxClosed then none
    else some { r with endpoint := { r.endpoint with outbox := r.endpoint.outbox ++ data } }
  | .shutdown => some { r with endpoint := { r.endpoint with outboxClosed := true } }

omit [FdAdapter α δ] in
theorem Running.step_of_perform {r r' : Running α δ} {event : Event δ}
    (h : r.perform event = some r') : r.Step event r' := by
  cases event with
  | waitNextEvent poll =>
    simp only [perform] at h
    split at h
    · rename_i result rules endpoint hpass
      cases h
      exact ⟨result, hpass⟩
    · cases h
  | tick ms =>
    cases h
    rfl
  | write data =>
    simp only [perform] at h
    split at h
    · cases h
    · rename_i hopen
      cases h
      exact ⟨by simpa using hopen, rfl⟩
  | shutdown =>
    cases h
    rfl

end Endpoint

end Sponge
