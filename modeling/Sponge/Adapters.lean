import Sponge.TCPOverIP

/-!
# Datagram Adapters

Model of `tcp_helpers/fd_adapter.hh`, `fd_adapter.cc`, `lossy_fd_adapter.hh` and
`tuntap_adapter.hh`: the classes that a `TCPSpongeSocket` may be instantiated with.

## Modelling notes

- `FdAdapter` is what the template `TCPSpongeSocket<AdaptT>` asks of its parameter: `read()` and
  `write(seg)`.  The descriptor below an adapter is a member of the socket's model.
- `read()` takes the datagram that is next in line; the number drawn by a random generator is a
  parameter of both methods.
- The ports that `write` sets are set in a segment that its caller throws away.
-/

namespace Sponge

/-- What a `TCPSpongeSocket` asks of its `AdaptT`.  `δ` are the datagrams of the layer below. -/
class FdAdapter (α : Type) (δ : outParam Type) where
  /-- `read()`, when the datagram is next and the generator yields the number -/
  read : α → δ → UInt32 → Except RuntimeError (Option TCPSegment × α)
  /-- `write(seg)`: the datagram that is sent, if any -/
  write : α → TCPSegment → UInt32 → Except RuntimeError (Option δ)
  /-- whether reading the datagram makes the descriptor report its end -/
  meetsEof : δ → Bool

/-! ## §1 TCP over IPv4 over a TUN device -/

/-- `TCPOverIPv4OverTunFdAdapter` -/
structure TCPOverIPv4OverTunFdAdapter extends TCPOverIPv4Adapter
  deriving DecidableEq, Repr

namespace TCPOverIPv4OverTunFdAdapter

/-- `read()` -/
def read (a : TCPOverIPv4OverTunFdAdapter) (bytes : Bytes) :
    Except RuntimeError (Option TCPSegment × TCPOverIPv4OverTunFdAdapter) :=
  let (result, ipDgram) := IPv4Datagram.parse {} bytes
  if result ≠ .NoError then .ok (none, a)
  else (a.unwrapTcpInIp ipDgram).map fun (seg, adapter) => (seg, ⟨adapter⟩)

/-- `write(seg)` -/
def write (a : TCPOverIPv4OverTunFdAdapter) (seg : TCPSegment) : Except RuntimeError Bytes := do
  let (ipDgram, _) ← a.wrapTcpInIp seg
  let buffers ← ipDgram.serialize
  return buffers.concatenate

instance : FdAdapter TCPOverIPv4OverTunFdAdapter Bytes where
  read a bytes _ := a.read bytes
  write a seg _ := (a.write seg).map some
  -- `FileDescriptor::read` takes an empty read for the end of the file
  meetsEof bytes := bytes.isEmpty

end TCPOverIPv4OverTunFdAdapter

/-! ## §2 TCP over UDP -/

/-- A UDP datagram between two sockets. -/
structure UDPDatagram where
  sourceAddress : Address
  destination : Address
  payload : Bytes
  deriving DecidableEq, Repr

/-- The state of a `TCPOverUDPSocketAdapter`. -/
structure TCPOverUDPSocketAdapter where
  source : Address := {}
  destination : Address := {}
  listening : Bool := false
  /-- the address that the kernel puts on what `_sock` sends -/
  localAddress : Address := {}
  deriving DecidableEq, Repr

namespace TCPOverUDPSocketAdapter

/-- `UDPSocket::recv(mtu)`, for the default `mtu` -/
def recv (datagram : UDPDatagram) : Except RuntimeError UDPDatagram :=
  if 65536 < datagram.payload.length then .error ⟨"recvfrom (oversized datagram)"⟩
  else .ok datagram

/-- `read()` -/
def read (a : TCPOverUDPSocketAdapter) (datagram : UDPDatagram) :
    Except RuntimeError (Option TCPSegment × TCPOverUDPSocketAdapter) := do
  let datagram ← recv datagram
  -- is it for us?
  if !a.listening && datagram.sourceAddress ≠ a.destination then return (none, a)
  -- is the payload a valid segment?
  let (result, seg) := TCPSegment.parse {} datagram.payload 0
  if result ≠ .NoError then return (none, a)
  -- should we target this source in all future replies?
  if a.listening then
    if seg.header.syn && !seg.header.rst then
      return (some seg, { a with destination := datagram.sourceAddress, listening := false })
    else return (none, a)
  return (some seg, a)

/-- The ports that `write` sets. -/
def setPorts (a : TCPOverUDPSocketAdapter) (seg : TCPSegment) : TCPSegment :=
  { seg with header := { seg.header with sport := a.source.port, dport := a.destination.port } }

/-- `write(seg)` -/
def write (a : TCPOverUDPSocketAdapter) (seg : TCPSegment) : Except RuntimeError UDPDatagram := do
  let buffers ← (a.setPorts seg).serialize 0
  return {
    sourceAddress := a.localAddress
    destination := a.destination
    payload := buffers.concatenate }

instance : FdAdapter TCPOverUDPSocketAdapter UDPDatagram where
  read a datagram _ := a.read datagram
  write a seg _ := (a.write seg).map some
  meetsEof _ := false

end TCPOverUDPSocketAdapter

/-! ## §3 Loss -/

/-- `LossyFdAdapter<AdapterT>`, with the loss rates of its `FdAdapterConfig`. -/
structure LossyFdAdapter (α : Type) where
  adapter : α
  lossRateDn : UInt16 := 0
  lossRateUp : UInt16 := 0

namespace LossyFdAdapter

variable {α δ : Type}

/-- `_should_drop(uplink)` -/
def shouldDrop (a : LossyFdAdapter α) (uplink : Bool) (random : UInt32) : Bool :=
  let loss := if uplink then a.lossRateUp else a.lossRateDn
  loss ≠ 0 && random.toUInt16 < loss

/-- `read()`: the datagram is read, and what was found in it may be dropped. -/
def read [FdAdapter α δ] (a : LossyFdAdapter α) (datagram : δ) (random : UInt32) :
    Except RuntimeError (Option TCPSegment × LossyFdAdapter α) := do
  let (ret, adapter) ← FdAdapter.read a.adapter datagram random
  if a.shouldDrop false random then return (none, { a with adapter })
  else return (ret, { a with adapter })

/-- `write(seg)` -/
def write [FdAdapter α δ] (a : LossyFdAdapter α) (seg : TCPSegment) (random : UInt32) :
    Except RuntimeError (Option δ) :=
  if a.shouldDrop true random then .ok none
  else FdAdapter.write a.adapter seg random

instance [FdAdapter α δ] : FdAdapter (LossyFdAdapter α) δ where
  read := read
  write := write
  meetsEof datagram := FdAdapter.meetsEof α datagram

end LossyFdAdapter

end Sponge
