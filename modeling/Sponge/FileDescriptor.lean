import Sponge.EventLoop
import Sponge.Lib.Loop
import Sponge.Parser
import Sponge.StreamReassembler

/-!
# File Descriptors

Model of `util/file_descriptor.hh` and `file_descriptor.cc`, of the class `BufferViewList` of
`util/buffer.hh` and `buffer.cc`, and of `SystemCall` of `util/util.cc`.

## Modelling notes

- A view is the bytes it shows, an `iovec` is the bytes it points to, and a `BufferViewList` is
  the list of its views.
- The system call `writev` is a function of the number of the call and of the bytes that it is
  offered.  Its third parameter is an `int`, so what is offered are the first so many `iovec`s;
  a negative count offers nothing.
- The conversions between `size_t`, `ssize_t` and `int` that the source leaves to the compiler
  are written out.
- The loop of `write` also records what the kernel has taken, the bytes handed over so far.
-/

namespace Sponge

/-! ## §1 Conversions -/

/-- A number converted to `int`. -/
def asInt (n : ℤ) : ℤ :=
  (n + 2 ^ 31) % 2 ^ 32 - 2 ^ 31

/-- A number converted to `ssize_t`. -/
def asSsizeT (n : ℤ) : ℤ :=
  (n + 2 ^ 63) % 2 ^ 64 - 2 ^ 63

/-- A number converted to `size_t`. -/
def asSizeT (n : ℤ) : ℕ :=
  (n % 2 ^ 64).toNat

theorem asInt_of_lt {n : ℕ} (h : n < 2 ^ 31) : asInt n = n := by
  unfold asInt
  omega

theorem asSsizeT_of_lt {n : ℕ} (h : n < 2 ^ 63) : asSsizeT n = n := by
  unfold asSsizeT
  omega

theorem asSizeT_of_lt {n : ℕ} (h : n < 2 ^ 64) : asSizeT n = n := by
  unfold asSizeT
  omega

/-! ## §2 Buffer views -/

/-- `BufferViewList` -/
structure BufferViewList where
  views : List Bytes
  deriving DecidableEq, Repr

namespace BufferViewList

/-- `size()` -/
def size (l : BufferViewList) : ℕ :=
  l.views.foldl (fun ret buf => sizeT (ret + buf.length)) 0

/-- The loop of `remove_prefix`. -/
def removeFront : ℕ → List Bytes → Except StdException (List Bytes)
  | 0, views => .ok views
  | _ + 1, [] => .error .outOfRange
  | n + 1, front :: views =>
    if n + 1 < front.length then .ok (front.drop (n + 1) :: views)
    else removeFront (n + 1 - front.length) views

/-- `remove_prefix(n)` -/
def removePrefix (l : BufferViewList) (n : ℕ) : Except StdException BufferViewList :=
  (removeFront n l.views).map BufferViewList.mk

/-- `as_iovecs()` -/
def asIovecs (l : BufferViewList) : List Bytes :=
  l.views

end BufferViewList

/-! ## §3 System calls -/

/-- What a write may throw. -/
inductive WriteException where
  /-- `unix_error`, with the name of the system call -/
  | unixError (attempt : String)
  | runtimeError (e : RuntimeError)
  | std (e : StdException)
  deriving DecidableEq, Repr

/-- `SystemCall(attempt, return_value)`, which accepts no error: `errno_mask` is zero. -/
def systemCall (attempt : String) (returnValue errno : ℤ) : Except WriteException ℤ :=
  -- the parameter is an `int`, whatever the system call returns
  let returnValue := asInt returnValue
  if 0 ≤ returnValue ∨ errno = 0 then .ok returnValue
  else .error (.unixError attempt)

/-- What `writev` returns, and the value of `errno` after it. -/
structure WritevResult where
  returnValue : ℤ
  errno : ℤ
  deriving DecidableEq, Repr

/-- The bytes that `writev(fd, iovecs, iovcnt)` is offered. -/
def offered (iovecs : List Bytes) (iovcnt : ℤ) : Bytes :=
  (iovecs.take iovcnt.toNat).flatten

/-! ## §4 Descriptors -/

namespace FileDescriptor

/-- `register_read()` -/
def registerRead (fd : FileDescriptor) : FileDescriptor :=
  { fd with readCount := fd.readCount + 1 }

/-- `register_write()` -/
def registerWrite (fd : FileDescriptor) : FileDescriptor :=
  { fd with writeCount := fd.writeCount + 1 }

/-- `read(limit)`, when the kernel has the bytes `available`. -/
def read (fd : FileDescriptor) (limit : ℕ) (available : Bytes) : Bytes × FileDescriptor :=
  let sizeToRead := min (1024 * 1024) limit
  let str := available.take sizeToRead
  let fd := if 0 < limit ∧ str.length = 0 then { fd with eof := true } else fd
  (str, fd.registerRead)

section Read

variable (fd : FileDescriptor) (limit : ℕ) (available : Bytes)

/-- A read meets the end of the file when it is given nothing. -/
theorem eof_read_iff : (fd.read limit available).2.eof = true ↔
    fd.eof = true ∨ (0 < limit ∧ (fd.read limit available).1 = []) := by
  unfold read registerRead
  dsimp only
  rw [← List.length_eq_zero_iff]
  split
  · rename_i hend
    exact iff_of_true rfl (.inr hend)
  · rename_i hmore
    exact (or_iff_left hmore).symm

/-- A read does not close the descriptor. -/
theorem closed_read : (fd.read limit available).2.closed = fd.closed := by
  unfold read registerRead
  dsimp only
  split <;> rfl

theorem readCount_read : (fd.read limit available).2.readCount = fd.readCount + 1 := by
  unfold read registerRead
  dsimp only
  split <;> rfl

end Read

/-- The variables of the loop of `write`, and the kernel's side of it. -/
structure WriteState where
  fd : FileDescriptor
  buffer : BufferViewList
  totalBytesWritten : ℕ := 0
  -- the number of calls of `writev`, and the bytes that they have handed over
  calls : ℕ := 0
  handedOver : Bytes := []

/-- The body of the loop of `write`. -/
def writeOnce (writev : ℕ → Bytes → WritevResult) (s : WriteState) :
    Except WriteException WriteState := do
  let iovecs := s.buffer.asIovecs
  let offer := offered iovecs (asInt iovecs.length)
  let result := writev s.calls offer
  let bytesWritten ← systemCall "writev" result.returnValue result.errno
  if bytesWritten = 0 ∧ s.buffer.size ≠ 0 then
    throw (.runtimeError ⟨"write returned 0 given non-empty input buffer"⟩)
  if bytesWritten > asSsizeT s.buffer.size then
    throw (.runtimeError ⟨"write wrote more than length of input buffer"⟩)
  match s.buffer.removePrefix (asSizeT bytesWritten) with
  | .error e => throw (.std e)
  | .ok buffer =>
    return {
      fd := s.fd.registerWrite
      buffer
      totalBytesWritten := sizeT (s.totalBytesWritten + asSizeT bytesWritten)
      calls := s.calls + 1
      handedOver := s.handedOver ++ offer.take result.returnValue.toNat }

/-- One round of the loop of `write`. -/
def writeRound (writev : ℕ → Bytes → WritevResult) (writeAll : Bool) (s : WriteState) :
    Loop.Round WriteState (Except WriteException WriteState) :=
  match writeOnce writev s with
  | .error e => .exit (.error e)
  | .ok s => if writeAll && s.buffer.size ≠ 0 then .next s else .exit (.ok s)

/-- `write(buffer, write_all)`, with at most so many calls of `writev`.  What it returns is the
    total of the final state. -/
def write (writev : ℕ → Bytes → WritevResult) (fd : FileDescriptor) (buffer : BufferViewList)
    (writeAll : Bool) (calls : ℕ) : Option (Except WriteException WriteState) :=
  Loop.iterate (writeRound writev writeAll) calls { fd, buffer }

end FileDescriptor

end Sponge
