import Mathlib.Data.List.Basic
import Mathlib.Data.UInt
import Mathlib.Tactic.Common
import Mathlib.Tactic.Simps.Basic

/-!
# In-order Byte Streams

Model of `libsponge/byte_stream.hh` and `byte_stream.cc`: a bounded FIFO of bytes
with a writing end that can be closed.

The data fields are those of the class.  `written` is a history variable: the bytes
the stream has ever accepted.  No operation reads it.  The remaining fields are the
invariant that ties the counters and the buffer to that history, so a stream whose
buffer overflows its capacity, or whose counters disagree with its contents, cannot
be built.

Byte counters are natural numbers; `size_t` parameters chosen by the caller keep
their 64-bit type.  The counters of the source wrap at `2 ^ 64`, so the model is exact for
the runs in which a stream accepts fewer than `2 ^ 64` bytes.
-/

namespace Sponge

/-- A byte of a stream. -/
abbrev Byte := UInt8

/-- A byte string. -/
abbrev Bytes := List Byte

/-- A bounded FIFO of bytes. -/
structure ByteStream where
  /-- `_buff`: written and not yet popped -/
  buff : Bytes
  /-- `capacity` -/
  capacity : UInt64
  /-- `bytes_r`, returned by `bytes_read()` -/
  bytesRead : ℕ
  /-- `bytes_w`, returned by `bytes_written()` -/
  bytesWritten : ℕ
  /-- `_end_input`, returned by `input_ended()` -/
  inputEnded : Bool
  /-- `_error`, returned by `error()` -/
  error : Bool
  /-- history: every byte ever accepted -/
  written : Bytes
  -- the counters and the buffer, in terms of the history
  buff_length_le : buff.length ≤ capacity.toNat
  bytesWritten_eq : bytesWritten = written.length
  bytesRead_le : bytesRead ≤ written.length
  buff_eq : buff = written.drop bytesRead
  deriving DecidableEq

namespace ByteStream

/-- The constructor `ByteStream(capacity)`. -/
@[simps]
def new (capacity : UInt64) : ByteStream where
  buff := []
  capacity := capacity
  bytesRead := 0
  bytesWritten := 0
  inputEnded := false
  error := false
  written := []
  buff_length_le := Nat.zero_le _
  bytesWritten_eq := rfl
  bytesRead_le := Nat.le_refl _
  buff_eq := rfl

/-! ## §1 Operations -/

/-- `remaining_capacity()` -/
def remainingCapacity (s : ByteStream) : ℕ :=
  s.capacity.toNat - s.buff.length

/-- `buffer_size()` -/
def bufferSize (s : ByteStream) : ℕ :=
  s.buff.length

/-- `buffer_empty()` -/
def bufferEmpty (s : ByteStream) : Bool :=
  s.buff.isEmpty

/-- `eof()` -/
def eof (s : ByteStream) : Bool :=
  s.inputEnded && s.bufferEmpty

/-- `write_size` of `write(data)` while the input is open. -/
def writeSize (s : ByteStream) (data : Bytes) : ℕ :=
  min data.length s.remainingCapacity

/-- `write(data)`: accept as much of `data` as fits, nothing once the input has ended.
    Returns the number of bytes accepted. -/
def write (s : ByteStream) (data : Bytes) : ByteStream × ℕ :=
  if s.inputEnded then (s, 0)
  else
    ({ s with
        -- what does not fit is dropped without notice
        buff := s.buff ++ data.take (s.writeSize data)
        bytesWritten := s.bytesWritten + s.writeSize data
        written := s.written ++ data.take (s.writeSize data)
        buff_length_le := by
          have := s.buff_length_le
          simp only [writeSize, remainingCapacity, List.length_append, List.length_take]
          omega
        bytesWritten_eq := by
          have := s.bytesWritten_eq
          simp only [writeSize, List.length_append, List.length_take]
          omega
        bytesRead_le := by
          have := s.bytesRead_le
          simp only [List.length_append]
          omega
        buff_eq := by
          rw [List.drop_append_of_le_length s.bytesRead_le, ← s.buff_eq] },
      s.writeSize data)

/-- `peek_output(len)` -/
def peekOutput (s : ByteStream) (len : ℕ) : Bytes :=
  s.buff.take (min len s.buff.length)

/-- `pop_output(len)` -/
@[simps]
def popOutput (s : ByteStream) (len : ℕ) : ByteStream :=
  { s with
    buff := s.buff.drop (min len s.buff.length)
    bytesRead := s.bytesRead + min len s.buff.length
    buff_length_le := by
      have := s.buff_length_le
      simp only [List.length_drop]
      omega
    bytesRead_le := by
      have h₁ := s.bytesRead_le
      have h₂ := congrArg List.length s.buff_eq
      simp only [List.length_drop] at h₂
      omega
    buff_eq := by
      conv_lhs => rw [s.buff_eq]
      rw [List.drop_drop, ← s.buff_eq] }

/-- `read(len)`: copy and then pop. -/
def read (s : ByteStream) (len : ℕ) : Bytes × ByteStream :=
  (s.peekOutput len, s.popOutput len)

/-- `end_input()` -/
@[simps]
def endInput (s : ByteStream) : ByteStream :=
  { s with inputEnded := true }

/-- `set_error()` -/
@[simps]
def setError (s : ByteStream) : ByteStream :=
  { s with error := true }

/-! ## §2 What the operations change -/

/-- What `write(data)` accepts. -/
def accepted (s : ByteStream) (data : Bytes) : Bytes :=
  if s.inputEnded then [] else data.take s.remainingCapacity

variable (s : ByteStream)

private theorem take_writeSize (data : Bytes) :
    data.take (s.writeSize data) = data.take s.remainingCapacity := by
  rw [writeSize, Nat.min_comm, ← List.take_take, List.take_length]

@[simp] theorem write_written (data : Bytes) :
    (s.write data).1.written = s.written ++ s.accepted data := by
  unfold write accepted
  split <;> simp [take_writeSize]

@[simp] theorem write_buff (data : Bytes) :
    (s.write data).1.buff = s.buff ++ s.accepted data := by
  unfold write accepted
  split <;> simp [take_writeSize]

@[simp] theorem write_bytesRead (data : Bytes) :
    (s.write data).1.bytesRead = s.bytesRead := by
  unfold write; split <;> rfl

@[simp] theorem write_capacity (data : Bytes) :
    (s.write data).1.capacity = s.capacity := by
  unfold write; split <;> rfl

@[simp] theorem write_inputEnded (data : Bytes) :
    (s.write data).1.inputEnded = s.inputEnded := by
  unfold write; split <;> rfl

@[simp] theorem write_error (data : Bytes) :
    (s.write data).1.error = s.error := by
  unfold write; split <;> rfl

/-! ## §3 Counters, buffer and history -/

/-- The buffer holds exactly the bytes written and not yet read. -/
theorem bytesWritten_eq_add : s.bytesWritten = s.bytesRead + s.buff.length := by
  have h₁ := s.bytesRead_le
  have h₂ := s.bytesWritten_eq
  have h₃ := congrArg List.length s.buff_eq
  simp only [List.length_drop] at h₃
  omega

/-- `eof` in terms of the counters. -/
theorem eof_iff : s.eof = true ↔ s.inputEnded = true ∧ s.buff = [] := by
  simp [eof, bufferEmpty]

/-- The bytes returned by `read` continue the bytes read so far. -/
theorem take_popOutput_bytesRead (len : ℕ) :
    s.written.take (s.popOutput len).bytesRead =
      s.written.take s.bytesRead ++ s.peekOutput len := by
  rw [popOutput_bytesRead, List.take_add, peekOutput, ← s.buff_eq]

/-- `peek_output` returns a prefix of the buffer. -/
theorem length_peekOutput (len : ℕ) :
    (s.peekOutput len).length = min len s.buff.length := by
  simp [peekOutput]

/-- Streams that agree on the data fields are equal. -/
theorem ext_data {s t : ByteStream} (hb : s.buff = t.buff) (hc : s.capacity = t.capacity)
    (hr : s.bytesRead = t.bytesRead) (hw : s.written = t.written)
    (he : s.inputEnded = t.inputEnded) (herr : s.error = t.error) : s = t := by
  -- `bytesWritten` is determined by the history
  have hbw : s.bytesWritten = t.bytesWritten := by
    rw [s.bytesWritten_eq, t.bytesWritten_eq, hw]
  cases s; cases t
  simp_all

/-- Reading from an empty buffer changes nothing. -/
theorem popOutput_of_buff_nil (len : ℕ) (h : s.buff = []) : s.popOutput len = s := by
  apply ext_data <;> simp [h]

end ByteStream

end Sponge
