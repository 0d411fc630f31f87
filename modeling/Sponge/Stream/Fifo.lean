import Sponge.ByteStream

/-!
# A Byte Stream is a Bounded FIFO

What goes into a stream comes out in order, nothing is lost or repeated, and the buffer never
exceeds the capacity.  The bytes that go in and come out are read off the results of the calls,
not off the history that `ByteStream` carries.

- `conservation`: one call, then a whole run
- `inputEnded_run`: the input ends where `end_input` is called, and nowhere else
- `bounded_fifo`: the contract of a stream after any calls
-/

namespace Sponge

namespace ByteStream

/-! ## §1 Calls -/

/-- The calls on a stream. -/
inductive Op where
  | write (data : Bytes)
  | read (len : ℕ)
  | peekOutput (len : ℕ)
  | popOutput (len : ℕ)
  | endInput
  deriving DecidableEq, Repr

/-- The stream after a call. -/
def apply (s : ByteStream) : Op → ByteStream
  | .write data => (s.write data).1
  | .read len => (s.read len).2
  -- a `const` method
  | .peekOutput _ => s
  | .popOutput len => s.popOutput len
  | .endInput => s.endInput

def run (s : ByteStream) (ops : List Op) : ByteStream :=
  ops.foldl apply s

/-- The bytes of its argument that a call says it has accepted. -/
def acceptedBy (s : ByteStream) : Op → Bytes
  | .write data => data.take (s.write data).2
  | _ => []

/-- The bytes that a call returns and removes, or removes without returning them. -/
def takenBy (s : ByteStream) : Op → Bytes
  | .read len => (s.read len).1
  | .popOutput len => s.buff.take (s.buff.length - (s.popOutput len).buff.length)
  | _ => []

/-- The bytes accepted in a run. -/
def acceptedIn : ByteStream → List Op → Bytes
  | _, [] => []
  | s, op :: ops => s.acceptedBy op ++ acceptedIn (s.apply op) ops

/-- The bytes taken in a run. -/
def takenIn : ByteStream → List Op → Bytes
  | _, [] => []
  | s, op :: ops => s.takenBy op ++ takenIn (s.apply op) ops

/-! ## §2 One call -/

section Call

variable (s : ByteStream)

/-- What `write` returns. -/
theorem write_snd (data : Bytes) :
    (s.write data).2 = if s.inputEnded then 0 else min data.length s.remainingCapacity := by
  unfold write
  split <;> rfl

/-- What `write` returns is what it accepts. -/
theorem take_write_snd (data : Bytes) : data.take (s.write data).2 = s.accepted data := by
  rw [write_snd, accepted]
  split
  · simp
  · rw [Nat.min_comm, ← List.take_take, List.take_length]

/-- `pop_output` removes what `peek_output` shows. -/
theorem takenBy_popOutput (len : ℕ) : s.takenBy (.popOutput len) = s.peekOutput len := by
  have hlen : s.buff.length - (s.buff.length - min len s.buff.length) = min len s.buff.length := by
    omega
  rw [takenBy, popOutput_buff, List.length_drop, hlen, peekOutput]

theorem peekOutput_append_popOutput (len : ℕ) :
    s.peekOutput len ++ (s.popOutput len).buff = s.buff := by
  rw [peekOutput, popOutput_buff, List.take_append_drop]

/-- **One call moves bytes through the buffer.** -/
theorem conservation_apply (op : Op) :
    s.buff ++ s.acceptedBy op = s.takenBy op ++ (s.apply op).buff := by
  cases op with
  | write data =>
    show s.buff ++ data.take (s.write data).2 = [] ++ (s.write data).1.buff
    rw [take_write_snd, write_buff, List.nil_append]
  | read len =>
    show s.buff ++ [] = s.peekOutput len ++ (s.popOutput len).buff
    rw [peekOutput_append_popOutput, List.append_nil]
  | peekOutput len => simp [acceptedBy, takenBy, apply]
  | popOutput len =>
    rw [takenBy_popOutput]
    show s.buff ++ [] = s.peekOutput len ++ (s.popOutput len).buff
    rw [peekOutput_append_popOutput, List.append_nil]
  | endInput => simp [acceptedBy, takenBy, apply]

theorem bytesWritten_apply (op : Op) :
    (s.apply op).bytesWritten = s.bytesWritten + (s.acceptedBy op).length := by
  cases op with
  | write data =>
    show (s.write data).1.bytesWritten = s.bytesWritten + (data.take (s.write data).2).length
    rw [take_write_snd, bytesWritten_eq, bytesWritten_eq, write_written, List.length_append]
  | read len => rfl
  | peekOutput len => rfl
  | popOutput len => rfl
  | endInput => rfl

theorem bytesRead_apply (op : Op) :
    (s.apply op).bytesRead = s.bytesRead + (s.takenBy op).length := by
  cases op with
  | write data => exact s.write_bytesRead data
  | read len =>
    show (s.popOutput len).bytesRead = s.bytesRead + (s.peekOutput len).length
    rw [popOutput_bytesRead, length_peekOutput]
  | peekOutput len => rfl
  | popOutput len =>
    rw [takenBy_popOutput, length_peekOutput]
    exact s.popOutput_bytesRead len
  | endInput => rfl

theorem capacity_apply (op : Op) : (s.apply op).capacity = s.capacity := by
  cases op with
  | write data => exact s.write_capacity data
  | read len => rfl
  | peekOutput len => rfl
  | popOutput len => rfl
  | endInput => rfl

/-- Only `end_input` ends the input. -/
theorem inputEnded_apply (op : Op) :
    (s.apply op).inputEnded = (s.inputEnded || decide (op = .endInput)) := by
  cases op with
  | write data =>
    rw [apply, write_inputEnded]
    simp
  | read len => simp [apply, read]
  | peekOutput len => simp [apply]
  | popOutput len => simp [apply]
  | endInput => simp [apply]

/-- Nothing gets into a stream at its end. -/
theorem eof_apply (h : s.eof = true) (op : Op) : (s.apply op).eof = true := by
  obtain ⟨hended, hnil⟩ := s.eof_iff.mp h
  cases op with
  | write data =>
    have hsame : (s.write data).1 = s := by simp [write, hended]
    rw [apply, hsame]
    exact h
  | read len =>
    show (s.popOutput len).eof = true
    rw [s.popOutput_of_buff_nil len hnil]
    exact h
  | peekOutput len => exact h
  | popOutput len =>
    show (s.popOutput len).eof = true
    rw [s.popOutput_of_buff_nil len hnil]
    exact h
  | endInput => exact (s.endInput).eof_iff.mpr ⟨rfl, hnil⟩

end Call

/-! ## §3 Whole runs -/

/-- **A run moves bytes through the buffer.** -/
theorem conservation (ops : List Op) : ∀ s : ByteStream,
    s.buff ++ acceptedIn s ops = takenIn s ops ++ (s.run ops).buff := by
  induction ops with
  | nil =>
    intro s
    simp [acceptedIn, takenIn, run]
  | cons op ops ih =>
    intro s
    calc s.buff ++ (s.acceptedBy op ++ acceptedIn (s.apply op) ops)
        = s.takenBy op ++ ((s.apply op).buff ++ acceptedIn (s.apply op) ops) := by
          rw [← List.append_assoc, s.conservation_apply, List.append_assoc]
      _ = s.takenBy op ++ takenIn (s.apply op) ops ++ (s.run (op :: ops)).buff := by
          rw [ih, List.append_assoc]
          rfl

theorem counters_run (ops : List Op) : ∀ s : ByteStream,
    (s.run ops).bytesWritten = s.bytesWritten + (acceptedIn s ops).length ∧
      (s.run ops).bytesRead = s.bytesRead + (takenIn s ops).length ∧
      (s.run ops).capacity = s.capacity := by
  induction ops with
  | nil => exact fun s => ⟨rfl, rfl, rfl⟩
  | cons op ops ih =>
    intro s
    obtain ⟨hwritten, hread, hcapacity⟩ := ih (s.apply op)
    refine ⟨hwritten.trans ?_, hread.trans ?_, hcapacity.trans (s.capacity_apply op)⟩
    · rw [bytesWritten_apply, acceptedIn, List.length_append, Nat.add_assoc]
    · rw [bytesRead_apply, takenIn, List.length_append, Nat.add_assoc]

theorem inputEnded_run (ops : List Op) : ∀ s : ByteStream,
    (s.run ops).inputEnded = (s.inputEnded || decide (.endInput ∈ ops)) := by
  induction ops with
  | nil =>
    intro s
    simp [run]
  | cons op ops ih =>
    intro s
    calc ((s.apply op).run ops).inputEnded
        = (s.inputEnded || decide (op = .endInput) || decide (.endInput ∈ ops)) := by
          rw [ih, inputEnded_apply]
      _ = (s.inputEnded || decide (.endInput ∈ op :: ops)) := by
          rw [Bool.or_assoc, ← Bool.decide_or]
          simp only [List.mem_cons, eq_comm]

theorem eof_run (ops : List Op) : ∀ s : ByteStream, s.eof = true → (s.run ops).eof = true := by
  induction ops with
  | nil => exact fun s h => h
  | cons op ops ih => exact fun s h => ih (s.apply op) (s.eof_apply h op)

/-- The contract of a stream of this capacity after the calls `ops`, in which it has accepted and
    given out these bytes. -/
structure BoundedFifo (capacity : UInt64) (ops : List Op) (s : ByteStream)
    (accepted taken : Bytes) : Prop where
  fifo : accepted = taken ++ s.buff
  -- the three counters
  bytesWritten : s.bytesWritten = accepted.length
  bytesRead : s.bytesRead = taken.length
  bufferSize : s.bytesWritten = s.bytesRead + s.bufferSize
  -- the subtraction in `remaining_capacity()` does not wrap
  bounded : s.bufferSize ≤ capacity.toNat
  remaining : s.remainingCapacity + s.bufferSize = capacity.toNat
  -- input has ended exactly if `end_input` has been called
  inputEnded : s.inputEnded = decide (.endInput ∈ ops)
  write : ∀ data,
    (s.write data).2 = (if s.inputEnded then 0 else min data.length s.remainingCapacity) ∧
      (s.write data).1.buff = s.buff ++ data.take (s.write data).2
  peek : ∀ len, s.peekOutput len <+: (s.read len).1 ∧ s.apply (.peekOutput len) = s
  eof : s.eof = true → ∀ more, (s.run more).eof = true

/-- **A stream is a bounded FIFO**, after any calls. -/
theorem bounded_fifo (capacity : UInt64) (ops : List Op) :
    BoundedFifo capacity ops ((ByteStream.new capacity).run ops) (acceptedIn (.new capacity) ops)
      (takenIn (.new capacity) ops) := by
  obtain ⟨hwritten, hread, hcapacity⟩ := counters_run ops (.new capacity)
  have hended := inputEnded_run ops (.new capacity)
  generalize hs : (ByteStream.new capacity).run ops = s at hwritten hread hcapacity hended ⊢
  have hfull := s.buff_length_le
  rw [hcapacity] at hfull
  constructor
  case fifo => rw [← hs, ← conservation ops (.new capacity), new_buff, List.nil_append]
  case bytesWritten => rw [hwritten, new_bytesWritten, Nat.zero_add]
  case bytesRead => rw [hread, new_bytesRead, Nat.zero_add]
  case bufferSize => exact s.bytesWritten_eq_add
  case bounded => exact hfull
  case remaining =>
    rw [remainingCapacity, bufferSize, hcapacity]
    exact Nat.sub_add_cancel hfull
  case inputEnded => rw [hended, new_inputEnded, Bool.false_or]
  case write => exact fun data => ⟨s.write_snd data, by rw [write_buff, take_write_snd]⟩
  case peek => exact fun len => ⟨List.prefix_rfl, rfl⟩
  case eof => exact fun heof more => eof_run more s heof

end ByteStream

end Sponge
