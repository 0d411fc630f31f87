import Sponge.ByteStream
import Sponge.Lib.BigEndian

/-!
# Buffers, Parsers and Unparsers

Model of `util/buffer.hh`, `buffer.cc`, `util/parser.hh` and `parser.cc`.

## Modelling notes

- A `Buffer` is the byte string it still holds; a `BufferList` is the list of its buffers.
- A `NetParser` is the state of a parser, and its methods are actions on that state.  Before a
  method touches the buffer it checks that enough bytes are left, so the exceptions of
  `Buffer::at` and `Buffer::remove_prefix` are not raised.
- An integer of `len` bytes is read into a type of exactly that width.
-/

namespace Sponge

/-- `std::runtime_error`, with its text. -/
structure RuntimeError where
  what : String
  deriving DecidableEq, Repr

/-! ## §1 Buffer lists -/

/-- `BufferList` -/
structure BufferList where
  buffers : List Bytes
  deriving DecidableEq, Repr

namespace BufferList

/-- The constructors from a `Buffer` and from a string. -/
def ofBuffer (buffer : Bytes) : BufferList where
  buffers := [buffer]

/-- `append(other)` -/
def append (l other : BufferList) : BufferList where
  buffers := l.buffers ++ other.buffers

/-- `size()` -/
def size (l : BufferList) : ℕ :=
  (l.buffers.map List.length).sum

/-- `concatenate()` -/
def concatenate (l : BufferList) : Bytes :=
  l.buffers.flatten

/-- `operator Buffer()` -/
def toBuffer (l : BufferList) : Except RuntimeError Bytes :=
  match l.buffers with
  | [] => .ok []
  | [buffer] => .ok buffer
  | _ => .error ⟨"BufferList: please use concatenate() to combine a multi-Buffer " ++
      "BufferList into one Buffer"⟩

theorem length_concatenate (l : BufferList) : l.concatenate.length = l.size := by
  simp [concatenate, size, List.length_flatten]

@[simp] theorem concatenate_ofBuffer (buffer : Bytes) :
    (ofBuffer buffer).concatenate = buffer := by
  simp [concatenate, ofBuffer]

@[simp] theorem concatenate_append (l other : BufferList) :
    (l.append other).concatenate = l.concatenate ++ other.concatenate := by
  simp [concatenate, append]

end BufferList

/-! ## §2 Parsers -/

/-- `ParseResult` -/
inductive ParseResult where
  | NoError | BadChecksum | PacketTooShort | WrongIPVersion | HeaderTooShort | TruncatedPacket
  | Unsupported
  deriving DecidableEq, Repr

/-- `NetParser` -/
structure NetParser where
  buffer : Bytes
  /-- the result of parsing so far -/
  error : ParseResult := .NoError
  deriving DecidableEq, Repr

namespace NetParser

/-- `_check_size(size)` -/
def checkSize (size : ℕ) (p : NetParser) : NetParser :=
  if p.buffer.length < size then { p with error := .PacketTooShort } else p

/-- `_parse_int<T>()` for a type `T` of `len` bytes. -/
def parseInt (len : ℕ) : StateM NetParser ℕ := fun p =>
  let p := p.checkSize len
  -- a field past the end reads as zero, and nothing is consumed any more
  if p.error ≠ .NoError then (0, p)
  else (BigEndian.value (p.buffer.take len), { p with buffer := p.buffer.drop len })

/-- `u32()` -/
def u32 : StateM NetParser UInt32 :=
  return UInt32.ofNat (← parseInt 4)

/-- `u16()` -/
def u16 : StateM NetParser UInt16 :=
  return UInt16.ofNat (← parseInt 2)

/-- `u8()` -/
def u8 : StateM NetParser UInt8 :=
  return UInt8.ofNat (← parseInt 1)

/-- `remove_prefix(n)` -/
def removePrefix (n : ℕ) : StateM NetParser Unit := fun p =>
  let p := p.checkSize n
  if p.error ≠ .NoError then ((), p)
  else ((), { p with buffer := p.buffer.drop n })

/-- `get_error()` -/
def getError : StateM NetParser ParseResult :=
  return (← get).error

end NetParser

/-! ## §3 Unparsers -/

namespace NetUnparser

/-- `_unparse_int<T>(s, val)` for a type `T` of `len` bytes. -/
def unparseInt (len : ℕ) (s : Bytes) (val : ℕ) : Bytes :=
  s ++ BigEndian.bytes len val

/-- `u32(s, val)` -/
def u32 (s : Bytes) (val : UInt32) : Bytes :=
  unparseInt 4 s val.toNat

/-- `u16(s, val)` -/
def u16 (s : Bytes) (val : UInt16) : Bytes :=
  unparseInt 2 s val.toNat

/-- `u8(s, val)` -/
def u8 (s : Bytes) (val : UInt8) : Bytes :=
  unparseInt 1 s val.toNat

end NetUnparser

/-- `s.resize(n)`: cut or padded with zero bytes. -/
def resize (s : Bytes) (n : ℕ) : Bytes :=
  s.take n ++ List.replicate (n - s.length) 0

theorem resize_of_le {s : Bytes} {n : ℕ} (h : s.length ≤ n) :
    resize s n = s ++ List.replicate (n - s.length) 0 := by
  rw [resize, List.take_of_length_le h]

end Sponge
