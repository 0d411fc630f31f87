import Sponge.ByteStream
import Sponge.Lib.Slice

/-!
# Stream Reassembler

Model of `libsponge/stream_reassembler.hh` and `stream_reassembler.cc`.

Substrings of a byte stream arrive in any order and may overlap.  Those inside the
window are stored in `_buf`, a `std::set` ordered by start index, and flushed to the
output stream as soon as they continue it.

## Modelling notes

- `_buf` is the list of its elements in the order of the set.
- Indices are `size_t`: sums and differences that the source computes with a
  caller-supplied index or capacity are reduced modulo `2 ^ 64`.  The counters of bytes
  written and read are not.
- `std::string::substr` throws when its position lies past the end of the string, so
  the functions that call it return in `Except StdException`.
-/

namespace Sponge

/-- The exceptions of the standard library that the modelled code can raise. -/
inductive StdException where
  /-- `std::out_of_range` -/
  | outOfRange
  deriving DecidableEq, Repr

/-- A number reduced to `size_t`. -/
def sizeT (n : ℕ) : ℕ :=
  n % 2 ^ 64

/-- The difference of two numbers in `size_t`. -/
def sizeTSub (a b : ℕ) : ℕ :=
  sizeT (a + (2 ^ 64 - sizeT b))

theorem sizeTSub_of_le {a b : ℕ} (hba : b ≤ a) (ha : a < 2 ^ 64) : sizeTSub a b = a - b := by
  unfold sizeTSub sizeT
  omega

/-- Taking away the whole difference leaves none. -/
theorem sizeTSub_add_self (a b : ℕ) : sizeTSub a (b + sizeTSub a b) = 0 := by
  unfold sizeTSub sizeT
  omega

/-- Taking away a part leaves the rest. -/
theorem sizeTSub_add_of_le {a b n : ℕ} (h : n ≤ sizeTSub a b) :
    sizeTSub a (b + n) + n = sizeTSub a b := by
  unfold sizeTSub sizeT at *
  omega

/-- `s.substr(pos, n)` -/
def substr (s : Bytes) (pos : ℕ) (n : ℕ) : Except StdException Bytes :=
  if s.length < pos then .error .outOfRange else .ok ((s.drop pos).take n)

/-- `StreamReassembler::Segment`: a stored substring. -/
structure Segment where
  idx : ℕ
  data : Bytes
  deriving DecidableEq, Repr

namespace Segment

/-- `length()` -/
def length (seg : Segment) : ℕ :=
  seg.data.length

/-- `tail_idx()`: the index of the last byte. -/
def tailIdx (seg : Segment) : ℕ :=
  sizeTSub (sizeT (seg.idx + seg.length)) 1

end Segment

/-- `StreamReassembler` -/
structure StreamReassembler where
  /-- the reassembled in-order byte stream -/
  output : ByteStream
  /-- the maximum number of bytes -/
  capacity : UInt64
  /-- the index just past the last byte, once known -/
  eofIndex : ℕ
  /-- returned by `unassembled_bytes()` -/
  unassembledBytes : ℕ
  /-- the last byte has been announced -/
  eof : Bool
  /-- the stored substrings, ordered by index -/
  buf : List Segment
  deriving DecidableEq

namespace StreamReassembler

/-- The constructor `StreamReassembler(capacity)`. -/
def new (capacity : UInt64) : StreamReassembler where
  output := .new capacity
  capacity := capacity
  eofIndex := 0
  unassembledBytes := 0
  eof := false
  buf := []

/-! ## §1 Window -/

/-- `first_unread()` -/
def firstUnread (r : StreamReassembler) : ℕ :=
  r.output.bytesRead

/-- `first_unassembled()` -/
def firstUnassembled (r : StreamReassembler) : ℕ :=
  r.output.bytesWritten

/-- `first_unacceptable()` -/
def firstUnacceptable (r : StreamReassembler) : ℕ :=
  sizeT (r.firstUnread + r.capacity.toNat)

/-- `empty()` -/
def empty (r : StreamReassembler) : Bool :=
  r.buf.isEmpty

/-! ## §2 The set of stored substrings -/

/-- Insertion into a `std::set` ordered by index: an element with the same index stays. -/
def setInsert (seg : Segment) : List Segment → List Segment
  | [] => [seg]
  | x :: xs =>
    if seg.idx < x.idx then seg :: x :: xs
    else if x.idx < seg.idx then x :: setInsert seg xs
    else x :: xs

/-- `_buf_erase(iter)` -/
def bufErase (r : StreamReassembler) (iter : Segment) : StreamReassembler :=
  { r with
    unassembledBytes := r.unassembledBytes - iter.length
    buf := r.buf.erase iter }

/-- `_buf_insert(seg)` -/
def bufInsert (r : StreamReassembler) (seg : Segment) : StreamReassembler :=
  { r with
    unassembledBytes := r.unassembledBytes + seg.length
    buf := setInsert seg r.buf }

/-- `_merge_seg(seg1, seg2)`: extend `seg1` by what `seg2` adds to it. -/
def mergeSeg (seg1 seg2 : Segment) : Except StdException Segment :=
  let seg1Tail := seg1.tailIdx
  let seg2Tail := seg2.tailIdx
  -- `seg2` continues `seg1`
  if seg1.idx < seg2.idx ∧ seg1Tail ≤ seg2Tail then do
    let head ← substr seg1.data 0 (seg2.idx - seg1.idx)
    return { seg1 with data := head ++ seg2.data }
  -- `seg1` continues `seg2`
  else if seg2.idx ≤ seg1.idx ∧ seg2Tail < seg1Tail then do
    let rest ← substr seg1.data (sizeTSub (sizeT (seg2.idx + seg2.length)) seg1.idx)
      seg1.data.length
    return { idx := seg2.idx, data := seg2.data ++ rest }
  -- `seg1` lies inside `seg2`; in the case left over `seg2` lies inside `seg1`
  else if seg2.idx ≤ seg1.idx ∧ seg1Tail ≤ seg2Tail then
    return { idx := seg2.idx, data := seg2.data }
  else
    return seg1

/-- The overlap test of `_handle_overlap`. -/
def overlaps (segIndex segTail : ℕ) (iter : Segment) : Bool :=
  -- the new substring starts inside the stored one, or the stored one inside the new one
  (segIndex ≤ iter.tailIdx && iter.idx ≤ segIndex) ||
    (iter.idx ≤ segTail && segIndex ≤ iter.idx)

/-- The loop of `_handle_overlap`: the stored substrings that overlap the new one are merged
    into it and removed.  The test uses the bounds the new substring had before the loop. -/
def overlapLoop (segIndex segTail : ℕ) :
    List Segment → StreamReassembler → Segment → Except StdException (StreamReassembler × Segment)
  | [], r, seg => .ok (r, seg)
  | iter :: rest, r, seg =>
    if overlaps segIndex segTail iter then do
      let merged ← mergeSeg seg iter
      overlapLoop segIndex segTail rest (r.bufErase iter) merged
    else
      overlapLoop segIndex segTail rest r seg

/-- `_handle_overlap(seg)` -/
def handleOverlap (r : StreamReassembler) (seg : Segment) :
    Except StdException StreamReassembler := do
  let (r', merged) ← overlapLoop seg.idx seg.tailIdx r.buf r seg
  return r'.bufInsert merged

/-- The first cut of `_handle_substring`, at `first_unassembled()`. -/
def cutLeft (r : StreamReassembler) (seg : Segment) : Except StdException Segment :=
  if seg.idx < r.firstUnassembled ∧ r.firstUnassembled ≤ seg.tailIdx then do
    let data ← substr seg.data (r.firstUnassembled - seg.idx) seg.data.length
    return { idx := r.firstUnassembled, data := data }
  else
    return seg

/-- The second cut, at `first_unacceptable()`.  It measures from `index`, the start that the
    substring had before the first cut. -/
def cutRight (r : StreamReassembler) (index : ℕ) (seg : Segment) : Except StdException Segment :=
  if index < r.firstUnacceptable ∧ r.firstUnacceptable ≤ seg.tailIdx then do
    let data ← substr seg.data 0 (r.firstUnacceptable - index)
    return { seg with data := data }
  else
    return seg

/-- The two cuts of `_handle_substring`. -/
def truncate (r : StreamReassembler) (seg : Segment) : Except StdException Segment := do
  let cut ← r.cutLeft seg
  r.cutRight seg.idx cut

/-- `_handle_substring(seg)` -/
def handleSubstring (r : StreamReassembler) (seg : Segment) :
    Except StdException StreamReassembler :=
  if r.firstUnacceptable ≤ seg.idx ∨ seg.tailIdx < r.firstUnassembled then
    .ok r
  else do
    -- what is left of the substring is inserted, merged with what it overlaps
    let seg ← r.truncate seg
    if r.buf.isEmpty then
      return r.bufInsert seg
    else
      r.handleOverlap seg

/-! ## §3 Pushing a substring -/

/-- The loop of `push_substring` that writes the stored substrings that continue the output,
    over the elements of the set. -/
def flushLoop : List Segment → StreamReassembler → StreamReassembler
  | [], r => { r with buf := [] }
  | seg :: rest, r =>
    if seg.idx = r.firstUnassembled then
      -- the piece leaves the set even if the output does not take all of it
      flushLoop rest
        { r with
          output := (r.output.write seg.data).1
          unassembledBytes := r.unassembledBytes - seg.length }
    else
      { r with buf := seg :: rest }

/-- Flush `_buf` to the output. -/
def flush (r : StreamReassembler) : StreamReassembler :=
  flushLoop r.buf r

/-- The end-of-stream test that closes the output. -/
def finish (r : StreamReassembler) : StreamReassembler :=
  if r.eof ∧ r.firstUnassembled = r.eofIndex then
    { r with output := r.output.endInput, buf := [] }
  else
    r

/-- The end-of-stream announcement of `push_substring`. -/
def announce (r : StreamReassembler) (data : Bytes) (index : UInt64) (eof : Bool) :
    StreamReassembler :=
  if eof then { r with eofIndex := sizeT (index.toNat + data.length), eof := true } else r

/-- The first part of `push_substring`: a non-empty substring is stored. -/
def store (r : StreamReassembler) (data : Bytes) (index : UInt64) :
    Except StdException StreamReassembler :=
  if data.isEmpty then .ok r
  else r.handleSubstring { idx := index.toNat, data := data }

/-- `push_substring(data, index, eof)` -/
def pushSubstring (r : StreamReassembler) (data : Bytes) (index : UInt64) (eof : Bool) :
    Except StdException StreamReassembler := do
  let r ← (r.announce data index eof).store data index
  return r.flush.finish

end StreamReassembler

end Sponge
