import Sponge.Reassembler.Storage

/-!
# Assembling the Stream

`push_substring` stores a substring, flushes what continues the output, and closes the output
once the announced end is reached.  This module carries the invariant of the stored substrings
over to the output.

- `Assembled S r`: the invariant between two operations, for pushes that are slices of `S`
- `flushLoop_spans`: what a flush leaves, whatever the bytes are
- `flush_spec`: the flush writes a longer prefix of `S`
- `pushSubstring_spec`: a push of a slice returns and keeps the invariant
-/

namespace Sponge

namespace StreamReassembler

/-! ## §1 The invariant -/

structure Assembled (S : Bytes) (r : StreamReassembler) : Prop where
  stored : Stored S r
  -- what is stored does not continue the output, or it would have been flushed
  gap : ∀ seg ∈ r.buf, r.firstUnassembled < seg.idx
  written : r.output.written <+: S
  -- the end was not announced too early
  eofIndex : r.eof = true → r.output.inputEnded = false → S.length ≤ r.eofIndex
  ended : r.output.inputEnded = true → r.eof = true ∧ r.output.written = S

theorem Assembled.new (S : Bytes) (capacity : UInt64) : Assembled S (.new capacity) := by
  constructor
  · constructor <;> simp [StreamReassembler.new, Interval.Separated]
  all_goals simp [StreamReassembler.new]

/-- The invariant survives an extension of the stream, as long as its end was not announced. -/
theorem Assembled.mono {S T : Bytes} {r : StreamReassembler} (h : Assembled S r) (hST : S <+: T)
    (heof : r.eof = true → T = S) : Assembled T r := by
  refine ⟨⟨h.stored.separated, ?_, h.stored.above, h.stored.count⟩, h.gap, h.written.trans hST,
    ?_, ?_⟩
  · intro seg hmem
    have hpiece := h.stored.pieces seg hmem
    exact ⟨hpiece.nonempty, hpiece.slice.mono hST⟩
  · intro he hopen
    rw [heof he]
    exact h.eofIndex he hopen
  · intro hended
    obtain ⟨he, hw⟩ := h.ended hended
    exact ⟨he, by rw [heof he, hw]⟩

/-- What a flush leaves alone. -/
structure Flushes (r r' : StreamReassembler) : Prop where
  capacity : r'.capacity = r.capacity
  eof : r'.eof = r.eof
  eofIndex : r'.eofIndex = r.eofIndex
  outputCapacity : r'.output.capacity = r.output.capacity
  bytesRead : r'.output.bytesRead = r.output.bytesRead
  inputEnded : r'.output.inputEnded = r.output.inputEnded
  written : r.output.written <+: r'.output.written

theorem Flushes.trans {r r' r'' : StreamReassembler} (h₁ : Flushes r r') (h₂ : Flushes r' r'') :
    Flushes r r'' where
  capacity := h₂.capacity.trans h₁.capacity
  eof := h₂.eof.trans h₁.eof
  eofIndex := h₂.eofIndex.trans h₁.eofIndex
  outputCapacity := h₂.outputCapacity.trans h₁.outputCapacity
  bytesRead := h₂.bytesRead.trans h₁.bytesRead
  inputEnded := h₂.inputEnded.trans h₁.inputEnded
  written := h₁.written.trans h₂.written

/-! ## §2 The flush -/

theorem firstUnassembled_eq (r : StreamReassembler) :
    r.firstUnassembled = r.output.written.length :=
  r.output.bytesWritten_eq

/-- The state after one stored substring has been written. -/
def flushed (r : StreamReassembler) (seg : Segment) : StreamReassembler :=
  { r with
    output := (r.output.write seg.data).1
    unassembledBytes := r.unassembledBytes - seg.length }

theorem flushes_flushed (r : StreamReassembler) (seg : Segment) : Flushes r (r.flushed seg) := by
  constructor <;> simp [flushed]

theorem flushes_flushLoop (l : List Segment) (r : StreamReassembler) :
    Flushes r (flushLoop l r) := by
  induction l generalizing r with
  | nil => exact ⟨rfl, rfl, rfl, rfl, rfl, rfl, List.prefix_rfl⟩
  | cons seg rest ih =>
    rw [flushLoop]
    split
    · exact (r.flushes_flushed seg).trans (ih (r.flushed seg))
    · exact ⟨rfl, rfl, rfl, rfl, rfl, rfl, List.prefix_rfl⟩

theorem flushes_flush (r : StreamReassembler) : Flushes r r.flush :=
  flushes_flushLoop r.buf r

theorem firstUnassembled_flushed (r : StreamReassembler) (seg : Segment) :
    (r.flushed seg).firstUnassembled =
      r.firstUnassembled + (r.output.accepted seg.data).length := by
  rw [firstUnassembled_eq, firstUnassembled_eq, flushed, ByteStream.write_written,
    List.length_append]

theorem length_accepted_le (r : StreamReassembler) (seg : Segment) :
    (r.output.accepted seg.data).length ≤ seg.length := by
  unfold ByteStream.accepted Segment.length
  split
  · simp
  · simp

/-- The substrings after one that has been written start at or past the new end of the
    output. -/
theorem StoredAs.flushed {P : Segment → Prop} {r : StreamReassembler} {seg : Segment}
    {rest : List Segment} (h : StoredAs P { r with buf := seg :: rest })
    (hidx : seg.idx = r.firstUnassembled) : StoredAs P { r.flushed seg with buf := rest } := by
  obtain ⟨hhead, htail⟩ := List.pairwise_cons.mp h.separated
  refine ⟨htail, fun x hx => h.pieces x (List.mem_cons_of_mem _ hx), ?_, ?_⟩
  · intro x hx
    have h₁ := hhead x hx
    have h₂ := r.length_accepted_le seg
    show (r.flushed seg).firstUnassembled ≤ x.idx
    rw [firstUnassembled_flushed]
    omega
  · have hcount : total (seg :: rest) ≤ r.unassembledBytes := h.count
    rw [total_cons] at hcount
    show total rest ≤ r.unassembledBytes - seg.length
    omega

/-- What a flush of the substrings `l` leaves. -/
structure FlushedAs (P : Segment → Prop) (l : List Segment) (r r' : StreamReassembler) : Prop where
  stored : StoredAs P r'
  subset : r'.buf ⊆ l
  count : r'.unassembledBytes + total l = r.unassembledBytes + total r'.buf
  -- what is left does not continue the output
  gap : ∀ seg ∈ r'.buf, r'.firstUnassembled < seg.idx

/-- **The flush loop** over a sorted list of substrings that starts at or past the output. -/
theorem flushLoop_spans {P : Segment → Prop} : ∀ (l : List Segment) (r : StreamReassembler),
    StoredAs P { r with buf := l } → FlushedAs P l r (flushLoop l r) := by
  intro l
  induction l with
  | nil =>
    intro r h
    exact ⟨h, List.Subset.refl _, rfl, by simp [flushLoop]⟩
  | cons seg rest ih =>
    intro r h
    rw [flushLoop]
    split
    · -- the substring continues the output
      rename_i hidx
      have hrest := ih (r.flushed seg) (h.flushed hidx)
      refine ⟨hrest.stored, fun x hx => List.mem_cons_of_mem _ (hrest.subset hx), ?_, hrest.gap⟩
      have hcount : total (seg :: rest) ≤ r.unassembledBytes := h.count
      have hafter : (flushLoop rest (r.flushed seg)).unassembledBytes + total rest =
          r.unassembledBytes - seg.length + total (flushLoop rest (r.flushed seg)).buf :=
        hrest.count
      rw [total_cons] at hcount ⊢
      show (flushLoop rest (r.flushed seg)).unassembledBytes + _ =
        _ + total (flushLoop rest (r.flushed seg)).buf
      omega
    · -- the first substring left starts past the output
      rename_i hidx
      refine ⟨h, List.Subset.refl _, rfl, ?_⟩
      have hfirst : r.firstUnassembled < seg.idx := by
        have : r.firstUnassembled ≤ seg.idx := h.above seg List.mem_cons_self
        omega
      intro x hx
      rcases List.mem_cons.mp hx with rfl | hx
      · exact hfirst
      · have := (List.pairwise_cons.mp h.separated).1 x hx
        show r.firstUnassembled < x.idx
        omega

/-- Nothing is stored once the output is complete. -/
theorem Stored.buf_eq_nil {S : Bytes} {r : StreamReassembler} (h : Stored S r)
    (hfull : r.output.written = S) : r.buf = [] := by
  rw [List.eq_nil_iff_forall_not_mem]
  intro seg hmem
  have hpiece := h.pieces seg hmem
  have h₁ := hpiece.stop_le
  have h₂ := hpiece.length_pos
  have h₃ := h.above seg hmem
  rw [firstUnassembled_eq, hfull] at h₃
  omega

/-- A piece that starts at the end of the output extends the prefix. -/
theorem prefix_flushed {S : Bytes} {r : StreamReassembler} {seg : Segment} (hseg : Piece S seg)
    (hidx : seg.idx = r.firstUnassembled) (hw : r.output.written <+: S) :
    (r.flushed seg).output.written <+: S := by
  rw [flushed, ByteStream.write_written]
  apply Slice.At.extend_prefix hw
  rw [← firstUnassembled_eq, ← hidx]
  have htake : r.output.accepted seg.data <+: seg.data := by
    unfold ByteStream.accepted
    split
    · exact List.nil_prefix
    · exact List.take_prefix _ _
  exact htake.trans hseg.slice

/-- **The flush loop** over pieces of `S` writes a prefix of `S`. -/
theorem prefix_flushLoop {S : Bytes} : ∀ (l : List Segment) (r : StreamReassembler),
    (∀ seg ∈ l, Piece S seg) → r.output.written <+: S →
      (flushLoop l r).output.written <+: S := by
  intro l
  induction l with
  | nil => exact fun r _ hw => hw
  | cons seg rest ih =>
    intro r hpieces hw
    obtain ⟨hseg, hrest⟩ := List.forall_mem_cons.mp hpieces
    rw [flushLoop]
    split
    · rename_i hidx
      exact ih (r.flushed seg) hrest (prefix_flushed hseg hidx hw)
    · exact hw

theorem flush_spec {S : Bytes} {r : StreamReassembler} (h : Stored S r)
    (hw : r.output.written <+: S) :
    Stored S r.flush ∧ Flushes r r.flush ∧ r.flush.output.written <+: S ∧
      ∀ seg ∈ r.flush.buf, r.flush.firstUnassembled < seg.idx := by
  have hflush := flushLoop_spans r.buf r h.storedAs
  refine ⟨⟨hflush.stored.separated, hflush.stored.pieces, hflush.stored.above, ?_⟩,
    r.flushes_flush, prefix_flushLoop r.buf r h.pieces hw, hflush.gap⟩
  have hbefore := h.count
  have hafter := hflush.count
  show (flushLoop r.buf r).unassembledBytes = total (flushLoop r.buf r).buf
  omega

/-! ## §3 Closing the output -/

@[simp] theorem firstUnassembled_finish (r : StreamReassembler) :
    r.finish.firstUnassembled = r.firstUnassembled := by
  unfold finish
  split <;> rfl

/-- What closing leaves alone. -/
structure Finishes (r r' : StreamReassembler) : Prop where
  capacity : r'.capacity = r.capacity
  eof : r'.eof = r.eof
  eofIndex : r'.eofIndex = r.eofIndex
  outputCapacity : r'.output.capacity = r.output.capacity
  bytesRead : r'.output.bytesRead = r.output.bytesRead
  written : r'.output.written = r.output.written
  inputEnded : r.output.inputEnded = true → r'.output.inputEnded = true

theorem finishes_finish (r : StreamReassembler) : Finishes r r.finish := by
  unfold finish
  split
  · exact ⟨rfl, rfl, rfl, rfl, rfl, rfl, fun _ => rfl⟩
  · exact ⟨rfl, rfl, rfl, rfl, rfl, rfl, id⟩

/-- The output is not left open at the announced end. -/
theorem finish_closed (r : StreamReassembler) (heof : r.finish.eof = true)
    (hend : r.finish.firstUnassembled = r.finish.eofIndex) :
    r.finish.output.inputEnded = true := by
  unfold finish at *
  split
  · rfl
  · rename_i hcond
    rw [if_neg hcond] at heof hend
    exact absurd ⟨heof, hend⟩ hcond

/-- An output that is closed is complete, because the end was not announced too early. -/
theorem finish_assembled {S : Bytes} {r : StreamReassembler} (hstored : Stored S r)
    (hgap : ∀ seg ∈ r.buf, r.firstUnassembled < seg.idx) (hw : r.output.written <+: S)
    (heof : r.eof = true → r.output.inputEnded = false → S.length ≤ r.eofIndex)
    (hended : r.output.inputEnded = true → r.eof = true ∧ r.output.written = S) :
    Assembled S r.finish := by
  unfold finish
  split
  · rename_i hcond
    -- the announced end is at or past the end of `S`, and the output has reached it
    have hfull : r.output.written = S := by
      cases hopen : r.output.inputEnded with
      | true => exact (hended hopen).2
      | false =>
        have := heof hcond.1 hopen
        rw [← hcond.2, firstUnassembled_eq] at this
        exact hw.eq_of_length_le this
    refine ⟨⟨by simp [Interval.Separated], by simp, by simp, ?_⟩, by simp, hw, by simp, ?_⟩
    · rw [hstored.count, hstored.buf_eq_nil hfull]
    · exact fun _ => ⟨hcond.1, hfull⟩
  · exact ⟨hstored, hgap, hw, heof, hended⟩

/-! ## §4 A push -/

@[simp] theorem announce_output (r : StreamReassembler) (data : Bytes) (index : UInt64)
    (eof : Bool) : (r.announce data index eof).output = r.output := by
  unfold announce
  split <;> rfl

@[simp] theorem announce_capacity (r : StreamReassembler) (data : Bytes) (index : UInt64)
    (eof : Bool) : (r.announce data index eof).capacity = r.capacity := by
  unfold announce
  split <;> rfl

@[simp] theorem announce_buf (r : StreamReassembler) (data : Bytes) (index : UInt64)
    (eof : Bool) : (r.announce data index eof).buf = r.buf := by
  unfold announce
  split <;> rfl

@[simp] theorem announce_unassembledBytes (r : StreamReassembler) (data : Bytes)
    (index : UInt64) (eof : Bool) :
    (r.announce data index eof).unassembledBytes = r.unassembledBytes := by
  unfold announce
  split <;> rfl

@[simp] theorem announce_firstUnassembled (r : StreamReassembler) (data : Bytes)
    (index : UInt64) (eof : Bool) :
    (r.announce data index eof).firstUnassembled = r.firstUnassembled := by
  simp [firstUnassembled]

@[simp] theorem announce_firstUnacceptable (r : StreamReassembler) (data : Bytes)
    (index : UInt64) (eof : Bool) :
    (r.announce data index eof).firstUnacceptable = r.firstUnacceptable := by
  simp [firstUnacceptable, firstUnread]

theorem announce_stored {S : Bytes} {r : StreamReassembler} (h : Stored S r) (data : Bytes)
    (index : UInt64) (eof : Bool) : Stored S (r.announce data index eof) := by
  unfold announce
  split
  · exact ⟨h.separated, h.pieces, h.above, h.count⟩
  · exact h

theorem announce_eof (r : StreamReassembler) (data : Bytes) (index : UInt64) (eof : Bool) :
    (r.announce data index eof).eof = (r.eof || eof) := by
  unfold announce
  cases eof <;> simp

theorem announce_eofIndex (r : StreamReassembler) (data : Bytes) (index : UInt64) (eof : Bool) :
    (r.announce data index eof).eofIndex =
      if eof then sizeT (index.toNat + data.length) else r.eofIndex := by
  unfold announce
  cases eof <;> simp

/-- Storing a slice of `S`, or a substring that lies past the window. -/
theorem store_spec {S : Bytes} (hS : S.length < 2 ^ 64) {r : StreamReassembler} (h : Stored S r)
    {data : Bytes} {index : UInt64}
    (hdata : data ≠ [] → r.firstUnacceptable ≤ index.toNat ∨ Slice.At S index.toNat data) :
    ∃ r', r.store data index = .ok r' ∧ Stored S r' ∧
      r' = { r with buf := r'.buf, unassembledBytes := r'.unassembledBytes } := by
  unfold store
  by_cases hnil : data = []
  · exact ⟨r, by simp [hnil], h, rfl⟩
  · have hne : data.isEmpty = false := by simpa using hnil
    rw [hne]
    rcases hdata hnil with hpast | hslice
    · refine ⟨r, ?_, h, rfl⟩
      simp [handleSubstring, hpast]
    · have hpiece : Piece S { idx := index.toNat, data := data } := ⟨hnil, hslice⟩
      rcases handleSubstring_spec hS h hpiece with
        ⟨-, hrun⟩ | ⟨t, r', -, hrun, hinserted, hstored⟩
      · exact ⟨r, hrun, h, rfl⟩
      · exact ⟨r', hrun, hstored, hinserted.frame⟩

/-- What a push leaves alone or only extends. -/
structure Pushes (r : StreamReassembler) (data : Bytes) (index : UInt64) (last : Bool)
    (r' : StreamReassembler) : Prop where
  capacity : r'.capacity = r.capacity
  eof : r'.eof = (r.eof || last)
  eofIndex : r'.eofIndex = if last then sizeT (index.toNat + data.length) else r.eofIndex
  outputCapacity : r'.output.capacity = r.output.capacity
  bytesRead : r'.output.bytesRead = r.output.bytesRead
  written : r.output.written <+: r'.output.written
  inputEnded : r.output.inputEnded = true → r'.output.inputEnded = true
  -- the output is not left open at the announced end
  closed : r'.eof = true → r'.firstUnassembled = r'.eofIndex → r'.output.inputEnded = true

/-- What the reassembler knows once the end has been announced and a substring stored. -/
structure Announced (r : StreamReassembler) (data : Bytes) (index : UInt64) (last : Bool)
    (r₁ : StreamReassembler) : Prop where
  output : r₁.output = r.output
  capacity : r₁.capacity = r.capacity
  eof : r₁.eof = (r.eof || last)
  eofIndex : r₁.eofIndex = if last then sizeT (index.toNat + data.length) else r.eofIndex

theorem announced_of_frame {r r₁ : StreamReassembler} {data : Bytes} {index : UInt64}
    {eof : Bool} (hframe : r₁ = { r.announce data index eof with
      buf := r₁.buf, unassembledBytes := r₁.unassembledBytes }) :
    Announced r data index eof r₁ := by
  rw [hframe]
  exact ⟨r.announce_output data index eof, r.announce_capacity data index eof,
    r.announce_eof data index eof, r.announce_eofIndex data index eof⟩

section Finish

variable {S : Bytes} {r r₁ : StreamReassembler} {data : Bytes} {index : UInt64} {eof : Bool}

/-- Flushing and closing after a substring has been stored. -/
theorem finish_flush_assembled (h : Assembled S r)
    (heof : eof = true → r.output.inputEnded = false →
      S.length ≤ sizeT (index.toNat + data.length))
    (hstored : Stored S r₁) (hann : Announced r data index eof r₁) :
    Assembled S r₁.flush.finish := by
  obtain ⟨hst, hfl, hw, hgap⟩ := flush_spec hstored (hann.output ▸ h.written)
  refine finish_assembled hst hgap hw ?_ ?_
  · rw [hfl.eof, hfl.eofIndex, hfl.inputEnded, hann.output, hann.eof, hann.eofIndex]
    intro he hopen
    cases eof with
    | true => exact heof rfl hopen
    | false => exact h.eofIndex (by simpa using he) hopen
  · -- an output that had ended was complete already
    intro hended
    rw [hfl.inputEnded, hann.output] at hended
    obtain ⟨he, hfull⟩ := h.ended hended
    refine ⟨by rw [hfl.eof, hann.eof, he, Bool.true_or], ?_⟩
    have hgrown := hfl.written
    rw [hann.output, hfull] at hgrown
    exact hw.eq_of_length_le hgrown.length_le

theorem finish_flush_pushes (hann : Announced r data index eof r₁) :
    Pushes r data index eof r₁.flush.finish := by
  have hfl := r₁.flushes_flush
  have hfinish := finishes_finish r₁.flush
  have hout := hann.output
  constructor
  case capacity => rw [hfinish.capacity, hfl.capacity, hann.capacity]
  case eof => rw [hfinish.eof, hfl.eof, hann.eof]
  case eofIndex => rw [hfinish.eofIndex, hfl.eofIndex, hann.eofIndex]
  case outputCapacity => rw [hfinish.outputCapacity, hfl.outputCapacity, hout]
  case bytesRead => rw [hfinish.bytesRead, hfl.bytesRead, hout]
  case written =>
    rw [hfinish.written, ← hout]
    exact hfl.written
  case inputEnded =>
    intro hended
    apply hfinish.inputEnded
    rw [hfl.inputEnded, hout]
    exact hended
  case closed => exact r₁.flush.finish_closed

end Finish

/-- A push that returns has stored the substring. -/
theorem pushSubstring_announced {r r' : StreamReassembler} {data : Bytes} {index : UInt64}
    {eof : Bool} (hrun : r.pushSubstring data index eof = .ok r') :
    ∃ r₁, Announced r data index eof r₁ ∧ r' = r₁.flush.finish := by
  rw [pushSubstring] at hrun
  cases hstore : (r.announce data index eof).store data index with
  | error e =>
    rw [hstore] at hrun
    cases hrun
  | ok r₁ =>
    rw [hstore] at hrun
    exact ⟨r₁, announced_of_frame (store_frame hstore), (Except.ok.inj hrun).symm⟩

/-- **What a push leaves alone**, whatever is pushed. -/
theorem pushes_pushSubstring {r r' : StreamReassembler} {data : Bytes} {index : UInt64}
    {eof : Bool} (hrun : r.pushSubstring data index eof = .ok r') :
    Pushes r data index eof r' := by
  obtain ⟨r₁, hann, rfl⟩ := pushSubstring_announced hrun
  exact finish_flush_pushes hann

theorem error_flushLoop (l : List Segment) (r : StreamReassembler) :
    (flushLoop l r).output.error = r.output.error := by
  induction l generalizing r with
  | nil => rfl
  | cons seg rest ih =>
    rw [flushLoop]
    split
    · rw [ih]
      simp
    · rfl

/-- Whatever is pushed, the output does not get into the error state. -/
theorem error_pushSubstring {r r' : StreamReassembler} {data : Bytes} {index : UInt64}
    {eof : Bool} (hrun : r.pushSubstring data index eof = .ok r') :
    r'.output.error = r.output.error := by
  obtain ⟨r₁, hann, rfl⟩ := pushSubstring_announced hrun
  have hclose : r₁.flush.finish.output.error = r₁.flush.output.error := by
    unfold finish
    split <;> rfl
  rw [hclose, flush, error_flushLoop, hann.output]

/-- **A push of a slice of `S`** returns and keeps the invariant.  The index of an empty
    substring does not matter, apart from the end it may announce. -/
theorem pushSubstring_spec {S : Bytes} (hS : S.length < 2 ^ 64) {r : StreamReassembler}
    (h : Assembled S r) {data : Bytes} {index : UInt64} {eof : Bool}
    (hdata : data ≠ [] → r.firstUnacceptable ≤ index.toNat ∨ Slice.At S index.toNat data)
    (heof : eof = true → r.output.inputEnded = false →
      S.length ≤ sizeT (index.toNat + data.length)) :
    ∃ r', r.pushSubstring data index eof = .ok r' ∧ Assembled S r' ∧
      Pushes r data index eof r' := by
  have hann := announce_stored h.stored data index eof
  obtain ⟨r₁, hrun, hstored, hframe⟩ := store_spec hS hann
    ((r.announce_firstUnacceptable data index eof).symm ▸ hdata)
  have hannounced := announced_of_frame hframe
  refine ⟨r₁.flush.finish, ?_, finish_flush_assembled h heof hstored hannounced,
    finish_flush_pushes hannounced⟩
  rw [pushSubstring, hrun]
  rfl

/-- Reading from the output keeps the invariant. -/
theorem Assembled.read {S : Bytes} {r : StreamReassembler} (h : Assembled S r) (len : ℕ) :
    Assembled S { r with output := (r.output.read len).2 } :=
  ⟨⟨h.stored.separated, h.stored.pieces, h.stored.above, h.stored.count⟩, h.gap, h.written,
    h.eofIndex, h.ended⟩

end StreamReassembler

end Sponge
