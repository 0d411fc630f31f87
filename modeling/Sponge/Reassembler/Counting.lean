import Sponge.Reassembler.Capacity

/-!
# The Count of the Stored Bytes

`unassembled_bytes()` returns a counter that `_buf_insert` and `_buf_erase` keep next to the set
of stored substrings.  The end of the stream empties the set with `_buf.clear()`, which leaves
the counter alone.

- `Counted r`: the counter is the number of stored indices
- `Discards r data index eof`: the push completes the stream while something is stored past its
  end
- `Tallied r`: the invariant between two calls
- `counted_iff`: the counter is right throughout a run if and only if no push discards anything
-/

namespace Sponge

namespace StreamReassembler

open Execution (Trace Always Along)

/-! ## §1 The counter and its defect -/

/-- The index of a push lies below `2 ^ 63`. -/
def Input.Low : Input → Prop
  | .push _ _ index _ => index.toNat < 2 ^ 63
  | .read _ => True

/-- The calls on a reassembler, with any data at low indices. -/
def LowInput : Type :=
  { i : Input // i.Low }

def LowFeeds (r : StreamReassembler) (i : LowInput) (r' : StreamReassembler) : Prop :=
  Feeds r i.val r'

/-- `unassembled_bytes()` is the number of the stored indices. -/
structure Counted (r : StreamReassembler) : Prop where
  count : r.unassembledBytes = (Interval.cover Segment.idx Segment.length r.buf).card
  empty : r.empty = true ↔ r.unassembledBytes = 0

/-- The byte at `k` is stored already, or admitted by the push and inside the window. -/
def Holds (r : StreamReassembler) (data : Bytes) (index : UInt64) (k : ℕ) : Prop :=
  (Covered r.buf k ∨ r.Admits data index k) ∧ k < r.windowEnd

/-- With the pushed bytes the output ends at `stop`. -/
structure EndsAt (r : StreamReassembler) (data : Bytes) (index : UInt64) (stop : ℕ) : Prop where
  start : r.firstUnassembled ≤ stop
  held : ∀ k, r.firstUnassembled ≤ k → k < stop →
    r.output.inputEnded = false ∧ r.Holds data index k
  gap : ¬ r.Holds data index stop

/-- The end of the stream as it is known after a push. -/
def announcedEnd (r : StreamReassembler) (data : Bytes) (index : UInt64) (eof : Bool) : ℕ :=
  if eof then index.toNat + data.length else r.eofIndex

/-- The push completes the stream while something is stored past its end. -/
structure Discards (r : StreamReassembler) (data : Bytes) (index : UInt64) (eof : Bool) : Prop where
  announced : r.eof = true ∨ eof = true
  complete : r.EndsAt data index (r.announcedEnd data index eof)
  beyond : ∃ k, r.announcedEnd data index eof < k ∧ r.Holds data index k

/-- The call does not discard anything that is counted. -/
def KeepsCount (r : StreamReassembler) (i : LowInput) : Prop :=
  match i.val with
  | .push data _ index eof => ¬ r.Discards data index eof
  | .read _ => True

/-! ## §2 The flush -/

section Flush

variable {r : StreamReassembler}

/-- A substring that reaches past the window continues the output and is the only one. -/
theorem Crowded.within_or_only (h : Crowded r) : ∀ x ∈ r.buf,
    x.idx + x.length ≤ r.windowEnd ∨ (x.idx = r.firstUnassembled ∧ ∀ y ∈ r.buf, y = x) := by
  intro x hx
  by_cases hin : x.idx + x.length ≤ r.windowEnd
  · exact .inl hin
  · have hstart := (h.within x hx).resolve_left hin
    refine .inr ⟨hstart, fun y hy => ?_⟩
    by_contra hne
    -- another one would have to start past the window
    have hend := r.firstUnassembled_le_windowEnd
    have hpos := reshaping_solid.length_pos (h.stored.pieces y hy)
    have habove := h.stored.above y hy
    have hy' := h.within y hy
    have := Interval.Separated.before_or_after h.stored.separated hy hx hne
    omega

/-- An open output takes what is stored from its end on, as far as the window goes. -/
theorem Crowded.flush_cover_open (h : Crowded r) (hopen : r.output.inputEnded = false) (k : ℕ) :
    (k < r.flush.firstUnassembled ∨ Covered r.flush.buf k) ↔
      k < r.firstUnassembled ∨ (Covered r.buf k ∧ k < r.windowEnd) :=
  (flushLoop_cover (fun _ => reshaping_solid.length_pos) r.buf r h.stored hopen
    h.within_or_only).1 k

/-- An output that has ended takes nothing.  A substring that would continue it is erased. -/
theorem flushLoop_ended : ∀ (l : List Segment) (r : StreamReassembler),
    r.output.inputEnded = true →
      (flushLoop l r).firstUnassembled = r.firstUnassembled ∧
      ∀ x ∈ l, r.firstUnassembled < x.idx → x ∈ (flushLoop l r).buf := by
  intro l
  induction l with
  | nil => exact fun r _ => ⟨rfl, by simp⟩
  | cons seg rest ih =>
    intro r hended
    rw [flushLoop]
    split
    · rename_i hidx
      have hfu : (r.flushed seg).firstUnassembled = r.firstUnassembled := by
        rw [firstUnassembled_flushed, ByteStream.accepted, if_pos hended]
        rfl
      obtain ⟨hstays, hkeeps⟩ := ih (r.flushed seg) (by simpa [flushed] using hended)
      rw [hfu] at hstays hkeeps
      refine ⟨hstays, fun x hx hlt => ?_⟩
      rcases List.mem_cons.mp hx with rfl | hx
      · omega
      · exact hkeeps x hx hlt
    · exact ⟨rfl, fun x hx _ => hx⟩

end Flush

/-- Where a front that was at `lo` has moved to, if it takes what is held and leaves a gap. -/
theorem front_iff {held stored : ℕ → Prop} {lo front : ℕ} (hle : lo ≤ front)
    (hgap : ∀ k, stored k → front < k) (hcover : ∀ k, (k < front ∨ stored k) ↔ k < lo ∨ held k)
    (stop : ℕ) :
    front = stop ↔ lo ≤ stop ∧ (∀ k, lo ≤ k → k < stop → held k) ∧ ¬ held stop := by
  constructor
  · rintro rfl
    refine ⟨hle, fun k hlo hk => ?_, fun hheld => ?_⟩
    · exact ((hcover k).mp (.inl hk)).resolve_left (Nat.not_lt.mpr hlo)
    · rcases (hcover front).mpr (.inr hheld) with hlt | hstored
      · exact Nat.lt_irrefl _ hlt
      · exact Nat.lt_irrefl _ (hgap _ hstored)
  · rintro ⟨hlo, hall, hnot⟩
    rcases Nat.lt_trichotomy front stop with hlt | heq | hgt
    · -- the front would have moved on
      rcases (hcover front).mpr (.inr (hall front hle hlt)) with hlt | hstored
      · exact absurd hlt (Nat.lt_irrefl _)
      · exact absurd (hgap _ hstored) (Nat.lt_irrefl _)
    · exact heq
    · rcases (hcover stop).mp (.inl hgt) with hlt | hheld
      · omega
      · exact absurd hheld hnot

/-! ## §3 The invariant -/

/-- The counter is exact, and nothing is stored once the end has been reached. -/
structure Tallied (r : StreamReassembler) : Prop extends Bounded r where
  solid : ∀ seg ∈ r.buf, Solid seg
  exact : r.unassembledBytes = total r.buf
  cleared : r.eof = true → r.firstUnassembled = r.eofIndex → r.buf = []

theorem Tallied.new (capacity : UInt64) : Tallied (.new capacity) where
  toBounded := Bounded.new capacity
  solid := by simp [StreamReassembler.new]
  exact := rfl
  cleared _ _ := rfl

theorem total_eq_zero_iff {l : List Segment} (hne : ∀ seg ∈ l, seg.data ≠ []) :
    total l = 0 ↔ l = [] := by
  cases l with
  | nil => simp
  | cons seg l =>
    have := List.length_pos_iff.mpr (hne seg List.mem_cons_self)
    simp only [total_cons, Segment.length, reduceCtorEq, iff_false]
    omega

/-- **The invariant implies the count.** -/
theorem Tallied.counted {r : StreamReassembler} (h : Tallied r) : Counted r where
  count := by
    rw [Interval.card_cover h.separated]
    exact h.exact
  empty := by
    rw [StreamReassembler.empty, List.isEmpty_iff, h.exact, total_eq_zero_iff h.nonempty]

theorem Tallied.read {r : StreamReassembler} (h : Tallied r) (len : ℕ) :
    Tallied { r with output := (r.output.read len).2 } :=
  ⟨h.toBounded.read len, h.solid, h.exact, h.cleared⟩

/-! ## §4 A push -/

section Push

variable {r r₁ : StreamReassembler} {data : Bytes} {index : UInt64} {eof : Bool}

/-- What is stored before the flush and lies inside the window is what the push holds. -/
theorem Admitted.holds_iff (hadmitted : Admitted r data index r₁) (k : ℕ) :
    Covered r₁.buf k ∧ k < r.windowEnd ↔ r.Holds data index k := by
  rw [hadmitted.cover, Holds]

/-- An open output reaches `stop` by what the push holds, and something is left. -/
theorem Admitted.leaves_open (hadmitted : Admitted r data index r₁)
    (hann : Announced r data index eof r₁) (hopen : r.output.inputEnded = false) (stop : ℕ) :
    (r₁.flush.firstUnassembled = stop ∧ r₁.flush.buf ≠ []) ↔
      r.EndsAt data index stop ∧ ∃ k, stop < k ∧ r.Holds data index k := by
  have hcover : ∀ k, (k < r₁.flush.firstUnassembled ∨ Covered r₁.flush.buf k) ↔
      k < r.firstUnassembled ∨ r.Holds data index k := by
    intro k
    rw [hadmitted.crowded.flush_cover_open (hann.output ▸ hopen), hann.firstUnassembled_eq,
      hann.windowEnd_eq, hadmitted.holds_iff]
  have hflush := flushLoop_spans r₁.buf r₁ hadmitted.crowded.stored
  have hgap : ∀ k, Covered r₁.flush.buf k → r₁.flush.firstUnassembled < k := by
    rintro k ⟨x, hx, hk⟩
    exact (hflush.gap x hx).trans_le hk.1
  have hle : r.firstUnassembled ≤ r₁.flush.firstUnassembled := by
    rw [← hann.firstUnassembled_eq, firstUnassembled_eq, firstUnassembled_eq]
    exact r₁.flushes_flush.written.length_le
  have hends : r.EndsAt data index stop ↔ r₁.flush.firstUnassembled = stop := by
    rw [front_iff hle hgap hcover stop]
    constructor
    · exact fun he => ⟨he.start, fun k hlo hk => (he.held k hlo hk).2, he.gap⟩
    · exact fun ⟨hstart, hheld, hnot⟩ => ⟨hstart, fun k hlo hk => ⟨hopen, hheld k hlo hk⟩, hnot⟩
  rw [hends]
  refine and_congr_right fun hstop => ?_
  constructor
  · intro hne
    obtain ⟨x, hx⟩ := List.exists_mem_of_ne_nil _ hne
    have hstart : Covered r₁.flush.buf x.idx :=
      ⟨x, hx, reshaping_solid.covers_idx (hflush.stored.pieces x hx)⟩
    have hlt := hgap _ hstart
    refine ⟨x.idx, by omega, ?_⟩
    exact ((hcover x.idx).mp (.inr hstart)).resolve_left (by omega)
  · rintro ⟨k, hk, hheld⟩ hnil
    rcases (hcover k).mpr (.inr hheld) with hlt | ⟨x, hx, -⟩
    · omega
    · rw [hnil] at hx
      cases hx

/-- What an output that has ended leaves: the substrings that start past it. -/
theorem Admitted.flush_ended (hadmitted : Admitted r data index r₁)
    (hann : Announced r data index eof r₁) (hended : r.output.inputEnded = true) :
    r₁.flush.firstUnassembled = r.firstUnassembled ∧
      ∀ x, x ∈ r₁.flush.buf ↔ x ∈ r₁.buf ∧ r.firstUnassembled < x.idx := by
  have hflush := flushLoop_spans r₁.buf r₁ hadmitted.crowded.stored
  obtain ⟨hstays, hkeeps⟩ := flushLoop_ended r₁.buf r₁ (hann.output ▸ hended)
  rw [hann.firstUnassembled_eq] at hstays hkeeps
  refine ⟨hstays, fun x => ⟨fun hx => ⟨hflush.subset hx, ?_⟩, fun hx => hkeeps x hx.1 hx.2⟩⟩
  exact hstays ▸ hflush.gap x hx

theorem EndsAt.eq_of_ended {stop : ℕ} (h : r.EndsAt data index stop)
    (hended : r.output.inputEnded = true) : r.firstUnassembled = stop := by
  by_contra hne
  have hstart := h.start
  have hopen := (h.held r.firstUnassembled (Nat.le_refl _) (by omega)).1
  rw [hended] at hopen
  cases hopen

/-- The same for an output that has ended.  There either nothing was stored before the push, or
    the push announces the end and admits nothing. -/
theorem Tallied.leaves_ended (h : Tallied r) (hadmitted : Admitted r data index r₁)
    (hann : Announced r data index eof r₁) (hended : r.output.inputEnded = true) {stop : ℕ}
    (hstop : r.firstUnassembled = stop → r.buf = [] ∨ index.toNat + data.length = stop) :
    (r₁.flush.firstUnassembled = stop ∧ r₁.flush.buf ≠ []) ↔
      r.EndsAt data index stop ∧ ∃ k, stop < k ∧ r.Holds data index k := by
  have hcrowded := hadmitted.crowded
  obtain ⟨hstays, hmem⟩ := hadmitted.flush_ended hann hended
  rw [hstays]
  constructor
  · rintro ⟨hat, hne⟩
    obtain ⟨x, hx⟩ := List.exists_mem_of_ne_nil _ hne
    obtain ⟨hx, hlt⟩ := (hmem x).mp hx
    have hstart := reshaping_solid.covers_idx (hcrowded.stored.pieces x hx)
    have hin := hcrowded.within x hx
    rw [hann.windowEnd_eq, hann.firstUnassembled_eq] at hin
    refine ⟨⟨hat.le, fun k hlo hk => by omega, ?_⟩, x.idx, by omega, ?_⟩
    · -- a byte admitted at the end of the output would have been erased, and `x` with it
      rintro ⟨⟨y, hy, hyk⟩ | hadmits, -⟩
      · have := h.gap y hy
        simp only [Interval.Covers] at hyk
        omega
      · simp only [Admits, admittedEnd] at hadmits
        rcases hstop hat with hnil | hnothing
        · have hgrown := (hadmitted.grown x hx).resolve_left (by simp [hnil])
          omega
        · omega
    · refine (hadmitted.holds_iff _).mp ⟨⟨x, hx, hstart⟩, ?_⟩
      simp only [Interval.Covers] at hstart
      omega
  · rintro ⟨hends, k, hk, hheld⟩
    have hat := hends.eq_of_ended hended
    obtain ⟨⟨x, hx, hxk⟩, hwindow⟩ := (hadmitted.holds_iff k).mpr hheld
    refine ⟨hat, List.ne_nil_of_mem ((hmem x).mpr ⟨hx, ?_⟩)⟩
    -- a substring that continues the output would hold the byte at its end
    by_contra hle
    refine hends.gap ((hadmitted.holds_iff stop).mp ⟨⟨x, hx, ?_⟩, by omega⟩)
    simp only [Interval.Covers] at hxk ⊢
    omega

/-- **When the end of the stream discards something**: exactly if the output reaches the
    announced end and the flush leaves something in the set. -/
theorem Tallied.discards_iff (h : Tallied r) (hadmitted : Admitted r data index r₁)
    (hann : Announced r data index eof r₁) (hfits : index.toNat + data.length < 2 ^ 64) :
    r.Discards data index eof ↔ r₁.flush.eof = true ∧
      r₁.flush.firstUnassembled = r₁.flush.eofIndex ∧ r₁.flush.buf ≠ [] := by
  have heof : r₁.flush.eof = true ↔ r.eof = true ∨ eof = true := by
    rw [r₁.flushes_flush.eof, hann.eof, Bool.or_eq_true]
  have hindex : r₁.flush.eofIndex = r.announcedEnd data index eof := by
    rw [r₁.flushes_flush.eofIndex, hann.eofIndex, announcedEnd, sizeT, Nat.mod_eq_of_lt hfits]
  have hiff : r.Discards data index eof ↔ (r.eof = true ∨ eof = true) ∧
      r.EndsAt data index (r.announcedEnd data index eof) ∧
      ∃ k, r.announcedEnd data index eof < k ∧ r.Holds data index k :=
    ⟨fun hd => ⟨hd.announced, hd.complete, hd.beyond⟩, fun hd => ⟨hd.1, hd.2.1, hd.2.2⟩⟩
  rw [hiff, heof, hindex]
  refine and_congr_right fun hannounced => ?_
  cases hopen : r.output.inputEnded with
  | false => exact (hadmitted.leaves_open hann hopen _).symm
  | true =>
    refine (h.leaves_ended hadmitted hann hopen fun hat => ?_).symm
    cases eof with
    | true => exact .inr rfl
    | false => exact .inl (h.cleared (by simpa using hannounced) hat)

/-- The counter after the flush. -/
theorem Tallied.flush_exact (h : Tallied r) (hadmitted : Admitted r data index r₁) :
    r₁.flush.unassembledBytes = total r₁.flush.buf := by
  have hbefore := h.exact
  have hstored := hadmitted.count
  have hflushed : r₁.flush.unassembledBytes + total r₁.buf =
      r₁.unassembledBytes + total r₁.flush.buf :=
    (flushLoop_spans r₁.buf r₁ hadmitted.crowded.stored).count
  omega

/-- A push that discards nothing keeps the invariant. -/
theorem Tallied.finish (h : Tallied r) (hadmitted : Admitted r data index r₁)
    (hkeeps : ¬ (r₁.flush.eof = true ∧ r₁.flush.firstUnassembled = r₁.flush.eofIndex ∧
      r₁.flush.buf ≠ [])) : Tallied r₁.flush.finish := by
  have hbounded := hadmitted.crowded.flush.1
  have hflush := flushLoop_spans r₁.buf r₁ hadmitted.crowded.stored
  have hexact := h.flush_exact hadmitted
  refine ⟨hbounded.finish, ?_, ?_, ?_⟩
  all_goals unfold StreamReassembler.finish
  all_goals split
  · simp
  · exact hflush.stored.pieces
  · rename_i hcond
    have hnil : r₁.flush.buf = [] := by
      by_contra hne
      exact hkeeps ⟨hcond.1, hcond.2, hne⟩
    rw [hexact, hnil]
  · exact hexact
  · exact fun _ _ => rfl
  · rename_i hcond
    exact fun he hat => absurd ⟨he, hat⟩ hcond

/-- A push that discards something loses count. -/
theorem Tallied.not_counted (h : Tallied r) (hadmitted : Admitted r data index r₁)
    (hclears : r₁.flush.eof = true ∧ r₁.flush.firstUnassembled = r₁.flush.eofIndex ∧
      r₁.flush.buf ≠ []) : ¬ Counted r₁.flush.finish := by
  obtain ⟨he, hat, hne⟩ := hclears
  intro hcounted
  have hzero : r₁.flush.finish.unassembledBytes = 0 := by
    rw [← hcounted.empty, StreamReassembler.finish, if_pos ⟨he, hat⟩]
    rfl
  have hcount : r₁.flush.finish.unassembledBytes = total r₁.flush.buf := by
    rw [StreamReassembler.finish, if_pos ⟨he, hat⟩]
    exact h.flush_exact hadmitted
  rw [hcount, total_eq_zero_iff hadmitted.crowded.flush.1.nonempty] at hzero
  exact hne hzero

/-- **A push** keeps the count exactly if it discards nothing. -/
theorem Tallied.push (h : Tallied r) (hfits : index.toNat + data.length < 2 ^ 64) (eof : Bool) :
    ∃ r', r.pushSubstring data index eof = .ok r' ∧
      (¬ r.Discards data index eof → Tallied r') ∧ (Counted r' → ¬ r.Discards data index eof) := by
  obtain ⟨r₁, -, hadmitted, hann, hrun⟩ :=
    h.toBounded.admitted h.solid data index eof fun _ => hfits.le
  have hiff := h.discards_iff hadmitted hann hfits
  refine ⟨_, hrun, fun hnot => h.finish hadmitted (hiff.not.mp hnot), fun hcounted hdiscards => ?_⟩
  exact h.not_counted hadmitted (hiff.mp hdiscards) hcounted

end Push

/-! ## §5 Whole runs -/

/-- A call from a state in which the counter is exact. -/
theorem Tallied.step {r : StreamReassembler} (h : Tallied r) (i : LowInput) :
    ∃ r', LowFeeds r i r' ∧ (r.KeepsCount i → Tallied r') ∧ (Counted r' → r.KeepsCount i) := by
  obtain ⟨i, hlow⟩ := i
  cases i with
  | push data hdata index eof =>
    have hlow : index.toNat < 2 ^ 63 := hlow
    have hfits : index.toNat + data.length < 2 ^ 64 := by omega
    obtain ⟨r', hrun, hkeeps, hneeds⟩ := h.push hfits eof
    exact ⟨r', hrun, hkeeps, hneeds⟩
  | read len => exact ⟨_, rfl, fun _ => h.read len, fun _ => trivial⟩

/-- **`unassembled_bytes()` counts the stored bytes** throughout exactly those runs in which no
    push completes the stream while something is stored past its end. -/
theorem counted_iff (capacity : UInt64) (inputs : List LowInput) :
    Always LowFeeds Counted (.new capacity) inputs ↔
      Along LowFeeds KeepsCount (.new capacity) inputs := by
  refine Execution.always_iff_along (fun _ => Tallied.counted) ?_ ?_ inputs _ (.new capacity)
  · intro r i h hkeeps
    obtain ⟨r', hstep, htallied, -⟩ := h.step i
    exact ⟨⟨r', hstep⟩, fun t ht => Except.ok.inj (hstep.symm.trans ht) ▸ htallied hkeeps⟩
  · intro r i h _ hcounted
    obtain ⟨r', hstep, -, hneeds⟩ := h.step i
    exact hneeds (hcounted r' hstep)

/-- The stream is announced to end before the byte that is stored already. -/
theorem counted_fails :
    ∃ r, Trace LowFeeds (.new 8)
        [⟨.push [7] (by decide) 2 false, (by decide : (2 : UInt64).toNat < 2 ^ 63)⟩,
        ⟨.push [5] (by decide) 0 true, (by decide : (0 : UInt64).toNat < 2 ^ 63)⟩] r ∧
      r.buf = [] ∧ r.unassembledBytes = 1 ∧ ¬ Counted r := by
  refine ⟨_, .cons rfl (.cons rfl (.nil _)), rfl, rfl, fun h => ?_⟩
  exact absurd (h.empty.mp rfl) (by decide)

end StreamReassembler

end Sponge
