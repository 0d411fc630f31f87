import Sponge.Codec.Segment

/-!
# What the Checksum of a Segment Means

The class `InternetChecksum` takes its data in chunks of any length, keeps the parity of the
bytes seen so far and adds the carries back in at the end.  For the sums that occur in this
library, those that start at zero or at a pseudo-header's sum and run over at most 65535 bytes:

* **chunking does not matter** (`InternetChecksum.value_chunks`): the result is the complement
  of the one's-complement sum of the initial sum and the words of the concatenation;
* **a corrupted word is noticed** (`TCPSegment.parse_corrupted`), but for the two words that
  are both zero in one's-complement arithmetic.
-/

namespace Sponge

open OnesComplement (wordSum words residue endAroundSum)

/-! ## §1 Chunks -/

namespace InternetChecksum

/-- Adding chunks one by one is adding their concatenation: the parity carries over. -/
theorem foldl_add (chunks : List Bytes) (c : InternetChecksum) :
    chunks.foldl add c = c.add chunks.flatten := by
  induction chunks generalizing c with
  | nil => rfl
  | cons chunk chunks ih => rw [List.foldl_cons, ih, add_add, List.flatten_cons]

/-- The initial sum as words: its high half is the carry of its low half. -/
def initialWords (c : UInt32) : List ℕ :=
  [c.toNat / 65536, c.toNat % 65536]

theorem initialWords_lt (c : UInt32) : ∀ w ∈ initialWords c, w < 65536 := by
  have hc := c.toNat_lt
  simp only [initialWords, List.mem_cons, List.not_mem_nil, or_false]
  omega

/-- The end-around sum of the initial sum and the data. -/
theorem endAroundSum_initialWords (c : UInt32) (data : Bytes) :
    endAroundSum (initialWords c ++ words data) = residue (c.toNat + wordSum false data) := by
  have hwords : ∀ w ∈ initialWords c ++ words data, w < 65536 := by
    intro w hw
    rcases List.mem_append.mp hw with hw | hw
    · exact initialWords_lt c w hw
    · exact OnesComplement.words_lt w hw
  have hinitial : (initialWords c).sum = c.toNat / 65536 + c.toNat % 65536 := by
    simp [initialWords]
  rw [OnesComplement.endAroundSum_eq hwords, List.sum_append, OnesComplement.sum_words, hinitial,
    OnesComplement.residue_carry_add]

/-- **Chunking does not matter.**  The chunks, added one by one, give what their concatenation
    gives: the complement of the one's-complement sum, taken with end-around carry, of the
    initial sum and the words of the data.  The 32-bit counter holds the sum itself. -/
theorem value_chunks (c : UInt32) (hc : DatagramCksum c) (chunks : List Bytes)
    (hlen : chunks.flatten.length ≤ 65535) :
    (chunks.foldl add (new c)).value = ((new c).add chunks.flatten).value ∧
      (chunks.foldl add (new c)).value =
        ~~~ UInt16.ofNat (endAroundSum (initialWords c ++ words chunks.flatten)) ∧
      (chunks.foldl add (new c)).sum.toNat = c.toNat + (words chunks.flatten).sum := by
  have hsum := hc.sum_lt hlen
  rw [foldl_add, endAroundSum_initialWords]
  refine ⟨rfl, ?_, ?_⟩
  · have hle := OnesComplement.residue_le (c.toNat + wordSum false chunks.flatten)
    rw [← UInt16.toNat_inj, value_add_toNat (by omega), UInt16.toNat_not,
      UInt16.toNat_ofNat_of_lt' (Nat.lt_succ_of_le hle)]
    rfl
  · rw [add_sum, OnesComplement.sum_words]
    exact Nat.mod_eq_of_lt (show c.toNat + wordSum false chunks.flatten < 2 ^ 32 by omega)

/-- Three chunks of odd lengths. -/
theorem value_chunks_odd :
    let chunks : List Bytes := [[0x12], [0x34, 0x56, 0x78], [0x9a]]
    (chunks.foldl add (new 0)).value = ((new 0).add [0x12, 0x34, 0x56, 0x78, 0x9a]).value ∧
      (chunks.foldl add (new 0)).value = 0xfd52 := by
  obtain ⟨hwhole, hsum, -⟩ :=
    value_chunks 0 (.inl rfl) [[0x12], [0x34, 0x56, 0x78], [0x9a]] (by decide)
  exact ⟨hwhole, hsum.trans (by decide)⟩

end InternetChecksum

/-! ## §2 Corrupted words -/

/-- `b'` is `b` with one aligned 16-bit word, `w`, changed to `w'`. -/
def WordChanged (b b' : Bytes) (w w' : ℕ) : Prop :=
  b'.length = b.length ∧
    ∃ pre post, words b = pre ++ w :: post ∧ words b' = pre ++ w' :: post ∧ w ≠ w'

/-- The sums of the two byte strings, around the word that differs. -/
theorem WordChanged.wordSums {b b' : Bytes} {w w' : ℕ} (h : WordChanged b b' w w') :
    ∃ rest, wordSum false b = rest + w ∧ wordSum false b' = rest + w' ∧ w < 65536 ∧
      w' < 65536 ∧ w ≠ w' := by
  obtain ⟨-, pre, post, hb, hb', hne⟩ := h
  refine ⟨pre.sum + post.sum, ?_, ?_, OnesComplement.words_lt (l := b) w (by simp [hb]),
    OnesComplement.words_lt (l := b') w' (by simp [hb']), hne⟩
  · rw [← OnesComplement.sum_words, hb, List.sum_append, List.sum_cons]
    omega
  · rw [← OnesComplement.sum_words, hb', List.sum_append, List.sum_cons]
    omega

/-- **A corrupted word is noticed.**  A byte string whose checksum is zero fails the checksum,
    and is rejected as a segment, when one of its words is changed; only the change of `0x0000`
    to `0xffff` or back may pass. -/
theorem TCPSegment.parse_corrupted (c : UInt32) (hc : DatagramCksum c) (b b' : Bytes)
    (hb : b.length ≤ 65535) (hzero : ((InternetChecksum.new c).add b).value = 0) (w w' : ℕ)
    (hchange : WordChanged b b' w w')
    (hexcept : ¬ (w = 0x0000 ∧ w' = 0xffff ∨ w = 0xffff ∧ w' = 0x0000)) (old : TCPSegment) :
    ((InternetChecksum.new c).add b').value ≠ 0 ∧ old.parse b' c = (.BadChecksum, old) := by
  have hb' : b'.length ≤ 65535 := hchange.1 ▸ hb
  have hsum := hc.sum_lt hb
  have hsum' := hc.sum_lt hb'
  obtain ⟨rest, hw, hw', hlt, hlt', hne⟩ := hchange.wordSums
  rw [InternetChecksum.value_add_eq_zero_iff (by omega), InternetChecksum.Verifies, hw,
    ← Nat.add_assoc] at hzero
  have hcorrupt : ((InternetChecksum.new c).add b').value ≠ 0 := by
    rw [Ne, InternetChecksum.value_add_eq_zero_iff (by omega), InternetChecksum.Verifies, hw',
      ← Nat.add_assoc]
    exact OnesComplement.residue_exchange hlt hlt' hne (fun h => hexcept (.inl h))
      (fun h => hexcept (.inr h)) hzero
  exact ⟨hcorrupt, by rw [parse, if_pos hcorrupt]⟩

/-- A port of a bare header is changed. -/
theorem TCPSegment.parse_corrupted_port :
    let b : Bytes := List.replicate 12 0 ++ [0x50, 0, 0, 0, 0xaf, 0xff, 0, 0]
    TCPSegment.parse {} (0x12 :: 0x34 :: b.drop 2) 0 = (.BadChecksum, {}) :=
  (parse_corrupted 0 (.inl rfl) (List.replicate 12 0 ++ [0x50, 0, 0, 0, 0xaf, 0xff, 0, 0]) _
    (by decide) (by decide) 0x0000 0x1234
    ⟨by decide, [], _, rfl, rfl, by decide⟩ (by decide) {}).2

end Sponge
