import Mathlib.Data.List.Basic
import Mathlib.Data.UInt
import Mathlib.Tactic.Common
import Sponge.Lib.BigEndian

/-!
# One's-complement Sums of 16-bit Words

A byte string read as a sequence of big-endian 16-bit words has a sum (`wordSum`), and a sum
has a one's-complement residue (`residue`): the 16-bit number that is left when the carries
out of the low 16 bits have been added back in.

The residue is the representative of the sum modulo 65535 that is zero only for the sum
zero.  So a sum to which the complement of its residue is added has the residue 65535
(`residue_add_complement`), which is what makes checksums of this kind verify.

The sum that is taken word by word, with every carry added back in at once (`endAroundSum`), is
the residue of the sum (`endAroundSum_eq`).  Of two words that are exchanged for one another
only 0 and 65535 leave it the same (`residue_exchange`).
-/

namespace OnesComplement

/-! ## §1 Sums of words -/

/-- The sum of the 16-bit words of a byte string.  `odd` says that the first byte is the low
    byte of its word. -/
def wordSum : Bool → List UInt8 → ℕ
  | _, [] => 0
  | false, b :: l => b.toNat * 256 + wordSum true l
  | true, b :: l => b.toNat + wordSum false l

/-- The place in a word after the bytes `l`. -/
def parity (odd : Bool) (l : List UInt8) : Bool :=
  l.foldl (fun odd _ => !odd) odd

@[simp] theorem wordSum_nil (odd : Bool) : wordSum odd [] = 0 := by
  cases odd <;> rfl

theorem parity_of_even {l : List UInt8} (h : l.length % 2 = 0) (odd : Bool) :
    parity odd l = odd := by
  match l with
  | [] => rfl
  | [_] => simp at h
  | _ :: _ :: l =>
    have htail : l.length % 2 = 0 := by
      simp only [List.length_cons] at h
      omega
    simpa [parity] using parity_of_even htail odd

theorem wordSum_append (l₁ l₂ : List UInt8) : ∀ odd : Bool,
    wordSum odd (l₁ ++ l₂) = wordSum odd l₁ + wordSum (parity odd l₁) l₂ := by
  induction l₁ with
  | nil => simp [parity]
  | cons b l₁ ih =>
    intro odd
    cases odd with
    | false => simp only [List.cons_append, wordSum, ih, parity, List.foldl_cons, Bool.not_false,
        Nat.add_assoc]
    | true => simp only [List.cons_append, wordSum, ih, parity, List.foldl_cons, Bool.not_true,
        Nat.add_assoc]

/-- Whole words in front do not shift the words behind them. -/
theorem wordSum_append_of_even {l₁ : List UInt8} (h : l₁.length % 2 = 0) (l₂ : List UInt8) :
    wordSum false (l₁ ++ l₂) = wordSum false l₁ + wordSum false l₂ := by
  rw [wordSum_append, parity_of_even h]

/-- The bytes of a 16-bit number sum to the number. -/
theorem wordSum_bytes_two {n : ℕ} (h : n < 65536) : wordSum false (BigEndian.bytes 2 n) = n := by
  have hvalue : BigEndian.value (BigEndian.bytes 2 n) = n :=
    BigEndian.value_bytes_of_lt (by simpa using h)
  simp only [BigEndian.bytes_succ, BigEndian.value_cons, List.length_cons] at hvalue
  simp only [BigEndian.bytes_succ, wordSum]
  simpa [BigEndian.bytes] using hvalue

/-- A bound: a word is at most `255 * 256 + 255`, whichever of its bytes come first. -/
theorem wordSum_le (l : List UInt8) :
    wordSum false l ≤ 65280 * ((l.length + 1) / 2) + 255 * (l.length / 2) ∧
      wordSum true l ≤ 255 * ((l.length + 1) / 2) + 65280 * (l.length / 2) := by
  induction l with
  | nil => simp
  | cons b l ih =>
    have hb := b.toNat_lt
    simp only [wordSum, List.length_cons]
    omega

/-- The 16-bit words of a byte string, a last odd byte padded with zero. -/
def words : List UInt8 → List ℕ
  | [] => []
  | [b] => [b.toNat * 256]
  | b₁ :: b₂ :: l => (b₁.toNat * 256 + b₂.toNat) :: words l

theorem words_lt {l : List UInt8} : ∀ w ∈ words l, w < 65536 := by
  fun_induction words l with
  | case1 => simp
  | case2 b =>
    have hb := b.toNat_lt
    simp only [List.mem_singleton]
    omega
  | case3 b₁ b₂ l ih =>
    have hb₁ := b₁.toNat_lt
    have hb₂ := b₂.toNat_lt
    intro w hw
    rcases List.mem_cons.mp hw with rfl | hw
    · omega
    · exact ih w hw

theorem sum_words (l : List UInt8) : (words l).sum = wordSum false l := by
  fun_induction words l with
  | case1 => rfl
  | case2 b => simp [wordSum]
  | case3 b₁ b₂ l ih => simp [wordSum, ih, Nat.add_assoc]

/-! ## §2 Residues -/

/-- The one's-complement residue of a sum. -/
def residue (n : ℕ) : ℕ :=
  if n = 0 then 0 else (n - 1) % 65535 + 1

theorem residue_of_le {n : ℕ} (h : n ≤ 65535) : residue n = n := by
  unfold residue
  split <;> omega

theorem residue_le (n : ℕ) : residue n ≤ 65535 := by
  unfold residue
  split <;> omega

/-- Adding the carry back in does not change the residue, of whatever is added later. -/
theorem residue_carry_add (n m : ℕ) : residue (n / 65536 + n % 65536 + m) = residue (n + m) := by
  unfold residue
  split <;> split <;> omega

theorem residue_carry (n : ℕ) : residue (n / 65536 + n % 65536) = residue n :=
  residue_carry_add n 0

theorem residue_eq_top_iff (n : ℕ) : residue n = 65535 ↔ n ≠ 0 ∧ n % 65535 = 0 := by
  unfold residue
  split <;> omega

/-- **Checksums verify.**  The complement of the residue completes a sum to residue 65535. -/
theorem residue_add_complement (n : ℕ) : residue (n + (65535 - residue n)) = 65535 := by
  rw [residue_eq_top_iff]
  unfold residue
  split <;> omega

/-- **A word exchanged for another.**  A sum with the one's-complement residue zero loses it
    when one of its words is changed, unless zero is exchanged for 65535 or back. -/
theorem residue_exchange {rest w w' : ℕ} (hw : w < 65536) (hw' : w' < 65536) (hne : w ≠ w')
    (hzeros : ¬ (w = 0 ∧ w' = 65535)) (hones : ¬ (w = 65535 ∧ w' = 0))
    (h : residue (rest + w) = 65535) : residue (rest + w') ≠ 65535 := by
  rw [residue_eq_top_iff] at h
  rw [Ne, residue_eq_top_iff]
  omega

/-! ## §3 End-around carry -/

/-- One's-complement addition of 16-bit words: the carry is added back in. -/
def endAround (a w : ℕ) : ℕ :=
  (a + w) / 65536 + (a + w) % 65536

/-- The one's-complement sum of a list of words. -/
def endAroundSum (ws : List ℕ) : ℕ :=
  ws.foldl endAround 0

theorem endAround_residue (n : ℕ) {w : ℕ} (hw : w < 65536) :
    endAround (residue n) w = residue (n + w) := by
  unfold endAround residue
  split_ifs <;> omega

/-- **Carries may wait.**  Word by word or at the end, adding them back in gives the residue. -/
theorem endAroundSum_eq {ws : List ℕ} (h : ∀ w ∈ ws, w < 65536) :
    endAroundSum ws = residue ws.sum := by
  suffices hfold : ∀ (n : ℕ), ws.foldl endAround (residue n) = residue (n + ws.sum) by
    simpa [endAroundSum, residue_of_le] using hfold 0
  induction ws with
  | nil => simp
  | cons w ws ih =>
    intro n
    have hw : w < 65536 := h w List.mem_cons_self
    have hws : ∀ v ∈ ws, v < 65536 := fun v hv => h v (List.mem_cons_of_mem w hv)
    rw [List.foldl_cons, endAround_residue n hw, ih hws, List.sum_cons, Nat.add_assoc]

end OnesComplement
