import Sponge.ByteStream
import Sponge.Lib.Loop
import Sponge.Lib.OnesComplement

/-!
# Internet Checksum

Model of the class `InternetChecksum` of `util/util.hh` and `util/util.cc`: a 32-bit sum of
16-bit words to which data is added piece by piece, and whose folded complement is the
checksum.

`value_toNat` says what the class computes: the complement of the one's-complement residue of
its sum.
-/

namespace Sponge

open OnesComplement (wordSum residue parity)

/-- `InternetChecksum` -/
structure InternetChecksum where
  sum : UInt32
  /-- the next byte is the low byte of its word -/
  parity : Bool
  deriving DecidableEq, Repr

namespace InternetChecksum

/-- The constructor `InternetChecksum(initial_sum)`. -/
def new (initialSum : UInt32) : InternetChecksum where
  sum := initialSum
  parity := false

/-- One round of the loop of `add`. -/
def addByte (c : InternetChecksum) (b : Byte) : InternetChecksum :=
  let val : UInt16 := b.toUInt16
  let val := if !c.parity then val <<< 8 else val
  { sum := c.sum + val.toUInt32, parity := !c.parity }

/-- `add(data)` -/
def add (c : InternetChecksum) (data : Bytes) : InternetChecksum :=
  data.foldl addByte c

/-- One round of the loop of `value`: the carry is added back in. -/
def foldRound (ret : UInt32) : Loop.Round UInt32 UInt32 :=
  if 0xffff < ret then .next ((ret >>> 16) + (ret &&& 0xffff)) else .exit ret

/-- `value()`.  Two rounds fold every 32-bit sum, so the loop has ended by the third. -/
def value (c : InternetChecksum) : UInt16 :=
  match Loop.iterate foldRound 3 c.sum with
  | some ret => (~~~ret).toUInt16
  | none => 0

/-! ## §1 Adding data -/

section Add

variable (c : InternetChecksum)

/-- Data may be added in pieces. -/
theorem add_add (l₁ l₂ : Bytes) : (c.add l₁).add l₂ = c.add (l₁ ++ l₂) := by
  simp [add, List.foldl_append]

theorem addByte_sum (b : Byte) :
    (c.addByte b).sum.toNat = (c.sum.toNat + wordSum c.parity [b]) % 2 ^ 32 := by
  have hb := b.toNat_lt
  cases hparity : c.parity with
  | false =>
    simp only [addByte, hparity, Bool.not_false, if_true, UInt32.toNat_add, wordSum]
    simp [Nat.shiftLeft_eq]
    omega
  | true =>
    simp [addByte, hparity, UInt32.toNat_add, wordSum]

/-- The sum after adding data, with the overflow of the 32-bit counter. -/
theorem add_sum (data : Bytes) :
    (c.add data).sum.toNat = (c.sum.toNat + wordSum c.parity data) % 2 ^ 32 := by
  induction data generalizing c with
  | nil =>
    have := c.sum.toNat_lt
    simp [add]
  | cons b data ih =>
    have hrest : (c.add (b :: data)).sum.toNat =
        ((c.addByte b).sum.toNat + wordSum (c.addByte b).parity data) % 2 ^ 32 := ih _
    rw [hrest, addByte_sum, Nat.mod_add_mod]
    cases hparity : c.parity <;> simp [addByte, hparity, wordSum, Nat.add_assoc]

end Add

/-! ## §2 Folding -/

/-- One round adds the high half of the sum to its low half. -/
theorem foldRound_toNat (ret : UInt32) :
    ((ret >>> 16) + (ret &&& 0xffff)).toNat = ret.toNat / 65536 + ret.toNat % 65536 := by
  have hret := ret.toNat_lt
  have hand : ret.toNat &&& 65535 = ret.toNat % 65536 := Nat.and_two_pow_sub_one_eq_mod _ 16
  simp [UInt32.toNat_add, UInt32.toNat_shiftRight, UInt32.toNat_and, hand,
    Nat.shiftRight_eq_div_pow]
  omega

/-- The number of rounds a sum needs. -/
private def rounds (ret : UInt32) : ℕ :=
  if ret.toNat ≤ 65535 then 0 else if ret.toNat ≤ 131070 then 1 else 2

theorem iterate_foldRound (sum : UInt32) : ∃ ret, Loop.iterate foldRound 3 sum = some ret ∧
    ret.toNat = residue sum.toNat := by
  -- the residue is the invariant; a sum of at most 16 bits is its own residue
  have hexit : ∀ ret r : UInt32, residue ret.toNat = residue sum.toNat →
      foldRound ret = .exit r → r.toNat = residue sum.toNat := by
    intro ret r hinv hexit
    unfold foldRound at hexit
    split at hexit
    · cases hexit
    · rename_i hle
      cases hexit
      rw [← hinv, OnesComplement.residue_of_le]
      simpa [UInt32.lt_iff_toNat_lt] using hle
  have hnext : ∀ ret t : UInt32, residue ret.toNat = residue sum.toNat →
      foldRound ret = .next t → residue t.toNat = residue sum.toNat ∧ rounds t < rounds ret := by
    intro ret t hinv hnext
    unfold foldRound at hnext
    split at hnext
    · rename_i hlt
      cases hnext
      have hret := ret.toNat_lt
      have hlt' : 65535 < ret.toNat := by simpa [UInt32.lt_iff_toNat_lt] using hlt
      refine ⟨?_, ?_⟩
      · rw [foldRound_toNat, OnesComplement.residue_carry, hinv]
      · unfold rounds
        rw [foldRound_toNat]
        split_ifs <;> omega
    · cases hnext
  have hrounds : rounds sum < 3 := by
    unfold rounds
    split_ifs <;> omega
  exact Loop.iterate_spec rounds hexit hnext 3 sum rfl hrounds

/-- **What `value` returns.** -/
theorem value_toNat (c : InternetChecksum) : c.value.toNat = 65535 - residue c.sum.toNat := by
  obtain ⟨ret, hrun, hret⟩ := iterate_foldRound c.sum
  have hle := OnesComplement.residue_le c.sum.toNat
  rw [value, hrun]
  simp [hret]
  omega

/-! ## §3 Checksums over whole byte strings -/

/-- The Internet checksum of `data` with the initial sum `c` is zero: the sum of the 16-bit words
    is the one's-complement zero 65535. -/
def Verifies (c : UInt32) (data : Bytes) : Prop :=
  residue (c.toNat + wordSum false data) = 65535

instance (c : UInt32) (data : Bytes) : Decidable (Verifies c data) :=
  inferInstanceAs (Decidable (_ = _))

section Whole

variable {c : UInt32} {data : Bytes}

/-- Without overflow the class computes the complement of the sum. -/
theorem value_add_toNat (h : c.toNat + wordSum false data < 2 ^ 32) :
    ((new c).add data).value.toNat = 65535 - residue (c.toNat + wordSum false data) := by
  rw [value_toNat, add_sum]
  show 65535 - residue ((c.toNat + wordSum false data) % 2 ^ 32) = _
  rw [Nat.mod_eq_of_lt h]

theorem value_add_eq_zero_iff (h : c.toNat + wordSum false data < 2 ^ 32) :
    ((new c).add data).value = 0 ↔ Verifies c data := by
  have hle := OnesComplement.residue_le (c.toNat + wordSum false data)
  rw [← UInt16.toNat_inj, value_add_toNat h, UInt16.toNat_zero, Verifies]
  omega

/-- **A checksum that is filled in verifies.**  The field lies at an even place and was zero
    when the checksum was computed. -/
theorem value_filled {pre post : Bytes} (heven : pre.length % 2 = 0)
    (h : c.toNat + wordSum false (pre ++ (BigEndian.bytes 2 0 ++ post)) + 65535 < 2 ^ 32) :
    ((new c).add (pre ++ (BigEndian.bytes 2
      ((new c).add (pre ++ (BigEndian.bytes 2 0 ++ post))).value.toNat ++ post))).value = 0 := by
  -- the field contributes its value to the sum
  have hsum : ∀ n < 65536, wordSum false (pre ++ (BigEndian.bytes 2 n ++ post)) =
      wordSum false pre + n + wordSum false post := by
    intro n hn
    rw [OnesComplement.wordSum_append_of_even heven,
      OnesComplement.wordSum_append_of_even (by simp), OnesComplement.wordSum_bytes_two hn,
      Nat.add_assoc]
  have hempty := hsum 0 (by decide)
  have hvalue := value_add_toNat (by omega :
    c.toNat + wordSum false (pre ++ (BigEndian.bytes 2 0 ++ post)) < 2 ^ 32)
  have hfull := hsum _ ((new c).add (pre ++ (BigEndian.bytes 2 0 ++ post))).value.toNat_lt
  rw [hvalue] at hfull ⊢
  have hle := OnesComplement.residue_le
    (c.toNat + wordSum false (pre ++ (BigEndian.bytes 2 0 ++ post)))
  rw [value_add_eq_zero_iff (by omega), Verifies]
  -- the old sum and the complement of its residue
  have hcomplement := OnesComplement.residue_add_complement
    (c.toNat + wordSum false (pre ++ (BigEndian.bytes 2 0 ++ post)))
  convert hcomplement using 2
  omega

end Whole

end InternetChecksum

end Sponge
