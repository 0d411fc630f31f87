import Mathlib.Data.List.Basic
import Mathlib.Data.UInt
import Mathlib.Tactic.Common
import Mathlib.Tactic.Ring

/-!
# Big-endian Byte Strings

A byte string read as a number, the most significant byte first, and the string of a given
length that denotes a number.  Reading undoes writing: `value_bytes`.
-/

namespace BigEndian

/-- The number a byte string denotes. -/
def value (l : List UInt8) : ℕ :=
  l.foldl (fun acc b => acc * 256 + b.toNat) 0

/-- The `len` low bytes of a number, the most significant one first. -/
def bytes (len n : ℕ) : List UInt8 :=
  (List.range len).map fun i => UInt8.ofNat (n >>> ((len - i - 1) * 8))

@[simp] theorem length_bytes (len n : ℕ) : (bytes len n).length = len := by
  simp [bytes]

@[simp] theorem value_nil : value [] = 0 := rfl

/-! ## §1 Reading -/

private theorem foldl_eq (l : List UInt8) : ∀ acc : ℕ,
    l.foldl (fun acc b => acc * 256 + b.toNat) acc = acc * 256 ^ l.length + value l := by
  induction l with
  | nil => simp
  | cons b l ih =>
    intro acc
    -- both sides are one step on, from `acc` and from zero
    rw [value, List.foldl_cons, List.foldl_cons, ih, ih (0 * 256 + b.toNat), List.length_cons]
    ring

theorem value_cons (b : UInt8) (l : List UInt8) :
    value (b :: l) = b.toNat * 256 ^ l.length + value l := by
  rw [value, List.foldl_cons, foldl_eq]
  simp

theorem value_lt (l : List UInt8) : value l < 256 ^ l.length := by
  induction l with
  | nil => simp
  | cons b l ih =>
    have hb := b.toNat_lt
    rw [value_cons, List.length_cons]
    calc b.toNat * 256 ^ l.length + value l
        < b.toNat * 256 ^ l.length + 256 ^ l.length := by omega
      _ = (b.toNat + 1) * 256 ^ l.length := by ring
      _ ≤ 256 * 256 ^ l.length := Nat.mul_le_mul_right _ (by omega)
      _ = 256 ^ (l.length + 1) := by ring

/-! ## §2 Writing -/

/-- One more byte at the front. -/
theorem bytes_succ (len n : ℕ) :
    bytes (len + 1) n = UInt8.ofNat (n >>> (len * 8)) :: bytes len n := by
  unfold bytes
  rw [List.range_succ_eq_map, List.map_cons, List.map_map]
  simp only [Nat.sub_zero, Nat.add_sub_cancel]
  congr 1
  apply List.map_congr_left
  intro i _
  -- shifting the index of the byte and the length by one changes nothing
  have hshift : len + 1 - (i + 1) - 1 = len - i - 1 := by omega
  rw [Function.comp_apply, Nat.succ_eq_add_one, hshift]

/-- **Round trip.** -/
theorem value_bytes (len n : ℕ) : value (bytes len n) = n % 256 ^ len := by
  induction len with
  | zero => simp [bytes, Nat.mod_one]
  | succ len ih =>
    have hpow : 2 ^ (len * 8) = 256 ^ len := by
      rw [Nat.mul_comm, Nat.pow_mul]
    calc value (bytes (len + 1) n)
        = n / 256 ^ len % 256 * 256 ^ len + n % 256 ^ len := by
          rw [bytes_succ, value_cons, ih, length_bytes, UInt8.toNat_ofNat',
            Nat.shiftRight_eq_div_pow, hpow]
      _ = n % 256 ^ (len + 1) := by
          rw [Nat.pow_succ 256 len, Nat.mod_mul, Nat.add_comm, Nat.mul_comm]

theorem value_bytes_of_lt {len n : ℕ} (h : n < 256 ^ len) : value (bytes len n) = n := by
  rw [value_bytes, Nat.mod_eq_of_lt h]

end BigEndian
