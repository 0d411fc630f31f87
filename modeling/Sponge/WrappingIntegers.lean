import Mathlib.Data.Nat.Dist
import Mathlib.Data.UInt
import Mathlib.Tactic.Common

/-!
# 32-bit Wrapping Sequence Numbers

Model of `libsponge/wrapping_integers.hh` and `wrapping_integers.cc`.

A `WrappingInt32` is a 32-bit sequence number relative to an arbitrary initial
sequence number.  `wrap` turns an absolute 64-bit sequence number into one, and
`unwrap` turns it back, taking the candidate near a given checkpoint.

Absolute sequence numbers are natural numbers.  `unwrap` keeps the 64-bit
reduction of the source's sum `checkpoint + offset`.

## Main results

- `wrap_unwrap`: `unwrap` always returns a number that wraps to its argument
- `unwrap_wrap`: `unwrap` recovers every number near the checkpoint
- `unwrap_nearest`: no number that wraps to the same point is nearer to the checkpoint
-/

namespace Sponge

/-- A 32-bit integer, expressed relative to an arbitrary initial sequence number. -/
structure WrappingInt32 where
  /-- `raw_value()` -/
  rawValue : UInt32
  deriving DecidableEq, Repr

/-- The point `b` steps past `a` (`operator+`). -/
instance : HAdd WrappingInt32 UInt32 WrappingInt32 where
  hAdd a b := ⟨a.rawValue + b⟩

/-- The point `b` steps before `a` (`operator-`). -/
instance : HSub WrappingInt32 UInt32 WrappingInt32 where
  hSub a b := a + (-b)

/-- Transform an absolute sequence number into a relative one. -/
def wrap (n : ℕ) (isn : WrappingInt32) : WrappingInt32 :=
  ⟨isn.rawValue + UInt32.ofNat n⟩

/-- Transform a relative sequence number into an absolute one near `checkpoint`. -/
def unwrap (n isn : WrappingInt32) (checkpoint : ℕ) : ℕ :=
  -- the distance from the checkpoint, forwards round the ring
  let offset := n.rawValue - (wrap checkpoint isn).rawValue
  let pos := (checkpoint + offset.toNat) % 2 ^ 64
  -- going back is shorter, unless that would lead below zero
  if 2 ^ 31 < offset.toNat ∧ 2 ^ 32 ≤ pos then pos - 2 ^ 32 else pos

/-! ## §1 Relative numbers as residues -/

/-- Two wrapping integers with the same value are equal. -/
theorem WrappingInt32.ext_toNat {a b : WrappingInt32}
    (h : a.rawValue.toNat = b.rawValue.toNat) : a = b := by
  cases a; cases b
  simpa [UInt32.toNat_inj] using h

/-- `wrap` adds modulo `2 ^ 32`. -/
theorem wrap_toNat (n : ℕ) (isn : WrappingInt32) :
    (wrap n isn).rawValue.toNat = (isn.rawValue.toNat + n) % 2 ^ 32 := by
  simp [wrap, UInt32.toNat_add]

@[simp] theorem wrap_zero (isn : WrappingInt32) : wrap 0 isn = isn := by
  apply WrappingInt32.ext_toNat
  rw [wrap_toNat]
  have := isn.rawValue.toNat_lt
  omega

/-- The offset computed by `unwrap`, as a residue. -/
private theorem offset_toNat (n isn : WrappingInt32) (checkpoint : ℕ) :
    (n.rawValue - (wrap checkpoint isn).rawValue).toNat =
      (n.rawValue.toNat + 2 ^ 32 - (isn.rawValue.toNat + checkpoint) % 2 ^ 32) % 2 ^ 32 := by
  -- `2 ^ 32 - x + y` and `y + 2 ^ 32 - x` differ only in how they are written
  rw [UInt32.toNat_sub, wrap_toNat]
  congr 1
  have := n.rawValue.toNat_lt
  omega

/-! ## §2 The two directions -/

/-- The number `unwrap` returns wraps to its argument. -/
theorem wrap_unwrap (n isn : WrappingInt32) (checkpoint : ℕ) :
    wrap (unwrap n isn checkpoint) isn = n := by
  apply WrappingInt32.ext_toNat
  have hn := n.rawValue.toNat_lt
  have hoff := offset_toNat n isn checkpoint
  rw [wrap_toNat]
  simp only [unwrap]
  split <;> omega

/-- **Round trip near the checkpoint.**  A number at most `2 ^ 31` after the checkpoint, or
    less than `2 ^ 31` before it, is recovered from its wrapped form. -/
theorem unwrap_wrap (isn : WrappingInt32) {v checkpoint : ℕ}
    (hup : v ≤ checkpoint + 2 ^ 31) (hdown : checkpoint < v + 2 ^ 31)
    (hv : v < 2 ^ 64) (hback : v < checkpoint → v + 2 ^ 32 < 2 ^ 64) :
    unwrap (wrap v isn) isn checkpoint = v := by
  have hoff := offset_toNat (wrap v isn) isn checkpoint
  rw [wrap_toNat] at hoff
  simp only [unwrap]
  by_cases hlt : v < checkpoint
  · -- behind the checkpoint: the offset wraps round and is taken back
    have := hback hlt
    split <;> omega
  · -- at or past the checkpoint: the offset is the distance itself
    split <;> omega

/-- The initial sequence number is the number zero. -/
theorem unwrap_isn (isn : WrappingInt32) : unwrap isn isn 0 = 0 := by
  have h : unwrap (wrap 0 isn) isn 0 = 0 :=
    unwrap_wrap isn (by decide) (by decide) (by decide) (by decide)
  rwa [wrap_zero] at h

/-- `unwrap` never goes a whole period past the checkpoint, and goes further than half a
    period only where going back is impossible. -/
theorem unwrap_le (n isn : WrappingInt32) (checkpoint : ℕ) :
    unwrap n isn checkpoint ≤ checkpoint + 2 ^ 31 ∨ unwrap n isn checkpoint < 2 ^ 32 := by
  have hlt := (n.rawValue - (wrap checkpoint isn).rawValue).toNat_lt
  simp only [unwrap]
  split <;> omega

/-! ## §3 The nearest number -/

/-- Numbers that wrap to the same point differ by whole periods. -/
theorem mod_eq_of_wrap_eq {v w : ℕ} {isn : WrappingInt32} (h : wrap v isn = wrap w isn) :
    v % 2 ^ 32 = w % 2 ^ 32 := by
  have hval : (wrap v isn).rawValue.toNat = (wrap w isn).rawValue.toNat := by rw [h]
  rw [wrap_toNat, wrap_toNat] at hval
  omega

/-- Away from the end of the 64-bit range, `unwrap` goes forward by at most half a period, or
    back by less than that, or as far as it must to stay at or above zero. -/
theorem unwrap_cases (n isn : WrappingInt32) {checkpoint : ℕ}
    (hlow : checkpoint < 2 ^ 64 - 2 ^ 32) :
    (checkpoint ≤ unwrap n isn checkpoint ∧ unwrap n isn checkpoint ≤ checkpoint + 2 ^ 31) ∨
    (unwrap n isn checkpoint < checkpoint ∧ checkpoint < unwrap n isn checkpoint + 2 ^ 31) ∨
    (checkpoint ≤ unwrap n isn checkpoint ∧ unwrap n isn checkpoint < 2 ^ 32) := by
  have hlt := (n.rawValue - (wrap checkpoint isn).rawValue).toNat_lt
  simp only [unwrap]
  split <;> omega

/-- **`unwrap` returns the nearest number.**  Its result wraps to `n`, and no other 64-bit number
    that does is strictly nearer to the checkpoint.  A number less than half a period away is
    recovered from its wrapped form. -/
theorem unwrap_nearest (n isn : WrappingInt32) {checkpoint : ℕ}
    (hlow : checkpoint < 2 ^ 64 - 2 ^ 32) :
    (wrap (unwrap n isn checkpoint) isn = n ∧ unwrap n isn checkpoint < 2 ^ 64 ∧
      ∀ v < 2 ^ 64, wrap v isn = n →
        Nat.dist (unwrap n isn checkpoint) checkpoint ≤ Nat.dist v checkpoint) ∧
    ∀ v, Nat.dist v checkpoint < 2 ^ 31 → unwrap (wrap v isn) isn checkpoint = v := by
  have hback := wrap_unwrap n isn checkpoint
  have hcases := unwrap_cases n isn hlow
  refine ⟨⟨hback, by omega, fun v _ hv => ?_⟩, fun v hv => ?_⟩
  · -- the candidates lie a whole number of periods apart
    have hmod := mod_eq_of_wrap_eq (hv.trans hback.symm)
    unfold Nat.dist
    omega
  · unfold Nat.dist at hv
    exact unwrap_wrap isn (by omega) (by omega) (by omega) (fun _ => by omega)

/-- Just below a wrap, half a period ahead of the checkpoint, and where going back would lead
    below zero. -/
theorem unwrap_nearest_boundary :
    unwrap ⟨0⟩ ⟨0⟩ (2 ^ 32 - 1) = 2 ^ 32 ∧ unwrap ⟨2 ^ 31⟩ ⟨0⟩ (2 ^ 32) = 2 ^ 32 + 2 ^ 31 ∧
      unwrap ⟨4294967295⟩ ⟨0⟩ 0 = 4294967295 ∧
      ∀ v, Nat.dist v (2 ^ 32) < 2 ^ 31 → unwrap (wrap v ⟨5⟩) ⟨5⟩ (2 ^ 32) = v :=
  ⟨by decide, by decide, by decide, (unwrap_nearest ⟨0⟩ ⟨5⟩ (by decide)).2⟩

end Sponge
