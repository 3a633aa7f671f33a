import Mathlib.Data.List.Basic

/-!
# The bits of a byte

`hasBit b k` is the test `b & (1 << k) != 0` of a byte, and the lemmas say what
setting and clearing a bit with `|` and `& !` do to it.  They hold for `k < 8`,
where the shift does not wrap.
-/

namespace SansIo.Lib

/-- `1 << k`. -/
def mask (k : Nat) : UInt8 := 1 <<< UInt8.ofNat k

/-- `b & (1 << k) != 0`. -/
def hasBit (b : UInt8) (k : Nat) : Bool := b &&& mask k != 0

theorem toBitVec_mask {k : Nat} (hk : k < 8) : (mask k).toBitVec = BitVec.twoPow 8 k := by
  match k, hk with
  | 0, _ | 1, _ | 2, _ | 3, _ | 4, _ | 5, _ | 6, _ | 7, _ => rfl

/-- The test reads the bit. -/
theorem hasBit_eq {k : Nat} (hk : k < 8) (b : UInt8) : hasBit b k = b.toBitVec.getLsbD k := by
  have hzero : b &&& mask k = 0 ↔ b.toBitVec.getLsbD k = false := by
    rw [← UInt8.toBitVec_inj, UInt8.toBitVec_and, toBitVec_mask hk, BitVec.and_twoPow]
    split
    · rename_i hb
      simp only [hb, Bool.true_eq_false, iff_false]
      intro h
      simpa [hk] using congrArg (·.getLsbD k) h
    · rename_i hb
      simp [hb]
  rw [Bool.eq_iff_iff, hasBit, bne_iff_ne, ne_eq, hzero, Bool.not_eq_false]

@[simp] theorem hasBit_zero (k : Nat) : hasBit 0 k = false := by
  simp [hasBit]

theorem hasBit_ones {k : Nat} (hk : k < 8) : hasBit 0xff k = true := by
  match k, hk with
  | 0, _ | 1, _ | 2, _ | 3, _ | 4, _ | 5, _ | 6, _ | 7, _ => rfl

theorem hasBit_or_mask {j k : Nat} (hj : j < 8) (hk : k < 8) (b : UInt8) :
    hasBit (b ||| mask k) j = (decide (j = k) || hasBit b j) := by
  rw [hasBit_eq hj, hasBit_eq hj, UInt8.toBitVec_or, toBitVec_mask hk, BitVec.getLsbD_or,
    BitVec.getLsbD_twoPow, Bool.or_comm]
  simp [hk, eq_comm]

theorem hasBit_and_not_mask {j k : Nat} (hj : j < 8) (hk : k < 8) (b : UInt8) :
    hasBit (b &&& ~~~ mask k) j = (!decide (j = k) && hasBit b j) := by
  rw [hasBit_eq hj, hasBit_eq hj, UInt8.toBitVec_and, UInt8.toBitVec_not, toBitVec_mask hk,
    BitVec.getLsbD_and, BitVec.getLsbD_not, BitVec.getLsbD_twoPow, Bool.and_comm]
  simp [hj, hk, eq_comm]

end SansIo.Lib
