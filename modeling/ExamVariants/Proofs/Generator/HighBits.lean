import ExamVariants.Generator
import Mathlib.Tactic.Ring

namespace ExamVariants.Generator

theorem nonneg_iff_toInt {u : Int32} : 0 ≤ u ↔ 0 ≤ u.toInt := by
  rw [Int32.le_iff_toInt_le, Int32.toInt_zero]

variable {bits : Nat}

theorem high_lt (g : Generator) (h : bits ≤ 48) : g.word.toNat / 2 ^ (48 - bits) < 2 ^ bits := by
  have hsplit : 2 ^ (48 - bits) * 2 ^ bits = 2 ^ 48 := by
    rw [← Nat.pow_add, Nat.sub_add_cancel h]
  apply Nat.div_lt_of_lt_mul
  rw [hsplit]
  exact g.word_lt

/-- Of more bits than a draw holds it keeps the low ones. -/
theorem toNat_top (g : Generator) (bits : Nat) :
    (g.top bits).toUInt32.toNat = g.word.toNat / 2 ^ (48 - bits) % 2 ^ 32 := by
  have hcount : (UInt64.ofNat (48 - bits)).toNat % 64 = 48 - bits := by
    rw [UInt64.toNat_ofNat']
    omega
  rw [top, UInt32.toUInt32_toInt32, UInt64.toNat_toUInt32, UInt64.toNat_shiftRight, hcount,
    Nat.shiftRight_eq_div_pow]

theorem toNat_top_of_le (g : Generator) (h : bits ≤ 32) :
    (g.top bits).toUInt32.toNat = g.word.toNat / 2 ^ (48 - bits) := by
  have hlt := high_lt g (h.trans (by decide))
  rw [toNat_top, Nat.mod_eq_of_lt]
  exact hlt.trans_le (Nat.pow_le_pow_right two_pos h)

theorem toInt_top (g : Generator) (h : bits ≤ 31) :
    (g.top bits).toInt = (g.word.toNat / 2 ^ (48 - bits) : Nat) := by
  have hlt := (high_lt g (h.trans (by decide))).trans_le (Nat.pow_le_pow_right two_pos h)
  have hword : (g.top bits).toBitVec.toNat = g.word.toNat / 2 ^ (48 - bits) := by
    rw [← toNat_top_of_le g (h.trans (by decide)), ← UInt32.toNat_toBitVec,
      Int32.toBitVec_toUInt32]
  rw [← Int32.toInt_toBitVec, BitVec.toInt_eq_toNat_of_lt (by omega), hword]

theorem top_nonneg (g : Generator) (h : bits ≤ 31) : 0 ≤ g.top bits := by
  rw [nonneg_iff_toInt, toInt_top g h]
  exact Int.natCast_nonneg _

end ExamVariants.Generator
