import ExamVariants.Generator
import Mathlib.Algebra.Ring.GeomSum
import Mathlib.Data.Nat.ModEq
import Mathlib.Dynamics.PeriodicPts.Lemmas
import Mathlib.Tactic.Ring

namespace ExamVariants.Generator

open Function

/-- The sum of the first `n` powers of the multiplier. -/
def powerSum (n : Nat) : Nat := ∑ i ∈ Finset.range n, 0x5DEECE66D ^ i

theorem powerSum_succ (n : Nat) : powerSum (n + 1) = 0x5DEECE66D * powerSum n + 1 :=
  geom_sum_succ

theorem powerSum_add (m n : Nat) :
    powerSum (m + n) = powerSum m + 0x5DEECE66D ^ m * powerSum n := by
  simp only [powerSum, Finset.sum_range_add, pow_add, Finset.mul_sum]

theorem odd_powerSum_iff (n : Nat) : Odd (powerSum n) ↔ Odd n := by
  induction n with
  | zero => simp [powerSum]
  | succ n ih =>
    have hmultiplier : Odd 0x5DEECE66D := by decide
    rw [powerSum_succ, Nat.odd_add_one, Nat.odd_add_one, Nat.odd_mul, ih]
    tauto

theorem four_dvd_pow_sub_one (n : Nat) : 0x5DEECE66D ^ n % 4 = 1 := by
  rw [Nat.pow_mod]
  norm_num

theorem two_pow_dvd_powerSum_iff (k n : Nat) : 2 ^ k ∣ powerSum n ↔ 2 ^ k ∣ n := by
  induction k generalizing n with
  | zero => simp
  | succ k ih =>
    rcases Nat.even_or_odd' n with ⟨m, rfl | rfl⟩
    · -- Doubling the terms doubles the sum up to an odd factor.
      have hmod := four_dvd_pow_sub_one m
      obtain ⟨c, hc⟩ : ∃ c, 1 + 0x5DEECE66D ^ m = 2 * (2 * c + 1) :=
        ⟨0x5DEECE66D ^ m / 4, by omega⟩
      have hodd : (2 ^ k).Coprime (2 * c + 1) := by
        apply Nat.Coprime.pow_left
        simp
      have hdouble : powerSum (2 * m) = 2 * (powerSum m * (2 * c + 1)) := by
        rw [two_mul, powerSum_add]
        calc powerSum m + 0x5DEECE66D ^ m * powerSum m
            = powerSum m * (1 + 0x5DEECE66D ^ m) := by ring
          _ = 2 * (powerSum m * (2 * c + 1)) := by rw [hc]; ring
      rw [hdouble, pow_succ', Nat.mul_dvd_mul_iff_left two_pos, Nat.mul_dvd_mul_iff_left two_pos,
        hodd.dvd_mul_right, ih]
    -- An odd number of odd terms has an odd sum.
    · have htwo : 2 ∣ 2 ^ (k + 1) := dvd_pow_self 2 k.succ_ne_zero
      have hterms : ¬ 2 ∣ 2 * m + 1 := by omega
      have hsum : ¬ 2 ∣ powerSum (2 * m + 1) := by
        rw [← even_iff_two_dvd, Nat.not_even_iff_odd, odd_powerSum_iff]
        exact odd_two_mul_add_one m
      exact iff_of_false (fun h => hsum (htwo.trans h)) fun h => hterms (htwo.trans h)

theorem toNat_step (g : Generator) :
    g.step.word.toNat = (0x5DEECE66D * g.word.toNat + 0xB) % 2 ^ 48 := by
  have hmultiplier : multiplier.toNat = 0x5DEECE66D := rfl
  have hincrement : increment.toNat = 0xB := rfl
  rw [step, toNat_ofWord, UInt64.toNat_add, UInt64.toNat_mul, hmultiplier, hincrement]
  omega

/-- What one step adds to a word, up to the modulus. -/
def advance (w : Nat) : Nat := 0x5DEECE66C * w + 0xB

theorem odd_advance (w : Nat) : Odd (advance w) := ⟨0x2EF767336 * w + 5, by rw [advance]; ring⟩

theorem toNat_iterate_step (g : Generator) (n : Nat) :
    (step^[n] g).word.toNat = (g.word.toNat + powerSum n * advance g.word.toNat) % 2 ^ 48 := by
  induction n with
  | zero =>
    rw [powerSum, Finset.sum_range_zero, Nat.zero_mul, Nat.add_zero]
    exact (Nat.mod_eq_of_lt g.word_lt).symm
  | succ n ih =>
    rw [iterate_succ_apply', toNat_step, ih, Nat.add_mod, Nat.mul_mod, Nat.mod_mod,
      ← Nat.mul_mod, ← Nat.add_mod]
    congr 1
    rw [powerSum_succ, advance]
    ring

theorem isPeriodicPt_step_iff (g : Generator) (n : Nat) :
    IsPeriodicPt step n g ↔ 2 ^ 48 ∣ n := by
  have hword : g.word.toNat < 2 ^ 48 := g.word_lt
  have hodd : (2 ^ 48).Coprime (advance g.word.toNat) :=
    Nat.Coprime.pow_left 48 (Nat.coprime_two_left.mpr (odd_advance _))
  rw [← two_pow_dvd_powerSum_iff, ← hodd.dvd_mul_right, IsPeriodicPt, IsFixedPt, Generator.ext_iff,
    ← UInt64.toNat_inj, toNat_iterate_step]
  generalize powerSum n * advance g.word.toNat = added
  omega

/-- The first return of every state. -/
theorem minimalPeriod_step (g : Generator) : minimalPeriod step g = 2 ^ 48 := by
  apply Nat.dvd_antisymm
  · exact ((isPeriodicPt_step_iff g _).mpr dvd_rfl).minimalPeriod_dvd
  · exact (isPeriodicPt_step_iff g _).mp (isPeriodicPt_minimalPeriod step g)

theorem step_bijective : Bijective step := by
  have hperiodic : periodicPts step = Set.univ := Set.eq_univ_of_forall fun g =>
    mk_mem_periodicPts (by decide) ((isPeriodicPt_step_iff g _).mpr dvd_rfl)
  rw [← Set.bijOn_univ, ← hperiodic]
  exact bijOn_periodicPts step

def equivFin : Generator ≃ Fin (2 ^ 48) where
  toFun g := ⟨g.word.toNat, g.word_lt⟩
  invFun n := ofWord (UInt64.ofNat n)
  left_inv g := by
    apply Generator.ext
    rw [← UInt64.toNat_inj, toNat_ofWord, UInt64.ofNat_toNat]
    exact Nat.mod_eq_of_lt g.word_lt
  right_inv n := by
    apply Fin.ext
    have hn := n.isLt
    dsimp only
    rw [toNat_ofWord, UInt64.toNat_ofNat']
    omega

/-- Every state is reached from every other. -/
theorem exists_iterate_step_eq (g h : Generator) : ∃ n < 2 ^ 48, step^[n] g = h := by
  have hinjective : Injective fun n : Fin (2 ^ 48) => equivFin (step^[n.val] g) := by
    intro m n hmn
    apply Fin.ext
    apply iterate_injOn_Iio_minimalPeriod (f := step) (x := g) ?_ ?_ (equivFin.injective hmn)
    · rw [minimalPeriod_step]
      exact m.isLt
    · rw [minimalPeriod_step]
      exact n.isLt
  obtain ⟨n, hn⟩ := Finite.surjective_of_injective hinjective (equivFin h)
  exact ⟨n, n.isLt, equivFin.injective hn⟩

end ExamVariants.Generator
