import ExamVariants.Proofs.Generator.HighBits
import ExamVariants.Proofs.Generator.Period
import Mathlib.GroupTheory.Perm.Cycle.Basic

namespace ExamVariants.Generator

open Function

theorem card_eq : Nat.card Generator = 2 ^ 48 := by
  rw [Nat.card_congr equivFin, Nat.card_eq_fintype_card, Fintype.card_fin]

theorem isLeast_return (g : Generator) : IsLeast {n | 0 < n ∧ step^[n] g = g} (2 ^ 48) := by
  constructor
  · exact ⟨by decide, (isPeriodicPt_step_iff g _).mpr dvd_rfl⟩
  · rintro n ⟨hpos, hreturn⟩
    exact Nat.le_of_dvd hpos ((isPeriodicPt_step_iff g n).mp hreturn)

/-- The steps below the period lead to different states. -/
theorem existsUnique_iterate_step_eq (g h : Generator) :
    ∃! n, n < 2 ^ 48 ∧ step^[n] g = h := by
  obtain ⟨n, hn, hreach⟩ := exists_iterate_step_eq g h
  refine ⟨n, ⟨hn, hreach⟩, ?_⟩
  rintro m ⟨hm, hreach'⟩
  rw [← minimalPeriod_step g] at hm hn
  exact iterate_injOn_Iio_minimalPeriod hm hn (hreach'.trans hreach.symm)

theorem exists_perm_isCycleOn :
    ∃ σ : Equiv.Perm Generator, ⇑σ = step ∧ σ.IsCycleOn Set.univ := by
  have hstep : ⇑(Equiv.ofBijective step step_bijective) = step := rfl
  refine ⟨Equiv.ofBijective step step_bijective, hstep, ?_, ?_⟩
  · exact Set.bijOn_univ.mpr step_bijective
  · intro g _ h _
    obtain ⟨n, -, hreach⟩ := exists_iterate_step_eq g h
    refine ⟨n, ?_⟩
    rw [zpow_natCast, ← Equiv.Perm.iterate_eq_pow, hstep]
    exact hreach

/-- A step multiplies and adds modulo `2 ^ 48`. It permutes the states in a single cycle: any state
is reached from any other in one number of steps below `2 ^ 48`, and the first return takes just
`2 ^ 48` steps. A draw gives the highest bits of the next state, as many of them as it holds, and up
to 31 bits never make it negative. -/
theorem states_form_one_cycle :
    Nat.card Generator = 2 ^ 48 ∧
    (∀ g : Generator, g.step.word.toNat = (g.word.toNat * 0x5DEECE66D + 0xB) % 2 ^ 48) ∧
    (∃ σ : Equiv.Perm Generator, ⇑σ = step ∧ σ.IsCycleOn Set.univ) ∧
    (∀ g h : Generator, ∃! n, n < 2 ^ 48 ∧ step^[n] g = h) ∧
    (∀ g : Generator, IsLeast {n | 0 < n ∧ step^[n] g = g} (2 ^ 48)) ∧
    ∀ (g : Generator) (bits : Nat), bits ≤ 48 →
      (g.draw bits).2 = g.step ∧ g.step.word.toNat < 2 ^ 48 ∧
      (g.draw bits).1.toUInt32.toNat = g.step.word.toNat / 2 ^ (48 - bits) % 2 ^ 32 ∧
      (bits ≤ 32 →
        (g.draw bits).1.toUInt32.toNat = g.step.word.toNat / 2 ^ (48 - bits)) ∧
      (bits ≤ 31 → 0 ≤ (g.draw bits).1) := by
  refine ⟨card_eq, ?_, exists_perm_isCycleOn, existsUnique_iterate_step_eq, isLeast_return, ?_⟩
  · intro g
    rw [toNat_step, Nat.mul_comm]
  · intro g bits _
    exact ⟨rfl, g.step.word_lt, toNat_top g.step bits, fun h => toNat_top_of_le g.step h,
      fun h => top_nonneg g.step h⟩

/-- The first draws from the seed zero, of 32 bits and of 31. -/
theorem states_form_one_cycle_zeroSeed :
    (32 ≤ 48 ∧ 31 ≤ 31) ∧ ((ofSeed 0).draw 32).1 = -1155484576 ∧
      (ofSeed 0).step.word.toNat / 2 ^ (48 - 32) = 3139482720 ∧
      (ofSeed 0).step.word.toNat / 2 ^ (48 - 31) = ((ofSeed 0).draw 31).1.toUInt32.toNat ∧
      0 ≤ ((ofSeed 0).draw 31).1 := by
  have hfirst : ((ofSeed 0).draw 32).1 = -1155484576 := by decide
  obtain ⟨-, -, -, -, -, hdraw⟩ := states_form_one_cycle
  obtain ⟨-, -, -, hword, -⟩ := hdraw (ofSeed 0) 32 (by decide)
  obtain ⟨-, -, -, hhigh, hnonneg⟩ := hdraw (ofSeed 0) 31 (by decide)
  refine ⟨by decide, hfirst, ?_, (hhigh (by decide)).symm, hnonneg le_rfl⟩
  rw [← hword le_rfl, hfirst]
  rfl

end ExamVariants.Generator
