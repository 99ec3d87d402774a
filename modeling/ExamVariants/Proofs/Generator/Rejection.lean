import ExamVariants.Proofs.Generator.HighBits
import ExamVariants.Proofs.Generator.Period
import ExamVariants.Shuffle

/-!
Bounded draws. A draw is refused when its block of values is cut off by the end of the range; as
every state is reached from every other, a draw is accepted in the end, and its remainder is below
the bound. So a drawn index is below its length, and no swap of a shuffle is out of range.
-/

namespace ExamVariants

namespace Generator

open Function

theorem pos_iff_toInt {u : Int32} : 0 < u ↔ 0 < u.toInt := by
  rw [Int32.lt_iff_toInt_lt, Int32.toInt_zero]

def drawn (g : Generator) (n : Nat) : Int32 := (step^[n + 1] g).top 31

theorem drawn_zero (g : Generator) : g.drawn 0 = g.step.top 31 := by
  rw [drawn, iterate_one]

theorem drawn_succ (g : Generator) (n : Nat) : g.drawn (n + 1) = g.step.drawn n := by
  rw [drawn, drawn, iterate_succ_apply]

variable {bound u : Int32} {g : Generator}

theorem toInt_mod_of_nonneg (hu : 0 ≤ u) : (u % bound).toInt = u.toInt % bound.toInt := by
  rw [Int32.toInt_mod, Int.tmod_eq_emod_of_nonneg (nonneg_iff_toInt.mp hu)]

/-- The signed sum overflows just where the block of the draw is cut off. -/
theorem accepts_iff (hbound : 0 < bound) (hu : 0 ≤ u) :
    accepts bound u = true ↔ (u.toInt / bound.toInt + 1) * bound.toInt ≤ 2 ^ 31 := by
  have hmod : (u % bound).toInt = u.toInt % bound.toInt := toInt_mod_of_nonneg hu
  rw [pos_iff_toInt] at hbound
  rw [nonneg_iff_toInt] at hu
  have hboundLt := bound.toInt_lt
  have huLt := u.toInt_lt
  have hsplit := Int.mul_ediv_add_emod u.toInt bound.toInt
  have hmodLt := Int.emod_lt_of_pos u.toInt hbound
  have hmodNonneg := Int.emod_nonneg u.toInt hbound.ne'
  have hstart : 0 ≤ bound.toInt * (u.toInt / bound.toInt) :=
    Int.mul_nonneg hbound.le (Int.ediv_nonneg hu hbound.le)
  have hblock : (u.toInt / bound.toInt + 1) * bound.toInt =
      bound.toInt * (u.toInt / bound.toInt) + bound.toInt := by ring
  rw [accepts, decide_eq_true_iff, ge_iff_le, Int32.le_iff_toInt_le, Int32.toInt_add,
    Int32.toInt_sub, Int32.toInt_sub, hmod, hblock, Int32.toInt_zero, Int32.toInt_one]
  -- The start of the block and the remainder stand for themselves; what is left is linear.
  generalize bound.toInt * (u.toInt / bound.toInt) = start at *
  generalize u.toInt % bound.toInt = r at *
  simp only [Int.bmod_def]
  omega

theorem remainder_mem (hbound : 0 < bound) (hu : 0 ≤ u) : 0 ≤ u % bound ∧ u % bound < bound := by
  rw [pos_iff_toInt] at hbound
  rw [nonneg_iff_toInt, Int32.lt_iff_toInt_lt, toInt_mod_of_nonneg hu]
  exact ⟨Int.emod_nonneg _ hbound.ne', Int.emod_lt_of_pos _ hbound⟩

theorem accepts_zero (hbound : 0 < bound) : accepts bound 0 = true := by
  have hlt := bound.toInt_lt
  rw [accepts_iff hbound (by decide), Int32.toInt_zero, Int.zero_ediv]
  omega

theorem exists_accepted (hbound : 0 < bound) (g : Generator) :
    ∃ n < 2 ^ 48, accepts bound (g.drawn n) = true := by
  have hzero : (ofWord 0).top 31 = 0 := by decide
  obtain ⟨n, hn, hreach⟩ := exists_iterate_step_eq g.step (ofWord 0)
  refine ⟨n, hn, ?_⟩
  rw [drawn, iterate_succ_apply, hreach, hzero]
  exact accepts_zero hbound

/-- Draws are taken until one is accepted, however many that takes. -/
inductive Settles (bound : Int32) : Generator → Int32 × Generator → Prop
  | accepted {g : Generator} (h : accepts bound (g.step.top 31) = true) :
      Settles bound g (g.step.top 31 % bound, g.step)
  | refused {g : Generator} {result : Int32 × Generator}
      (h : accepts bound (g.step.top 31) = false) (hrest : Settles bound g.step result) :
      Settles bound g result

theorem settles_remainder {n fuel : Nat} (hn : n < fuel) (h : accepts bound (g.drawn n) = true) :
    Settles bound g (remainder bound fuel g) := by
  induction fuel generalizing g n with
  | zero => exact absurd hn n.not_lt_zero
  | succ fuel ih =>
    rw [remainder, draw]
    dsimp only
    by_cases hfirst : accepts bound (g.step.top 31) = true
    · rw [if_pos hfirst]
      exact .accepted hfirst
    · rw [if_neg hfirst]
      rw [Bool.not_eq_true] at hfirst
      cases n with
      | zero =>
        rw [drawn_zero, hfirst] at h
        exact absurd h Bool.false_ne_true
      | succ n =>
        rw [drawn_succ] at h
        exact .refused hfirst (ih (Nat.lt_of_succ_lt_succ hn) h)

theorem Settles.mem {result : Int32 × Generator} (hbound : 0 < bound)
    (h : Settles bound g result) : 0 ≤ result.1 ∧ result.1 < bound := by
  induction h with
  | accepted => exact remainder_mem hbound (top_nonneg _ le_rfl)
  | refused _ _ ih => exact ih

theorem Settles.unique {result result' : Int32 × Generator} (h : Settles bound g result)
    (h' : Settles bound g result') : result = result' := by
  induction h with
  | accepted haccepts =>
    cases h' with
    | accepted => rfl
    | refused hrefuses => simp [haccepts] at hrefuses
  | refused hrefuses _ ih =>
    cases h' with
    | accepted haccepts => simp [hrefuses] at haccepts
    | refused _ hrest => exact ih hrest

theorem mul_toInt_mem (hbound : 0 < bound) (hu : 0 ≤ u) :
    0 ≤ bound.toInt * u.toInt ∧ bound.toInt * u.toInt < bound.toInt * 2 ^ 31 := by
  rw [pos_iff_toInt] at hbound
  rw [nonneg_iff_toInt] at hu
  exact ⟨Int.mul_nonneg hbound.le hu, Int.mul_lt_mul_of_pos_left u.toInt_lt hbound⟩

theorem toInt_scaled (hbound : 0 < bound) (hu : 0 ≤ u) :
    (((bound.toInt64 * u.toInt64) >>> 31).toInt32).toInt = bound.toInt * u.toInt / 2 ^ 31 := by
  obtain ⟨hnonneg, hlt⟩ := mul_toInt_mem hbound hu
  have hboundLt := bound.toInt_lt
  have hcount : ((31 : Int64).toBitVec.smod 64).toNat = 31 := by decide
  have hshift : ((bound.toInt64 * u.toInt64) >>> 31).toInt = bound.toInt * u.toInt / 2 ^ 31 := by
    rw [← Int64.toInt_toBitVec, Int64.toBitVec_shiftRight, BitVec.toInt_sshiftRight', hcount,
      Int64.toInt_toBitVec, Int64.toInt_mul, Int32.toInt_toInt64, Int32.toInt_toInt64,
      Int.shiftRight_eq_div_pow, Int.bmod_def]
    omega
  rw [Int64.toInt_toInt32, hshift, Int.bmod_def]
  omega

theorem scaled_mem (hbound : 0 < bound) (hu : 0 ≤ u) :
    (0 : Int32) ≤ ((bound.toInt64 * u.toInt64) >>> 31).toInt32 ∧
      ((bound.toInt64 * u.toInt64) >>> 31).toInt32 < bound := by
  obtain ⟨hnonneg, hlt⟩ := mul_toInt_mem hbound hu
  rw [nonneg_iff_toInt, Int32.lt_iff_toInt_lt, toInt_scaled hbound hu]
  omega

theorem settles_nextInt (hbound : 0 < bound) (hpower : bound &&& (bound - 1) ≠ 0)
    (g : Generator) : Settles bound g (g.nextInt bound) := by
  obtain ⟨n, hn, haccepts⟩ := exists_accepted hbound g
  rw [nextInt, if_neg hpower]
  exact settles_remainder hn haccepts

theorem nextInt_mem (hbound : 0 < bound) (g : Generator) :
    0 ≤ (g.nextInt bound).1 ∧ (g.nextInt bound).1 < bound := by
  by_cases hpower : bound &&& (bound - 1) = 0
  · rw [nextInt, if_pos hpower]
    exact scaled_mem hbound (top_nonneg g.step le_rfl)
  · exact (settles_nextInt hbound hpower g).mem hbound

/-- A length above the largest bound draws below that bound. -/
theorem nextIndex_lt (g : Generator) {len : Nat} (hlen : 0 < len) : (g.nextIndex len).1 < len := by
  have hmin : min len maxBound < 2 ^ 31 := by rw [maxBound]; omega
  have htoInt := Int32.toInt_ofNat_of_lt hmin
  have hbound : 0 < Int32.ofNat (min len maxBound) := by
    rw [pos_iff_toInt, htoInt, maxBound]
    omega
  have hlt := (nextInt_mem hbound g).2
  rw [Int32.lt_iff_toInt_lt, htoInt] at hlt
  rw [nextIndex]
  dsimp only
  rw [← Int32.toNat_toInt]
  omega

end Generator

namespace Shuffle

open Generator

/-- Every swap that the partners drive stays within the first `n` positions, each position with
itself or with one before it. -/
def SwapsWithin (n : Nat) : List Nat → Prop
  | [] => True
  | j :: js => j ≤ js.length + 1 ∧ js.length + 1 < n ∧ SwapsWithin n js

theorem SwapsWithin.mono {m n : Nat} {js : List Nat} (hmn : m ≤ n) (h : SwapsWithin m js) :
    SwapsWithin n js := by
  induction js with
  | nil => trivial
  | cons j js ih => exact ⟨h.1, h.2.1.trans_le hmn, ih h.2.2⟩

@[simp] theorem length_partners (n : Nat) (g : Generator) : (partners n g).1.length = n := by
  induction n generalizing g with
  | zero => rfl
  | succ n ih =>
    rw [partners]
    dsimp only
    rw [List.length_cons, ih]

theorem swapsWithin_partners (n : Nat) (g : Generator) :
    SwapsWithin (n + 1) (partners n g).1 := by
  induction n generalizing g with
  | zero => trivial
  | succ n ih =>
    rw [partners]
    dsimp only
    have hindex : (g.nextIndex (n + 2)).1 < n + 2 := nextIndex_lt g (Nat.succ_pos _)
    rw [SwapsWithin, length_partners]
    exact ⟨Nat.le_of_lt_succ hindex, Nat.lt_succ_self _, (ih _).mono (Nat.le_succ _)⟩

end Shuffle

namespace Generator

/-- The overflow test refuses just the draws of a block that is cut off, and from every state the
loop of draws ends, with one result. A value drawn is below its bound, an index below its length,
and the swaps of a shuffle are all in range. -/
theorem bounded_draws_settle :
    (∀ (g : Generator) (bound : Int32), 0 < bound →
      (0 ≤ (g.nextInt bound).1 ∧ (g.nextInt bound).1 < bound) ∧
      (bound &&& (bound - 1) ≠ 0 → ∀ result, Settles bound g result ↔ result = g.nextInt bound) ∧
      (∀ u : Int32, 0 ≤ u →
        (accepts bound u = true ↔ (u.toInt / bound.toInt + 1) * bound.toInt ≤ 2 ^ 31)) ∧
      ∃ n, accepts bound (g.drawn n) = true) ∧
    (∀ (g : Generator) (len : Nat), 0 < len → (g.nextIndex len).1 < len) ∧
    ∀ {α : Type} (g : Generator) (xs : Array α),
      Shuffle.SwapsWithin xs.size (Shuffle.partners (xs.size - 1) g).1 := by
  refine ⟨?_, fun g len hlen => nextIndex_lt g hlen, ?_⟩
  · intro g bound hbound
    refine ⟨nextInt_mem hbound g, ?_, fun u hu => accepts_iff hbound hu, ?_⟩
    · intro hpower result
      have hsettles := settles_nextInt hbound hpower g
      exact ⟨fun h => h.unique hsettles, fun h => h ▸ hsettles⟩
    · obtain ⟨n, -, haccepts⟩ := exists_accepted hbound g
      exact ⟨n, haccepts⟩
  · intro α g xs
    cases hsize : xs.size with
    | zero => trivial
    | succ n => exact Shuffle.swapsWithin_partners n g

/-- The first draw of this state is refused. -/
theorem bounded_draws_settle_refused :
    (0 : Int32) < 0x40000001 ∧ (0x40000001 : Int32) &&& (0x40000001 - 1) ≠ 0 ∧
      accepts 0x40000001 ((ofSeed 0).drawn 0) = false ∧
        (0 ≤ ((ofSeed 0).nextInt 0x40000001).1 ∧ ((ofSeed 0).nextInt 0x40000001).1 < 0x40000001) ∧
          Settles 0x40000001 (ofSeed 0) ((ofSeed 0).nextInt 0x40000001) ∧
            ((ofSeed 0).nextIndex 3).1 < 3 := by
  have hbound : (0 : Int32) < 0x40000001 := by decide
  have hpower : (0x40000001 : Int32) &&& (0x40000001 - 1) ≠ 0 := by decide
  obtain ⟨hint, hindex, -⟩ := bounded_draws_settle
  obtain ⟨hmem, hsettles, -⟩ := hint (ofSeed 0) 0x40000001 hbound
  exact ⟨hbound, hpower, by decide, hmem, (hsettles hpower _).mpr rfl,
    hindex (ofSeed 0) 3 (by decide)⟩

end Generator

end ExamVariants
