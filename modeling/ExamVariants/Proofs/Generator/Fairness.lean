import ExamVariants.Proofs.Generator.Rejection
import Mathlib.Data.Set.Card

namespace ExamVariants.Generator

open Function

variable {bound u r : Int32} {g : Generator}

def draws : Set Int32 := Set.range fun g : Generator => (g.draw 31).1

theorem mem_draws_iff : u ∈ draws ↔ 0 ≤ u := by
  constructor
  · rintro ⟨g, rfl⟩
    exact top_nonneg g.step le_rfl
  · intro hu
    rw [nonneg_iff_toInt] at hu
    have hlt := u.toInt_lt
    obtain ⟨g, hg⟩ := step_bijective.surjective (ofWord (UInt64.ofNat (u.toInt.toNat * 2 ^ 17)))
    refine ⟨g, Int32.toInt_inj.mp ?_⟩
    change (g.step.top 31).toInt = u.toInt
    rw [hg, toInt_top _ le_rfl, toNat_ofWord, UInt64.toNat_ofNat']
    omega

theorem ofNat_nonneg {d : Nat} (hd : d < 2 ^ 31) : 0 ≤ Int32.ofNat d := by
  rw [nonneg_iff_toInt, Int32.toInt_ofNat_of_lt hd]
  exact Int.natCast_nonneg d

theorem exists_ofNat_eq_of_nonneg (hu : 0 ≤ u) : ∃ d < 2 ^ 31, Int32.ofNat d = u := by
  rw [nonneg_iff_toInt] at hu
  have hlt := u.toInt_lt
  refine ⟨u.toInt.toNat, by omega, ?_⟩
  rw [← Int32.toInt_inj, Int32.toInt_ofNat_of_lt (by omega), Int.toNat_of_nonneg hu]

/-- The draws with a property that holds just for the terms of an arithmetic progression. -/
theorem ncard_of_progression {p : Int32 → Prop} (start stride count : Nat) (hstride : 0 < stride)
    (hrange : ∀ i < count, start + i * stride < 2 ^ 31)
    (hp : ∀ d < 2 ^ 31, p (Int32.ofNat d) ↔ ∃ i < count, d = start + i * stride) :
    {u ∈ draws | p u}.ncard = count := by
  refine Set.ncard_eq_of_bijective (fun i _ => Int32.ofNat (start + i * stride)) ?_ ?_ ?_
  · rintro u ⟨hu, hpu⟩
    obtain ⟨d, hd, rfl⟩ := exists_ofNat_eq_of_nonneg (mem_draws_iff.mp hu)
    obtain ⟨i, hi, rfl⟩ := (hp d hd).mp hpu
    exact ⟨i, hi, rfl⟩
  · intro i hi
    exact ⟨mem_draws_iff.mpr (ofNat_nonneg (hrange i hi)), (hp _ (hrange i hi)).mpr ⟨i, hi, rfl⟩⟩
  · intro i j hi hj hsame
    rw [← Int32.toInt_inj, Int32.toInt_ofNat_of_lt (hrange i hi),
      Int32.toInt_ofNat_of_lt (hrange j hj), Int.natCast_inj] at hsame
    exact Nat.eq_of_mul_eq_mul_right hstride (Nat.add_left_cancel hsame)

theorem ncard_draws : draws.ncard = 2 ^ 31 := by
  have hall : {u ∈ draws | True}.ncard = 2 ^ 31 := by
    refine ncard_of_progression 0 1 (2 ^ 31) Nat.one_pos (by omega) fun d hd => ?_
    exact ⟨fun _ => ⟨d, hd, by omega⟩, fun _ => trivial⟩
  simpa using hall

/-- What a draw gives under a bound, unless it is refused. -/
def outcome (bound u : Int32) : Option Int32 :=
  if bound &&& (bound - 1) = 0 then some ((bound.toInt64 * u.toInt64) >>> 31).toInt32
  else if accepts bound u then some (u % bound)
  else none

theorem and_pred_eq_zero_iff (hbound : 0 < bound) :
    bound &&& (bound - 1) = 0 ↔ ∃ k : Nat, bound.toInt = 2 ^ k := by
  rw [pos_iff_toInt] at hbound
  have hlt := bound.toBitVec.isLt
  have htoInt : bound.toInt = bound.toBitVec.toNat := by
    have hcond := BitVec.toInt_eq_toNat_cond bound.toBitVec
    rw [Int32.toInt_toBitVec] at hcond
    split at hcond <;> omega
  have hpred : (bound - 1).toBitVec.toNat = bound.toBitVec.toNat - 1 := by
    have hone : (1 : Int32).toBitVec.toNat = 1 := rfl
    rw [Int32.toBitVec_sub, BitVec.toNat_sub, hone]
    omega
  have hne : bound.toBitVec.toNat ≠ 0 := by omega
  rw [← Int32.toBitVec_inj, Int32.toBitVec_and, ← BitVec.toNat_inj, BitVec.toNat_and, hpred,
    htoInt]
  change _ = 0 ↔ _
  rw [Nat.and_sub_one_eq_zero_iff_isPowerOfTwo hne, Nat.isPowerOfTwo]
  exact_mod_cast Iff.rfl

theorem dvd_of_power (hpower : ∃ k : Nat, bound.toInt = 2 ^ k) : bound.toInt ∣ 2 ^ 31 := by
  obtain ⟨k, hk⟩ := hpower
  have hlt : (2 : Int) ^ k < 2 ^ 31 := hk ▸ bound.toInt_lt
  rw [hk]
  exact pow_dvd_pow 2 ((Nat.pow_lt_pow_iff_right one_lt_two).mp (by exact_mod_cast hlt)).le

theorem outcome_of_power (hbound : 0 < bound) (hpower : ∃ k : Nat, bound.toInt = 2 ^ k)
    (hu : 0 ≤ u) :
    outcome bound u = some r ↔ r.toInt = u.toInt / (2 ^ 31 / bound.toInt) := by
  have hscaled := toInt_scaled hbound hu
  have hpos : 0 < bound.toInt := pos_iff_toInt.mp hbound
  have hhigh : bound.toInt * u.toInt / 2 ^ 31 = u.toInt / (2 ^ 31 / bound.toInt) := by
    obtain ⟨size, hsize⟩ := dvd_of_power hpower
    rw [hsize, Int.mul_ediv_cancel_left _ hpos.ne', Int.mul_ediv_mul_of_pos _ _ hpos]
  rw [outcome, if_pos ((and_pred_eq_zero_iff hbound).mpr hpower), Option.some_inj,
    ← Int32.toInt_inj, hscaled, hhigh, eq_comm]

theorem outcome_of_not_power (hbound : 0 < bound) (hpower : ¬ ∃ k : Nat, bound.toInt = 2 ^ k)
    (hu : 0 ≤ u) :
    outcome bound u = some r ↔
      (u.toInt / bound.toInt + 1) * bound.toInt ≤ 2 ^ 31 ∧ r.toInt = u.toInt % bound.toInt := by
  rw [outcome, if_neg (mt (and_pred_eq_zero_iff hbound).mp hpower), ← accepts_iff hbound hu,
    ← toInt_mod_of_nonneg hu, Int32.toInt_inj]
  by_cases haccepts : accepts bound u = true
  · rw [if_pos haccepts, Option.some_inj, eq_comm, and_iff_right haccepts]
  · rw [if_neg haccepts]
    exact iff_of_false (Option.some_ne_none r).symm fun h => haccepts h.1

theorem outcome_mem (hbound : 0 < bound) (hu : 0 ≤ u) (h : outcome bound u = some r) :
    0 ≤ r ∧ r < bound := by
  rw [outcome] at h
  split at h
  · obtain rfl := Option.some_inj.mp h
    exact scaled_mem hbound hu
  · split at h
    · obtain rfl := Option.some_inj.mp h
      exact remainder_mem hbound hu
    · cases h

/-- A power of two gives a value for a run of neighbours. -/
theorem ncard_outcome_of_power {b v : Nat} (hb : bound.toInt = b) (hv : r.toInt = v) (hvb : v < b)
    (hbound : 0 < bound) (hpower : ∃ k : Nat, bound.toInt = 2 ^ k) :
    {u ∈ draws | outcome bound u = some r}.ncard = 2 ^ 31 / b := by
  obtain ⟨size, hsize⟩ : b ∣ 2 ^ 31 := by
    have hdvd := dvd_of_power hpower
    rw [hb] at hdvd
    exact_mod_cast hdvd
  have hcount : 2 ^ 31 / b = size := by rw [hsize, Nat.mul_div_cancel_left _ (by omega)]
  have hsizePos : 0 < size := Nat.pos_of_ne_zero fun h => by simp [h] at hsize
  have hend : (v + 1) * size ≤ 2 ^ 31 := hsize ▸ Nat.mul_le_mul_right size hvb
  rw [Nat.succ_mul] at hend
  rw [hcount]
  refine ncard_of_progression (v * size) 1 size Nat.one_pos ?_ fun d hd => ?_
  · intro i hi
    omega
  -- The high bits of a draw are its quotient by `size`, so the draws of a value are neighbours.
  · have hdiv : v = d / size ↔ v * size ≤ d ∧ d < v * size + size := by
      rw [eq_comm, Nat.div_eq_iff hsizePos]
      omega
    have hcast : ((2 : Int) ^ 31 / b) = (size : Nat) := by rw [← hcount]; norm_cast
    rw [outcome_of_power hbound hpower (ofNat_nonneg hd), hb, hv, Int32.toInt_ofNat_of_lt hd, hcast,
      ← Int.natCast_ediv, Int.natCast_inj, hdiv]
    constructor
    · rintro ⟨hle, hlt⟩
      exact ⟨d - v * size, by omega, by omega⟩
    · rintro ⟨i, hi, rfl⟩
      omega

/-- Any other bound gives a value for one draw of every whole block. -/
theorem ncard_outcome_of_not_power {b v : Nat} (hb : bound.toInt = b) (hv : r.toInt = v)
    (hvb : v < b) (hbound : 0 < bound) (hpower : ¬ ∃ k : Nat, bound.toInt = 2 ^ k) :
    {u ∈ draws | outcome bound u = some r}.ncard = 2 ^ 31 / b := by
  have hbPos : 0 < b := by omega
  have hwhole (i : Nat) (hi : i < 2 ^ 31 / b) : (i + 1) * b ≤ 2 ^ 31 :=
    (Nat.le_div_iff_mul_le hbPos).mp hi
  refine ncard_of_progression v b (2 ^ 31 / b) hbPos ?_ fun d hd => ?_
  · intro i hi
    have hi' := hwhole i hi
    rw [Nat.succ_mul] at hi'
    omega
  · rw [outcome_of_not_power hbound hpower (ofNat_nonneg hd), hb, hv, Int32.toInt_ofNat_of_lt hd]
    norm_cast
    constructor
    · rintro ⟨hle, rfl⟩
      exact ⟨d / b, (Nat.le_div_iff_mul_le hbPos).mpr hle, (Nat.mod_add_div' d b).symm⟩
    · rintro ⟨i, hi, rfl⟩
      rw [Nat.add_mul_div_right _ _ hbPos, Nat.div_eq_of_lt hvb, Nat.zero_add,
        Nat.add_mul_mod_self_right, Nat.mod_eq_of_lt hvb]
      exact ⟨hwhole i hi, rfl⟩

theorem ncard_outcome (hbound : 0 < bound) (hr : 0 ≤ r) (hlt : r < bound) :
    {u ∈ draws | outcome bound u = some r}.ncard = 2 ^ 31 / bound.toInt.toNat := by
  have hr' := nonneg_iff_toInt.mp hr
  have hlt' := Int32.lt_iff_toInt_lt.mp hlt
  have hb : bound.toInt = bound.toInt.toNat := by omega
  have hv : r.toInt = r.toInt.toNat := by omega
  by_cases hpower : ∃ k : Nat, bound.toInt = 2 ^ k
  · exact ncard_outcome_of_power hb hv (by omega) hbound hpower
  · exact ncard_outcome_of_not_power hb hv (by omega) hbound hpower

/-- The value is the outcome of the first draw that has one, and the state is the one behind it. -/
def IsFirstOutcome (bound : Int32) (g : Generator) (result : Int32 × Generator) : Prop :=
  ∃ n, (∀ m < n, outcome bound (g.drawn m) = none) ∧
    outcome bound (g.drawn n) = some result.1 ∧ result.2 = step^[n + 1] g

theorem Settles.isFirstOutcome {result : Int32 × Generator} (hpower : bound &&& (bound - 1) ≠ 0)
    (h : Settles bound g result) : IsFirstOutcome bound g result := by
  induction h with
  | @accepted g haccepts =>
    refine ⟨0, fun m hm => absurd hm m.not_lt_zero, ?_, rfl⟩
    rw [drawn_zero, outcome, if_neg hpower, if_pos haccepts]
  | @refused g result hrefuses _ ih =>
    obtain ⟨n, hbefore, hthere, hstate⟩ := ih
    refine ⟨n + 1, fun m hm => ?_, ?_, ?_⟩
    · cases m with
      | zero => rw [drawn_zero, outcome, if_neg hpower, hrefuses, if_neg Bool.false_ne_true]
      | succ m =>
        rw [drawn_succ]
        exact hbefore m (Nat.lt_of_succ_lt_succ hm)
    · rw [drawn_succ]
      exact hthere
    · rw [hstate, ← iterate_succ_apply]

theorem isFirstOutcome_nextInt (hbound : 0 < bound) (g : Generator) :
    IsFirstOutcome bound g (g.nextInt bound) := by
  by_cases hpower : bound &&& (bound - 1) = 0
  · refine ⟨0, fun m hm => absurd hm m.not_lt_zero, ?_, ?_⟩
    · rw [drawn_zero, outcome, if_pos hpower, nextInt, if_pos hpower, draw]
    · rw [nextInt, if_pos hpower, draw, iterate_one]
  · exact (settles_nextInt hbound hpower g).isFirstOutcome hpower

/-- Of the `2 ^ 31` draws each value below a bound is the outcome of `2 ^ 31 / bound`, and no draw
has another outcome. A power of two refuses no draw and takes its high bits; any other bound takes
remainders and refuses the draws of the block that is cut off by the end of the range. The value
that is drawn is the outcome of the first draw that has one. -/
theorem bounded_draws_share_evenly {bound : Int32} (hbound : 0 < bound) :
    draws.ncard = 2 ^ 31 ∧
    (∀ r : Int32, 0 ≤ r → r < bound →
      {u ∈ draws | outcome bound u = some r}.ncard = 2 ^ 31 / bound.toInt.toNat) ∧
    (∀ u ∈ draws, ∀ r, outcome bound u = some r → 0 ≤ r ∧ r < bound) ∧
    ((∃ k : Nat, bound.toInt = 2 ^ k) → ∀ u ∈ draws, ∃ r, outcome bound u = some r ∧
      r.toInt = u.toInt / (2 ^ 31 / bound.toInt)) ∧
    ((¬ ∃ k : Nat, bound.toInt = 2 ^ k) → ∀ u ∈ draws, ∀ r, outcome bound u = some r ↔
      (u.toInt / bound.toInt + 1) * bound.toInt ≤ 2 ^ 31 ∧ r.toInt = u.toInt % bound.toInt) ∧
    ∀ g : Generator, IsFirstOutcome bound g (g.nextInt bound) := by
  refine ⟨ncard_draws, fun r => ncard_outcome hbound, ?_, ?_, ?_, isFirstOutcome_nextInt hbound⟩
  · intro u hu r houtcome
    exact outcome_mem hbound (mem_draws_iff.mp hu) houtcome
  · intro hpower u hu
    have houtcome : outcome bound u = some ((bound.toInt64 * u.toInt64) >>> 31).toInt32 :=
      if_pos ((and_pred_eq_zero_iff hbound).mpr hpower)
    exact ⟨_, houtcome, (outcome_of_power hbound hpower (mem_draws_iff.mp hu)).mp houtcome⟩
  · intro hpower u hu r
    exact outcome_of_not_power hbound hpower (mem_draws_iff.mp hu)

/-- A bound of either kind, and a draw that is refused. -/
theorem bounded_draws_share_evenly_ten :
    (0 : Int32) < 10 ∧ {u ∈ draws | outcome 10 u = some 3}.ncard = 214748364 ∧
      outcome 10 0x7FFFFFFF = none ∧
        (0 : Int32) < 8 ∧ {u ∈ draws | outcome 8 u = some 3}.ncard = 268435456 ∧
          outcome 8 0x7FFFFFFF = some 7 := by
  have hten : (0 : Int32) < 10 := by decide
  have height : (0 : Int32) < 8 := by decide
  have hshareTen := (bounded_draws_share_evenly hten).2.1 3 (by decide) (by decide)
  have hshareEight := (bounded_draws_share_evenly height).2.1 3 (by decide) (by decide)
  exact ⟨hten, hshareTen, by decide, height, hshareEight, by decide⟩

end ExamVariants.Generator
