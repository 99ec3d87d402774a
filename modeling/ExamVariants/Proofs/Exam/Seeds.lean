import ExamVariants.Proofs.Exam.Draw
import ExamVariants.Proofs.Generator.Period
import ExamVariants.Proofs.Question.Tree
import Mathlib.Data.Int.ModEq
import Mathlib.Data.Nat.Bitwise

namespace ExamVariants

namespace Generator

variable {seed seed' : Int64}

theorem ofWord_eq_iff {v w : UInt64} :
    ofWord v = ofWord w ↔ v.toNat % 2 ^ 48 = w.toNat % 2 ^ 48 := by
  rw [Generator.ext_iff, ← UInt64.toNat_inj, toNat_ofWord, toNat_ofWord]
  rfl

/-- The low bits of a signed word do not depend on its sign. -/
theorem toInt_emod (seed : Int64) : seed.toInt % 2 ^ 48 = (seed.toUInt64.toNat % 2 ^ 48 : Nat) := by
  have hsigned := BitVec.toInt_eq_toNat_bmod seed.toBitVec
  rw [Int64.toInt_toBitVec, Int.bmod_def] at hsigned
  change _ = ((seed.toBitVec.toNat % 2 ^ 48 : Nat) : Int)
  omega

theorem ofSeed_eq_iff : ofSeed seed = ofSeed seed' ↔ seed.toInt ≡ seed'.toInt [ZMOD 2 ^ 48] := by
  rw [ofSeed, ofSeed, ofWord_eq_iff, UInt64.toNat_xor, UInt64.toNat_xor, Nat.xor_mod_two_pow,
    Nat.xor_mod_two_pow, Nat.xor_left_inj, Int.ModEq, toInt_emod, toInt_emod, Int.natCast_inj]

theorem iterate_step_ofSeed_eq_iff (n : Nat) :
    step^[n] (ofSeed seed) = step^[n] (ofSeed seed') ↔
      seed.toInt ≡ seed'.toInt [ZMOD 2 ^ 48] := by
  rw [(step_bijective.injective.iterate n).eq_iff, ofSeed_eq_iff]

end Generator

open Generator

variable {seed seed' : Int64}

theorem Shuffle.shuffled_congr {α : Type} (h : ofSeed seed = ofSeed seed') (xs : List α) :
    shuffled xs seed = shuffled xs seed' := by
  rw [shuffled, shuffled, h]

theorem Question.scrambled_congr (h : ofSeed seed = ofSeed seed') (q : Question) :
    q.scrambled seed = q.scrambled seed' := by
  induction q with
  | openEnded => rfl
  | closedEnded statement points choices =>
    rw [scrambled, scrambled, Shuffle.shuffled_congr h]
  | trueFalse => rfl
  | compound statement points children ih =>
    rw [scrambled, scrambled, scrambledEach_eq_map, scrambledEach_eq_map, List.map_congr_left ih,
      Shuffle.shuffled_congr h]

namespace Exam

theorem scrambled_congr (h : ofSeed seed = ofSeed seed') (e : Exam) :
    e.scrambled seed = e.scrambled seed' := by
  have hquestions : Question.scrambled seed = Question.scrambled seed' :=
    funext (Question.scrambled_congr h)
  rw [scrambled, scrambled, hquestions, Shuffle.shuffled_congr h]

theorem variant_congr (h : ofSeed seed = ofSeed seed') (e : Exam) (limit : Nat) (s : Section) :
    e.variant seed limit s = e.variant seed' limit s := by
  rw [variant, variant, Shuffle.shuffled_congr h, scrambled_congr h]

/-- Adding the index of a section wraps at `2 ^ 64`, a multiple of `2 ^ 48`. -/
theorem toInt_sectionSeed_modEq (seed : Int64) (i : Nat) :
    (sectionSeed seed i).toInt ≡ seed.toInt + i [ZMOD 2 ^ 48] := by
  have hsize : (Int64.size : Int) = 2 ^ 64 := rfl
  rw [sectionSeed_eq, Int64.toInt_ofInt, Int.ModEq, Int.bmod_def, hsize]
  omega

theorem ofSeed_sectionSeed (h : seed.toInt ≡ seed'.toInt [ZMOD 2 ^ 48]) (i : Nat) :
    ofSeed (sectionSeed seed i) = ofSeed (sectionSeed seed' i) := by
  rw [ofSeed_eq_iff]
  calc (sectionSeed seed i).toInt
      ≡ seed.toInt + i [ZMOD 2 ^ 48] := toInt_sectionSeed_modEq seed i
    _ ≡ seed'.toInt + i [ZMOD 2 ^ 48] := h.add_right _
    _ ≡ (sectionSeed seed' i).toInt [ZMOD 2 ^ 48] := (toInt_sectionSeed_modEq seed' i).symm

theorem variants_congr (h : seed.toInt ≡ seed'.toInt [ZMOD 2 ^ 48]) (e : Exam) (limit : Nat) :
    e.variants seed limit = e.variants seed' limit := by
  have hvariant (i : Nat) (s : Section) :
      e.variant (sectionSeed seed i) limit s = e.variant (sectionSeed seed' i) limit s :=
    variant_congr (ofSeed_sectionSeed h i) e limit s
  simp only [variants, hvariant]

/-- Seeds that agree modulo `2 ^ 48` give the same variants of every examination, or the same
error. The generators of two seeds are in one state, at the start or after any number of steps, only
if the seeds agree modulo `2 ^ 48`. -/
theorem seeds_count_modulo (seed seed' : Int64) :
    (seed.toInt ≡ seed'.toInt [ZMOD 2 ^ 48] →
      ∀ (e : Exam) (limit : Nat), e.variants seed limit = e.variants seed' limit) ∧
    ∀ n, step^[n] (ofSeed seed) = step^[n] (ofSeed seed') ↔
      seed.toInt ≡ seed'.toInt [ZMOD 2 ^ 48] :=
  ⟨fun h => variants_congr h, iterate_step_ofSeed_eq_iff⟩

def pairedSheet : Exam where
  parameters := Parameters.empty.bind .sections
    (.sections [⟨"A", none, none⟩, ⟨"B", none, none⟩])
  questions := [.trueFalse (.plain "first") true 1, .trueFalse (.plain "second") false 2]

/-- The seed of the second section wraps around for one of the seeds only. -/
theorem seeds_count_modulo_wrapping :
    Int64.maxValue.toInt ≡ (-1 : Int64).toInt [ZMOD 2 ^ 48] ∧
      (∃ vs, pairedSheet.variants Int64.maxValue 2 = .ok vs ∧ pairedSheet.variants (-1) 2 = .ok vs ∧
        vs.length = 2) ∧
      step^[1000] (ofSeed Int64.maxValue) ≠ step^[1000] (ofSeed 0) := by
  have hseeds : Int64.maxValue.toInt ≡ (-1 : Int64).toInt [ZMOD 2 ^ 48] := by decide
  have hother : ¬ Int64.maxValue.toInt ≡ (0 : Int64).toInt [ZMOD 2 ^ 48] := by decide
  have hsame := (seeds_count_modulo Int64.maxValue (-1)).1 hseeds pairedSheet 2
  have hapart := (seeds_count_modulo Int64.maxValue 0).2 1000
  exact ⟨hseeds, ⟨_, rfl, hsame.symm, rfl⟩, mt hapart.mp hother⟩

end Exam

end ExamVariants
