import ExamVariants.Exam.Variant
import ExamVariants.Proofs.Shuffle.Order
import Mathlib.Data.List.Nodup
import Mathlib.Data.List.TakeDrop

namespace ExamVariants.Exam

open Shuffle

/-- The indices of the questions that a variant draws, in the order of the variant. -/
def drawn (n limit : Nat) (seed : Int64) : List Nat :=
  shuffled ((order (Generator.ofSeed seed) n).take limit) seed

theorem length_drawn (n limit : Nat) (seed : Int64) : (drawn n limit seed).length = min limit n := by
  simp [drawn]

theorem nodup_drawn (n limit : Nat) (seed : Int64) : (drawn n limit seed).Nodup :=
  (perm_shuffled _ seed).nodup_iff.mpr ((nodup_order _ n).sublist (List.take_sublist limit _))

theorem lt_of_mem_drawn {n limit : Nat} {seed : Int64} {i : Nat} (h : i ∈ drawn n limit seed) :
    i < n :=
  mem_order_iff.mp (List.mem_of_mem_take ((perm_shuffled _ seed).mem_iff.mp h))

def draw {n limit : Nat} (h : limit ≤ n) (seed : Int64) (p : Fin limit) : Fin n :=
  have hp : p.val < (drawn n limit seed).length := by
    rw [length_drawn, Nat.min_eq_left h]
    exact p.isLt
  ⟨(drawn n limit seed)[p], lt_of_mem_drawn (List.getElem_mem hp)⟩

theorem draw_injective {n limit : Nat} (h : limit ≤ n) (seed : Int64) :
    Function.Injective (draw h seed) := by
  intro p q hpq
  exact Fin.ext ((nodup_drawn n limit seed).getElem_inj_iff.mp (congrArg Fin.val hpq))

theorem questions_variant (e : Exam) (seed : Int64) (limit : Nat) (s : Section) :
    (e.variant seed limit s).questions =
      (shuffled ((shuffled e.questions seed).take limit) seed).map (Question.scrambled seed) :=
  shuffled_map _ _ _

theorem parameters_variant (e : Exam) (seed : Int64) (limit : Nat) (s : Section) :
    (e.variant seed limit s).parameters = e.parameters.bind .sections (.boundSection s) := rfl

/-- The variant holds the questions at the drawn indices. -/
theorem map_some_questions_variant (e : Exam) (seed : Int64) (limit : Nat) (s : Section) :
    (e.variant seed limit s).questions.map some =
      (drawn e.questions.length limit seed).map fun i =>
        e.questions[i]?.map (Question.scrambled seed) := by
  -- Both shuffles and the cut commute with looking up the indices.
  have hdrawn : (shuffled ((shuffled e.questions seed).take limit) seed).map some =
      (drawn e.questions.length limit seed).map (e.questions[·]?) := by
    rw [← shuffled_map, List.map_take, map_some_shuffled, ← List.map_take, shuffled_map, drawn]
  have h := congrArg (List.map (Option.map (Question.scrambled seed))) hdrawn
  rw [List.map_map, List.map_map] at h
  rw [questions_variant, List.map_map]
  exact h

theorem getElem?_questions_variant (e : Exam) (seed : Int64) {limit : Nat}
    (h : limit ≤ e.questions.length) (s : Section) (p : Fin limit) :
    (e.variant seed limit s).questions[p.val]? =
      some (e.questions[draw h seed p].scrambled seed) := by
  have hp : p.val < (drawn e.questions.length limit seed).length := by
    rw [length_drawn, Nat.min_eq_left h]
    exact p.isLt
  have hmap := congrArg (·[p.val]?) (map_some_questions_variant e seed limit s)
  have hdraw : e.questions[(drawn e.questions.length limit seed)[p.val]]? =
      some e.questions[draw h seed p] := List.getElem?_eq_getElem (draw h seed p).isLt
  simpa [hp, hdraw] using hmap

theorem sectionSeed_eq (seed : Int64) (i : Nat) :
    sectionSeed seed i = Int64.ofInt (seed.toInt + i) := by
  rw [sectionSeed, Int64.ofInt_add, Int64.ofInt_toInt, Int64.ofInt_eq_ofNat]

theorem sectionSeed_zero (seed : Int64) : sectionSeed seed 0 = seed := by
  simp [sectionSeed]

theorem variants_of_lt {e : Exam} {limit : Nat} (h : e.questions.length < limit) (seed : Int64) :
    e.variants seed limit = .error (.limitExceedsQuestions limit e.questions.length) :=
  if_pos h

theorem variants_of_le {e : Exam} {limit : Nat} (h : limit ≤ e.questions.length) (seed : Int64) :
    e.variants seed limit =
      (fun ss => ss.mapIdx fun i s => e.variant (sectionSeed seed i) limit s) <$> e.sections :=
  if_neg (Nat.not_lt_of_le h)

theorem variants_eq_ok_iff {e : Exam} {seed : Int64} {limit : Nat} {vs : List Exam} :
    e.variants seed limit = .ok vs ↔ limit ≤ e.questions.length ∧ ∃ ss, e.sections = .ok ss ∧
      vs = ss.mapIdx fun i s => e.variant (sectionSeed seed i) limit s := by
  by_cases h : limit ≤ e.questions.length
  · rw [variants_of_le h]
    cases e.sections <;> simp [h, Functor.map, Except.map, eq_comm]
  · rw [variants_of_lt (Nat.lt_of_not_le h)]
    simp [h]

theorem sections_ne_limitExceedsQuestions (e : Exam) (limit available : Nat) :
    e.sections ≠ .error (.limitExceedsQuestions limit available) := by
  unfold sections
  split <;> simp

theorem variant_bind_sections (e : Exam) (value : ParameterValue) (seed : Int64) (limit : Nat)
    (s : Section) :
    Exam.variant ⟨e.parameters.bind .sections value, e.questions⟩ seed limit s =
      e.variant seed limit s := by
  have hbind : (e.parameters.bind .sections value).bind .sections (.boundSection s) =
      e.parameters.bind .sections (.boundSection s) := by
    funext q
    by_cases hq : q = .sections
    · simp [hq]
    · rw [Parameters.bind_of_ne _ _ hq, Parameters.bind_of_ne _ _ hq, Parameters.bind_of_ne _ _ hq]
  simp only [variant, forSection, hbind]

theorem variants_alone {e : Exam} {limit : Nat} (h : limit ≤ e.questions.length) (seed : Int64)
    {s : Section} {value : ParameterValue} (hvalue : value = .sections [s] ∨ value = .boundSection s) :
    Exam.variants ⟨e.parameters.bind .sections value, e.questions⟩ seed limit =
      .ok [e.variant seed limit s] := by
  have hsections : Exam.sections ⟨e.parameters.bind .sections value, e.questions⟩ = .ok [s] := by
    rcases hvalue with rfl | rfl <;> simp [sections]
  have h' : limit ≤ (Exam.mk (e.parameters.bind .sections value) e.questions).questions.length := h
  rw [variants_of_le h', hsections, ← variant_bind_sections e value]
  simp only [Functor.map, Except.map, List.mapIdx_cons, List.mapIdx_nil, sectionSeed_zero]

/-- Too high a limit fails, then sections fail as they do; otherwise the variant of a section holds
the questions at injectively drawn indices, scrambled, and it is the one that the section has
alone. -/
theorem variants_hold_drawn_questions (e : Exam) (seed : Int64) (limit : Nat) :
    ((∃ l n, e.variants seed limit = .error (.limitExceedsQuestions l n)) ↔
        e.questions.length < limit) ∧
      ∀ h : limit ≤ e.questions.length,
        (∀ err, e.variants seed limit = .error err ↔ e.sections = .error err) ∧
        ∀ ss, e.sections = .ok ss → ∃ vs, e.variants seed limit = .ok vs ∧ vs.length = ss.length ∧
          ∀ (i : Nat) (s : Section), ss[i]? = some s → ∃ v, vs[i]? = some v ∧
            sectionSeed seed i = Int64.ofInt (seed.toInt + i) ∧
            Function.Injective (draw h (sectionSeed seed i)) ∧
            v.questions.length = limit ∧
            (∀ p : Fin limit, v.questions[p.val]? =
              some (e.questions[draw h (sectionSeed seed i) p].scrambled (sectionSeed seed i))) ∧
            v.parameters .sections = some (.boundSection s) ∧
            (∀ q, q ≠ .sections → v.parameters q = e.parameters q) ∧
            ∀ value, value = .sections [s] ∨ value = .boundSection s →
              Exam.variants ⟨e.parameters.bind .sections value, e.questions⟩
                (sectionSeed seed i) limit = .ok [v] := by
  refine ⟨⟨?_, fun h => ⟨_, _, variants_of_lt h seed⟩⟩, fun h => ⟨fun err => ?_, ?_⟩⟩
  -- The limit is looked at first, so under a limit that holds the only errors are those of the
  -- sections, and none of these is about the limit.
  · rintro ⟨l, n, hfail⟩
    by_contra hle
    rw [variants_of_le (Nat.le_of_not_lt hle)] at hfail
    cases hsections : e.sections with
    | error err =>
      rw [hsections] at hfail
      obtain rfl : err = .limitExceedsQuestions l n := Except.error.inj hfail
      exact sections_ne_limitExceedsQuestions e l n hsections
    | ok ss =>
      rw [hsections] at hfail
      cases hfail
  · rw [variants_of_le h]
    cases e.sections <;> simp [Functor.map, Except.map]
  · intro ss hss
    refine ⟨_, by rw [variants_of_le h, hss]; rfl, by rw [List.length_mapIdx], ?_⟩
    intro i s hs
    refine ⟨e.variant (sectionSeed seed i) limit s, by rw [List.getElem?_mapIdx, hs]; rfl, ?_⟩
    refine ⟨sectionSeed_eq seed i, draw_injective h _, ?_, getElem?_questions_variant e _ h s,
      ?_, ?_, ?_⟩
    · rw [length_questions_variant, Nat.min_eq_left h]
    · rw [parameters_variant, Parameters.bind_self]
    · intro q hq
      rw [parameters_variant, Parameters.bind_of_ne _ _ hq]
    · intro value hvalue
      exact variants_alone h _ hvalue

end ExamVariants.Exam
