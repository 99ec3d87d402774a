import ExamVariants.Exam.Basic

namespace ExamVariants.Exam

/-- The seed of the section at `index`; it wraps around. -/
def sectionSeed (seed : Int64) (index : Nat) : Int64 :=
  seed + Int64.ofNat index

def variant (e : Exam) (seed : Int64) (limit : Nat) (s : Section) : Exam :=
  (e.forSection s ((Shuffle.shuffled e.questions seed).take limit)).scrambled seed

/-- The limit is looked at before the sections. -/
def variants (e : Exam) (seed : Int64) (limit : Nat) : Except VariantError (List Exam) :=
  if limit > e.questions.length then
    .error (.limitExceedsQuestions limit e.questions.length)
  else
    (fun ss => ss.mapIdx fun i s => e.variant (sectionSeed seed i) limit s) <$> e.sections

@[simp] theorem length_questions_variant (e : Exam) (seed : Int64) (limit : Nat) (s : Section) :
    (e.variant seed limit s).questions.length = min limit e.questions.length := by
  simp [variant, scrambled, forSection]

end ExamVariants.Exam
