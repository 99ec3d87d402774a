import ExamVariants.Exam.Variant
import ExamVariants.Proofs.Question.Tree
import ExamVariants.Proofs.Shuffle.Order

/-!
Rewritings change what questions hold at every node, field by field, and keep the shape of the tree.
No order looks at what is in a question, so variants of a rewritten examination are rewritten
variants.
-/

namespace ExamVariants

open Shuffle

/-- A function for each field of a question and of a choice. -/
structure Rewriting where
  statement : Segment → Segment := id
  modelAnswer : Segment → Segment := id
  answerLength : String → String := id
  choiceStatement : Segment → Segment := id
  isCorrect : Bool → Bool := id
  answer : Bool → Bool := id
  points : Nat → Nat := id

namespace Rewriting

/-- Blanks the answer key: model answers, correct choices and what is true or false. -/
def blankAnswers : Rewriting where
  modelAnswer _ := .plain ""
  isCorrect _ := false
  answer _ := false

def choice (r : Rewriting) (c : Choice) : Choice where
  isCorrect := r.isCorrect c.isCorrect
  statement := r.choiceStatement c.statement

mutual

def question (r : Rewriting) : Question → Question
  | .openEnded statement modelAnswer points answerLength =>
    .openEnded (r.statement statement) (r.modelAnswer modelAnswer) (r.points points)
      (r.answerLength answerLength)
  | .closedEnded statement points choices =>
    .closedEnded (r.statement statement) (r.points points) (choices.map r.choice)
  | .trueFalse statement answer points =>
    .trueFalse (r.statement statement) (r.answer answer) (r.points points)
  | .compound statement points children =>
    .compound (r.statement statement) (r.points points) (r.questions children)

def questions (r : Rewriting) : List Question → List Question
  | [] => []
  | q :: qs => r.question q :: r.questions qs

end

theorem questions_eq_map (r : Rewriting) (qs : List Question) :
    r.questions qs = qs.map r.question := by
  induction qs with
  | nil => rfl
  | cons q qs ih => rw [questions, ih, List.map_cons]

def exam (r : Rewriting) (e : Exam) : Exam where
  parameters := e.parameters
  questions := e.questions.map r.question

theorem map_scrambled {r : Rewriting} {seed : Int64} {qs : List Question}
    (h : ∀ q ∈ qs, (r.question q).scrambled seed = r.question (q.scrambled seed)) :
    (qs.map r.question).map (Question.scrambled seed) =
      (qs.map (Question.scrambled seed)).map r.question := by
  rw [List.map_map, List.map_map]
  exact List.map_congr_left h

theorem question_scrambled (r : Rewriting) (seed : Int64) (q : Question) :
    (r.question q).scrambled seed = r.question (q.scrambled seed) := by
  induction q with
  | openEnded statement modelAnswer points answerLength => rfl
  | closedEnded statement points choices =>
    simp only [question, Question.scrambled, shuffled_map]
  | trueFalse statement answer points => rfl
  | compound statement points children ih =>
    simp only [question, Question.scrambled, Question.scrambledEach_eq_map, questions_eq_map,
      map_scrambled ih, shuffled_map]

theorem exam_forSection (r : Rewriting) (e : Exam) (s : Section) (qs : List Question) :
    (r.exam e).forSection s (qs.map r.question) = r.exam (e.forSection s qs) := rfl

theorem exam_scrambled (r : Rewriting) (seed : Int64) (e : Exam) :
    (r.exam e).scrambled seed = r.exam (e.scrambled seed) := by
  have hquestions : (e.questions.map r.question).map (Question.scrambled seed) = _ :=
    map_scrambled fun q _ => r.question_scrambled seed q
  simp only [exam, Exam.scrambled, hquestions, shuffled_map]

theorem exam_variant (r : Rewriting) (e : Exam) (seed : Int64) (limit : Nat) (s : Section) :
    (r.exam e).variant seed limit s = r.exam (e.variant seed limit s) := by
  have hdraw : (shuffled (r.exam e).questions seed).take limit =
      ((shuffled e.questions seed).take limit).map r.question := by
    rw [exam, shuffled_map, List.map_take]
  rw [Exam.variant, hdraw, exam_forSection, exam_scrambled, Exam.variant]

theorem exam_variants (r : Rewriting) (e : Exam) (seed : Int64) (limit : Nat) :
    (r.exam e).variants seed limit = List.map r.exam <$> e.variants seed limit := by
  have hlength : (r.exam e).questions.length = e.questions.length := List.length_map _
  have hsections : (r.exam e).sections = e.sections := rfl
  rw [Exam.variants, Exam.variants, hlength, hsections]
  by_cases hlimit : limit > e.questions.length
  · rw [if_pos hlimit, if_pos hlimit]
    rfl
  · rw [if_neg hlimit, if_neg hlimit]
    cases e.sections with
    | error err => rfl
    | ok ss =>
      refine congrArg Except.ok (List.mapIdx_eq_iff.mpr fun i => ?_)
      rw [List.getElem?_map, List.getElem?_mapIdx, Option.map_map]
      simp only [exam_variant, Function.comp_def]

/-- A rewriting changes neither what is drawn nor where it stands: it passes through the variants,
whether they are given or refused, and through every scrambling. -/
theorem variants_of_rewritten (r : Rewriting) (seed : Int64) :
    (∀ (e : Exam) (limit : Nat),
      (r.exam e).variants seed limit = List.map r.exam <$> e.variants seed limit) ∧
    (∀ e : Exam, (r.exam e).scrambled seed = r.exam (e.scrambled seed)) ∧
    ∀ q : Question, (r.question q).scrambled seed = r.question (q.scrambled seed) := by
  refine ⟨?_, ?_, ?_⟩
  · intro e limit
    exact r.exam_variants e seed limit
  · intro e
    exact r.exam_scrambled seed e
  · intro q
    exact r.question_scrambled seed q

end Rewriting

end ExamVariants
