import ExamVariants.Latex.Document
import ExamVariants.Proofs.Question.Rewriting

namespace ExamVariants.Latex

open Rewriting (blankAnswers)

namespace Mode

variable {m : Mode}

theorem answerSpace_learner (hm : m.solutions = false) (modelAnswer : Segment)
    (answerLength : String) :
    m.answerSpace modelAnswer answerLength =
      .ok ("\\makeemptybox" ++ braced (escapeText answerLength) ++ "\n") := by
  rw [answerSpace, hm]
  rfl

theorem choices_blankAnswers (hm : m.solutions = false) (path : QuestionPath) (cs : List Choice) :
    m.choices path (cs.map blankAnswers.choice) = m.choices path cs := by
  induction cs with
  | nil => rfl
  | cons c cs ih =>
    have hchoice : m.choice path (blankAnswers.choice c) = m.choice path c := by
      simp only [choice, choiceCommand, hm, Bool.false_and]
      rfl
    rw [List.map_cons, choices, choices, hchoice, ih]

@[simp] theorem points_blankAnswers (q : Question) : (blankAnswers.question q).points = q.points := by
  cases q <;> rfl

theorem body_blankAnswers (hm : m.solutions = false) (path : QuestionPath) (depth : Nat)
    (q : Question) : m.body path depth (blankAnswers.question q) = m.body path depth q := by
  induction q generalizing path depth with
  | openEnded statement modelAnswer points answerLength =>
    simp only [Rewriting.question, body, answerSpace_learner hm]
    rfl
  | closedEnded statement points choices =>
    simp only [Rewriting.question, body, choices_blankAnswers hm]
    rfl
  | trueFalse statement answer points =>
    simp only [Rewriting.question, body, answerLetter, hm]
    rfl
  | compound statement points children ih =>
    have hchildren (command : String) (index : Nat) :
        m.children path depth command index (children.map blankAnswers.question) =
          m.children path depth command index children := by
      induction children generalizing index with
      | nil => rfl
      | cons q qs ihq =>
        rw [List.map_cons, Mode.children, Mode.children, points_blankAnswers,
          ih q List.mem_cons_self, ihq fun q' hq' => ih q' (List.mem_cons_of_mem q hq')]
    simp only [Rewriting.question, Rewriting.questions_eq_map, body, hchildren]
    rfl

theorem question_blankAnswers (hm : m.solutions = false) (path : QuestionPath) (q : Question) :
    m.question path (blankAnswers.question q) = m.question path q := by
  rw [question, question, body_blankAnswers hm, points_blankAnswers]

end Mode

theorem questions_blankAnswers {m : Mode} (hm : m.solutions = false) (index : Nat)
    (qs : List Question) :
    questions m index (qs.map blankAnswers.question) = questions m index qs := by
  induction qs generalizing index with
  | nil => rfl
  | cons q qs ih =>
    rw [List.map_cons, questions, questions, Mode.question_blankAnswers hm, ih]

/-- The text for learners is that of the examination without its answer key. -/
theorem render_blankAnswers (layout : Layout) (e : Exam) :
    render layout false (blankAnswers.exam e) = render layout false e := by
  have hquestions : questions ⟨layout.target, false⟩ 0 (blankAnswers.exam e).questions =
      questions ⟨layout.target, false⟩ 0 e.questions := questions_blankAnswers rfl 0 e.questions
  simp only [render, hquestions]
  rfl

theorem render_variants_blankAnswers (layout : Layout) (e : Exam) (seed : Int64) (limit : Nat) :
    List.map (render layout false) <$> (blankAnswers.exam e).variants seed limit =
      List.map (render layout false) <$> e.variants seed limit := by
  rw [Rewriting.exam_variants]
  cases e.variants seed limit with
  | error err => rfl
  | ok vs =>
    apply congrArg Except.ok
    rw [List.map_map]
    exact List.map_congr_left fun v _ => render_blankAnswers layout v

/-- Examinations that differ in their answer keys only have the same texts for learners, variant by
variant, and fail in the same way. -/
theorem learner_texts_eq {e e' : Exam} (hparameters : e.parameters = e'.parameters)
    (hquestions : e.questions.map blankAnswers.question = e'.questions.map blankAnswers.question)
    (seed : Int64) (limit : Nat) (layout : Layout) :
    List.map (render layout false) <$> e.variants seed limit =
      List.map (render layout false) <$> e'.variants seed limit := by
  have hexam : blankAnswers.exam e = blankAnswers.exam e' := by
    rw [Rewriting.exam, Rewriting.exam, hparameters, hquestions]
  rw [← render_variants_blankAnswers, hexam, render_variants_blankAnswers]

def keyedExam (key : Bool) : Exam where
  parameters := Parameters.empty.bind .sections (.sections [⟨"A", none, none⟩, ⟨"B", none, none⟩])
  questions :=
    [.trueFalse (.plain "true or false") key 1,
      .compound (.plain "two parts") 4
        [.closedEnded (.plain "pick one") 1 [⟨key, .plain "this"⟩, ⟨!key, .plain "that"⟩],
          .openEnded (.plain "yes or no") (.plain (if key then "yes" else "no")) 3 "2cm"]]

theorem learner_texts_eq_keyedExam :
    (keyedExam true).questions ≠ (keyedExam false).questions ∧
      List.map (render .midterm false) <$> (keyedExam true).variants 7 2 =
        List.map (render .midterm false) <$> (keyedExam false).variants 7 2 := by
  have hblank : (keyedExam true).questions.map blankAnswers.question =
      (keyedExam false).questions.map blankAnswers.question := by
    simp [keyedExam, Rewriting.question, Rewriting.questions, Rewriting.choice, blankAnswers]
  have hdiffer : (keyedExam true).questions ≠ (keyedExam false).questions := by simp [keyedExam]
  have hparameters : (keyedExam true).parameters = (keyedExam false).parameters := rfl
  exact ⟨hdiffer, learner_texts_eq hparameters hblank 7 2 .midterm⟩

end ExamVariants.Latex
