import ExamVariants.Proofs.Moodle.Containment

namespace ExamVariants.Moodle

open Rewriting (blankAnswers)
open Xml

def isSingle (cs : List Choice) : Bool := cs.countP Choice.isCorrect ≤ 1

def singleText (single : Bool) : String := if single then "true" else "false"

theorem singleText_injective : Function.Injective singleText := by
  intro b b'
  revert b b'
  decide

mutual

/-- Whether at most one choice is correct, for each closed-ended question in the order of the
document. -/
def singles : Question → List Bool
  | .openEnded .. => []
  | .closedEnded _ _ choices => [isSingle choices]
  | .trueFalse .. => []
  | .compound _ _ children => singlesOf children

def singlesOf : List Question → List Bool
  | [] => []
  | q :: qs => singles q ++ singlesOf qs

end

theorem length_singlesOf_blankAnswers {qs : List Question}
    (h : ∀ q ∈ qs, (singles (blankAnswers.question q)).length = (singles q).length) :
    (singlesOf (qs.map blankAnswers.question)).length = (singlesOf qs).length := by
  induction qs with
  | nil => rfl
  | cons q qs ih =>
    rw [List.map_cons, singlesOf, singlesOf, List.length_append, List.length_append,
      h q List.mem_cons_self, ih fun q' hq' => h q' (List.mem_cons_of_mem q hq')]

theorem length_singles_blankAnswers (q : Question) :
    (singles (blankAnswers.question q)).length = (singles q).length := by
  induction q with
  | openEnded statement modelAnswer points answerLength => rfl
  | closedEnded statement points choices => rfl
  | trueFalse statement answer points => rfl
  | compound statement points children ih =>
    rw [Rewriting.question, Rewriting.questions_eq_map, singles, singles]
    exact length_singlesOf_blankAnswers ih

theorem length_singles_eq {q q' : Question}
    (hblank : blankAnswers.question q = blankAnswers.question q') :
    (singles q).length = (singles q').length := by
  rw [← length_singles_blankAnswers, hblank, length_singles_blankAnswers]

theorem choiceAnswers_learner {cs cs' : List Choice}
    (hblank : cs.map blankAnswers.choice = cs'.map blankAnswers.choice) (correct correct' : Nat) :
    choiceAnswers false correct cs = choiceAnswers false correct' cs' := by
  induction cs generalizing cs' with
  | nil =>
    cases cs' with
    | nil => rfl
    | cons c' cs' => cases hblank
  | cons c cs ih =>
    cases cs' with
    | nil => cases hblank
    | cons c' cs' =>
      obtain ⟨hchoice, hrest⟩ := List.cons.inj hblank
      have hstatement : c.statement = c'.statement := (Choice.mk.inj hchoice).2
      rw [choiceAnswers, choiceAnswers, hstatement, ih hrest]
      rfl

theorem multichoice_learner {cs cs' : List Choice}
    (hblank : cs.map blankAnswers.choice = cs'.map blankAnswers.choice)
    (hsingle : isSingle cs = isSingle cs') (path : QuestionPath) (statement : Segment)
    (points : Nat) :
    multichoice false path statement points cs = multichoice false path statement points cs' := by
  have htext : (if cs.countP Choice.isCorrect ≤ 1 then "true" else "false") =
      if cs'.countP Choice.isCorrect ≤ 1 then "true" else "false" := by
    simpa [singleText, isSingle] using congrArg singleText hsingle
  simp only [multichoice, htext,
    choiceAnswers_learner hblank (cs.countP Choice.isCorrect) (cs'.countP Choice.isCorrect)]

theorem questions_learner {qs qs' : List Question}
    (h : ∀ q ∈ qs, ∀ q', blankAnswers.question q = blankAnswers.question q' →
      singles q = singles q' → ∀ path, question false path q = question false path q')
    (hblank : qs.map blankAnswers.question = qs'.map blankAnswers.question)
    (hsingles : singlesOf qs = singlesOf qs') (path : QuestionPath) (index : Nat) :
    questions false path index qs = questions false path index qs' := by
  induction qs generalizing qs' index with
  | nil =>
    cases qs' with
    | nil => rfl
    | cons q' qs' => cases hblank
  | cons q qs ih =>
    cases qs' with
    | nil => cases hblank
    | cons q' qs' =>
      obtain ⟨hq, hqs⟩ := List.cons.inj hblank
      -- Each question has as many bits as the one that it corresponds to.
      obtain ⟨hfirst, hrest⟩ := List.append_inj hsingles (length_singles_eq hq)
      rw [questions, questions, h q List.mem_cons_self q' hq hfirst,
        ih (fun q hq => h q (List.mem_cons_of_mem _ hq)) hqs hrest]

theorem question_learner {q q' : Question}
    (hblank : blankAnswers.question q = blankAnswers.question q')
    (hsingles : singles q = singles q') (path : QuestionPath) :
    question false path q = question false path q' := by
  -- Equal after blanking, so of one kind: the other cases of `q'` fall away.
  induction q generalizing q' path with
  | openEnded statement modelAnswer points answerLength =>
    cases q' with
    | openEnded statement' modelAnswer' points' answerLength' =>
      simp only [Rewriting.question, Question.openEnded.injEq] at hblank
      obtain ⟨hstatement, -, hpoints, hlength⟩ := hblank
      obtain ⟨rfl, rfl, rfl⟩ : _ ∧ _ ∧ _ := ⟨hstatement, hpoints, hlength⟩
      rw [question, question]
      rfl
    | _ => simp [Rewriting.question] at hblank
  | closedEnded statement points choices =>
    cases q' with
    | closedEnded statement' points' choices' =>
      simp only [Rewriting.question, Question.closedEnded.injEq] at hblank
      obtain ⟨hstatement, hpoints, hchoices⟩ := hblank
      obtain ⟨rfl, rfl⟩ : _ ∧ _ := ⟨hstatement, hpoints⟩
      rw [question, question]
      exact multichoice_learner hchoices (List.singleton_inj.mp hsingles) _ _ _
    | _ => simp [Rewriting.question] at hblank
  | trueFalse statement truth points =>
    cases q' with
    | trueFalse statement' truth' points' =>
      simp only [Rewriting.question, Question.trueFalse.injEq] at hblank
      obtain ⟨hstatement, -, hpoints⟩ := hblank
      obtain ⟨rfl, rfl⟩ : _ ∧ _ := ⟨hstatement, hpoints⟩
      rw [question, question]
      rfl
    | _ => simp [Rewriting.question] at hblank
  | compound statement points children ih =>
    cases q' with
    | compound statement' points' children' =>
      simp only [Rewriting.question, Rewriting.questions_eq_map, Question.compound.injEq] at hblank
      obtain ⟨hstatement, -, hchildren⟩ := hblank
      obtain rfl : statement = statement' := hstatement
      rw [question, question,
        questions_learner (fun q hq q' hq' hs path => ih q hq hq' hs path) hchildren hsingles]
    | _ => simp [Rewriting.question] at hblank

theorem render_learner {e e' : Exam} (hparameters : e.parameters = e'.parameters)
    (hquestions : e.questions.map blankAnswers.question = e'.questions.map blankAnswers.question)
    (hsingles : singlesOf e.questions = singlesOf e'.questions) :
    render false e = render false e' := by
  have heq : questions false [] 0 e.questions = questions false [] 0 e'.questions :=
    questions_learner (fun _ _ _ hblank hs path => question_learner hblank hs path) hquestions
      hsingles [] 0
  obtain ⟨parameters, qs⟩ := e
  obtain ⟨parameters', qs'⟩ := e'
  obtain rfl : parameters = parameters' := hparameters
  rw [render, render, events, events, heq]
  rfl

mutual

def textsNamed (name : String) : Element → List String
  | .leaf n _ text => if n = name then [text] else []
  | .node _ _ children => textsNamedOf name children

def textsNamedOf (name : String) : List Element → List String
  | [] => []
  | t :: ts => textsNamed name t ++ textsNamedOf name ts

end

theorem textsNamedOf_append (name : String) (ts ts' : List Element) :
    textsNamedOf name (ts ++ ts') = textsNamedOf name ts ++ textsNamedOf name ts' := by
  induction ts with
  | nil => rfl
  | cons t ts ih => rw [List.cons_append, textsNamedOf, ih, textsNamedOf, List.append_assoc]

theorem textsNamed_questionTree (kind : String) (path : QuestionPath) (statement : Segment)
    (rest : List Element) :
    textsNamed "single" (questionTree kind path statement rest) = textsNamedOf "single" rest := by
  rw [questionTree, textsNamed, textsNamedOf_append]
  rfl

theorem textsNamedOf_essayTrees (solutions : Bool) (modelAnswer : Segment) (points : Nat)
    (answerLength : String) :
    textsNamedOf "single" (essayTrees solutions modelAnswer points answerLength) = [] := by
  cases solutions <;> rfl

theorem textsNamedOf_choiceTrees (solutions : Bool) (correct : Nat) (cs : List Choice) :
    textsNamedOf "single" (choiceTrees solutions correct cs) = [] := by
  induction cs with
  | nil => rfl
  | cons c cs ih => exact ih

theorem textsNamedOf_multichoiceTrees (solutions : Bool) (points : Nat) (cs : List Choice) :
    textsNamedOf "single" (multichoiceTrees solutions points cs) = [singleText (isSingle cs)] := by
  rw [multichoiceTrees, textsNamedOf_append, textsNamedOf_choiceTrees]
  simp [textsNamedOf, textsNamed, singleText, isSingle]

theorem textsNamedOf_questionTreesOf (solutions : Bool) (path : QuestionPath) (index : Nat)
    {qs : List Question}
    (h : ∀ q ∈ qs, ∀ path, textsNamedOf "single" (questionTrees solutions path q) =
      (singles q).map singleText) :
    textsNamedOf "single" (questionTreesOf solutions path index qs) =
      (singlesOf qs).map singleText := by
  induction qs generalizing index with
  | nil => rfl
  | cons q qs ih =>
    rw [questionTreesOf, textsNamedOf_append, singlesOf, List.map_append,
      h q List.mem_cons_self, ih _ fun q' hq' => h q' (List.mem_cons_of_mem q hq')]

theorem textsNamedOf_questionTrees (solutions : Bool) (path : QuestionPath) (q : Question) :
    textsNamedOf "single" (questionTrees solutions path q) = (singles q).map singleText := by
  induction q generalizing path with
  | openEnded statement modelAnswer points answerLength =>
    rw [questionTrees, textsNamedOf, textsNamed_questionTree, textsNamedOf_essayTrees]
    rfl
  | closedEnded statement points choices =>
    rw [questionTrees, textsNamedOf, textsNamed_questionTree, textsNamedOf_multichoiceTrees]
    rfl
  | trueFalse statement truth points =>
    rw [questionTrees, textsNamedOf, textsNamed_questionTree]
    rfl
  | compound statement points children ih =>
    rw [questionTrees, textsNamedOf, textsNamed_questionTree]
    exact textsNamedOf_questionTreesOf solutions path 0 ih

theorem textsNamed_quiz (solutions : Bool) (e : Exam) :
    textsNamed "single" (quiz solutions e) = (singlesOf e.questions).map singleText := by
  have hinstructions : textsNamedOf "single" (instructionTrees e.instructions) = [] := by
    cases e.instructions <;> rfl
  have hquestions := textsNamedOf_questionTreesOf solutions [] 0 fun q (_ : q ∈ e.questions) path =>
    textsNamedOf_questionTrees solutions path q
  rw [quiz, textsNamed, textsNamedOf, textsNamedOf_append, hinstructions, hquestions]
  rfl

theorem textsNamed_of_render {solutions : Bool} {e : Exam} {out : String}
    (h : render solutions e = .ok out) :
    (Xml.parse out).map (textsNamed "single") = some ((singlesOf e.questions).map singleText) := by
  rw [parse_of_render h, Option.map_some, textsNamed_quiz]

/-- Of two examinations that differ in their answer keys only, the banks for learners are the same,
or fail in the same way, if each closed-ended question has at most one correct choice in both or in
neither. A bank holds these bits in its elements `single`, so otherwise the banks differ. -/
theorem learner_bank_reveals_singles {e e' : Exam} (hparameters : e.parameters = e'.parameters)
    (hquestions : e.questions.map blankAnswers.question = e'.questions.map blankAnswers.question) :
    (singlesOf e.questions).length = (singlesOf e'.questions).length ∧
    (singlesOf e.questions = singlesOf e'.questions → render false e = render false e') ∧
    ∀ out out', render false e = .ok out → render false e' = .ok out' →
      (Xml.parse out).map (textsNamed "single") = some ((singlesOf e.questions).map singleText) ∧
      (singlesOf e.questions ≠ singlesOf e'.questions → out ≠ out') := by
  refine ⟨?_, render_learner hparameters hquestions, fun out out' h h' => ?_⟩
  · rw [← length_singlesOf_blankAnswers fun q _ => length_singles_blankAnswers q, hquestions,
      length_singlesOf_blankAnswers fun q _ => length_singles_blankAnswers q]
  · refine ⟨textsNamed_of_render h, ?_⟩
    rintro hne rfl
    have hbits := (textsNamed_of_render h).symm.trans (textsNamed_of_render h')
    exact hne (List.map_injective_iff.mpr singleText_injective (Option.some.inj hbits))

def pairBank (first second : Bool) : Exam where
  parameters := Parameters.empty
  questions :=
    [.compound (.plain "two parts") 2
      [.closedEnded (.plain "pick") 1 [⟨first, .plain "this"⟩, ⟨second, .plain "that"⟩],
        .trueFalse (.plain "true or false") first 1]]

/-- Which of the two choices is correct does not show, but that both are does. -/
theorem learner_bank_reveals_singles_pairBank :
    render false (pairBank true false) = render false (pairBank false true) ∧
      ∃ out out', render false (pairBank true false) = .ok out ∧
        render false (pairBank true true) = .ok out' ∧ out ≠ out' := by
  have hparameters (first second : Bool) :
      (pairBank true false).parameters = (pairBank first second).parameters := rfl
  have hblank (first second : Bool) : (pairBank true false).questions.map blankAnswers.question =
      (pairBank first second).questions.map blankAnswers.question := by
    simp [pairBank, Rewriting.question, Rewriting.questions, Rewriting.choice, blankAnswers]
  have hrender (first second : Bool) := render_eq_ok_iff_document.mpr
    ⟨(by decide +revert : AllChars _ (shownTexts false (pairBank first second))), rfl⟩
  have hsame := (learner_bank_reveals_singles (hparameters false true) (hblank false true)).2.1
    (by decide)
  have hdiffer := (learner_bank_reveals_singles (hparameters true true) (hblank true true)).2.2 _ _
    (hrender true false) (hrender true true)
  exact ⟨hsame, _, _, hrender true false, hrender true true, hdiffer.2 (by decide)⟩

end ExamVariants.Moodle
