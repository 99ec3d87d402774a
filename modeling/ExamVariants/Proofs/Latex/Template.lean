import ExamVariants.Latex.Document
import ExamVariants.Proofs.Outcome
import ExamVariants.Proofs.Question.Tree

/-!
The text for learners and the text with solutions as two fillings of one template. What differs
stands in holes: the options of the document class, the command of each choice, the letter of each
true-false answer, and the space of each open-ended question.
-/

namespace ExamVariants.Latex

inductive Hole where
  | classOptions
  /-- The command that opens a choice. -/
  | choice (isCorrect : Bool)
  /-- The letter of a true-false answer. -/
  | letter (answer : Bool)
  /-- A box of some length, or the model answer. -/
  | answerSpace (modelAnswer : Segment) (answerLength : String)

def Hole.learner : Hole → String
  | classOptions => ""
  | choice _ => "\\item"
  | letter _ => ""
  | answerSpace _ answerLength => "\\makeemptybox" ++ braced (escapeText answerLength) ++ "\n"

/-- What stands in a hole with solutions; a model answer may fail to render. -/
def Hole.solution (target : Notation) : Hole → Except RenderError String
  | classOptions => .ok ",answers"
  | choice isCorrect => .ok (if isCorrect then "\\item*" else "\\item")
  | letter answer => .ok (if answer then "T" else "F")
  | answerSpace modelAnswer _ => do
    let answer ← (styles target).render modelAnswer
    return beginEnvironment "solution" ++ answer ++ "\n" ++ endEnvironment "solution"

inductive Fragment where
  | shared (text : String)
  | hole (hole : Hole)

abbrev Template := List Fragment

namespace Template

def holes : Template → List Hole
  | [] => []
  | .shared _ :: t => holes t
  | .hole hole :: t => hole :: holes t

def fill (content : Hole → Except RenderError String) : Template → Except RenderError String
  | [] => .ok ""
  | .shared text :: t => do
    let rest ← fill content t
    return text ++ rest
  | .hole hole :: t => do
    let first ← content hole
    let rest ← fill content t
    return first ++ rest

theorem holes_append (t t' : Template) : holes (t ++ t') = holes t ++ holes t' := by
  induction t with
  | nil => rfl
  | cons f t ih =>
    cases f with
    | shared text => exact ih
    | hole hole => exact congrArg (hole :: ·) ih

theorem fill_append {content : Hole → Except RenderError String} {t t' : Template}
    {text text' : String} (h : fill content t = .ok text) (h' : fill content t' = .ok text') :
    fill content (t ++ t') = .ok (text ++ text') := by
  induction t generalizing text with
  | nil =>
    obtain rfl := Except.ok.inj h
    rw [String.empty_append]
    exact h'
  | cons f t ih =>
    cases f with
    | shared first =>
      obtain ⟨rest, hrest, h⟩ := bind_eq_ok_iff.mp h
      obtain rfl := pure_eq_ok_iff.mp h
      rw [List.cons_append, fill, ih hrest, String.append_assoc]
      rfl
    | hole hole =>
      obtain ⟨first, hfirst, h⟩ := bind_eq_ok_iff.mp h
      obtain ⟨rest, hrest, h⟩ := bind_eq_ok_iff.mp h
      obtain rfl := pure_eq_ok_iff.mp h
      rw [List.cons_append, fill, hfirst, ih hrest, String.append_assoc]
      rfl

end Template

/-- One template with these holes gives both texts. -/
def FillOne (target : Notation) (holes : List Hole) (learner solutions : String) : Prop :=
  ∃ t : Template, t.holes = holes ∧ t.fill (fun hole => .ok hole.learner) = .ok learner ∧
    t.fill (Hole.solution target) = .ok solutions

namespace FillOne

variable {target : Notation} {holes holes' : List Hole}
  {learner learner' solutions solutions' : String}

theorem shared (target : Notation) (text : String) : FillOne target [] text text := by
  refine ⟨[.shared text], rfl, ?_, ?_⟩
  · exact congrArg Except.ok String.append_empty
  · exact congrArg Except.ok String.append_empty

theorem hole (hole : Hole) (h : hole.solution target = .ok solutions) :
    FillOne target [hole] hole.learner solutions := by
  refine ⟨[.hole hole], rfl, ?_, ?_⟩
  · exact congrArg Except.ok String.append_empty
  · rw [Template.fill, h]
    exact congrArg Except.ok String.append_empty

theorem append (h : FillOne target holes learner solutions)
    (h' : FillOne target holes' learner' solutions') :
    FillOne target (holes ++ holes') (learner ++ learner') (solutions ++ solutions') := by
  obtain ⟨t, rfl, hlearner, hsolutions⟩ := h
  obtain ⟨t', rfl, hlearner', hsolutions'⟩ := h'
  exact ⟨t ++ t', Template.holes_append t t', Template.fill_append hlearner hlearner',
    Template.fill_append hsolutions hsolutions'⟩

theorem append_shared (h : FillOne target holes learner solutions) (text : String) :
    FillOne target holes (learner ++ text) (solutions ++ text) := by
  have happend := h.append (shared target text)
  rw [List.append_nil] at happend
  exact happend

theorem shared_append (text : String) (h : FillOne target holes learner solutions) :
    FillOne target holes (text ++ learner) (text ++ solutions) :=
  (shared target text).append h

end FillOne

/-- The holes of a question itself, without those of its children. -/
def nodeHoles : Question → List Hole
  | .openEnded _ modelAnswer _ answerLength => [.answerSpace modelAnswer answerLength]
  | .closedEnded _ _ choices => choices.map fun c => .choice c.isCorrect
  | .trueFalse _ answer _ => [.letter answer]
  | .compound _ _ _ => []

def questionHoles (qs : List Question) : List Hole := (Question.nodesOf qs).flatMap nodeHoles

theorem questionHoles_cons (q : Question) (qs : List Question) :
    questionHoles (q :: qs) = q.nodes.flatMap nodeHoles ++ questionHoles qs := by
  rw [questionHoles, Question.nodesOf, List.flatMap_append, questionHoles]

section Questions

variable (target : Notation) (path : QuestionPath)

theorem answerSpace_follows (modelAnswer : Segment) (answerLength : String) :
    Follows (FillOne target [.answerSpace modelAnswer answerLength])
      (Mode.answerSpace ⟨target, false⟩ modelAnswer answerLength)
      (Mode.answerSpace ⟨target, true⟩ modelAnswer answerLength) := by
  intro text htext
  exact ⟨_, rfl, FillOne.hole (.answerSpace modelAnswer answerLength) htext⟩

theorem choice_follows (c : Choice) :
    Follows (FillOne target [.choice c.isCorrect]) (Mode.choice ⟨target, false⟩ path c)
      (Mode.choice ⟨target, true⟩ path c) := by
  have hcommand : FillOne target [.choice c.isCorrect] (Mode.choiceCommand ⟨target, false⟩ c)
      (Mode.choiceCommand ⟨target, true⟩ c) := FillOne.hole (.choice c.isCorrect) rfl
  apply Follows.after
  intro _
  apply Follows.after
  intro statement
  apply Follows.ok
  exact (((hcommand.shared_append "    ").append_shared " ").append_shared statement).append_shared
    "\n"

theorem choices_follows (cs : List Choice) :
    Follows (FillOne target (cs.map fun c => .choice c.isCorrect))
      (Mode.choices ⟨target, false⟩ path cs) (Mode.choices ⟨target, true⟩ path cs) := by
  induction cs with
  | nil => exact Follows.ok (FillOne.shared target "")
  | cons c cs ih =>
    rw [Mode.choices, Mode.choices]
    apply (choice_follows target path c).bind
    intro first first' hfirst
    apply ih.bind
    intro rest rest' hrest
    exact Follows.ok (hfirst.append hrest)

theorem children_follows (depth : Nat) (command : String) (index : Nat) {qs : List Question}
    (h : ∀ q ∈ qs, ∀ path depth, Follows (FillOne target (q.nodes.flatMap nodeHoles))
      (Mode.body ⟨target, false⟩ path depth q) (Mode.body ⟨target, true⟩ path depth q)) :
    Follows (FillOne target (questionHoles qs))
      (Mode.children ⟨target, false⟩ path depth command index qs)
      (Mode.children ⟨target, true⟩ path depth command index qs) := by
  induction qs generalizing index with
  | nil => exact Follows.ok (FillOne.shared target "")
  | cons q qs ih =>
    rw [Mode.children, Mode.children, questionHoles_cons]
    apply (h q List.mem_cons_self _ _).bind
    intro first first' hfirst
    apply (ih (index + 1) fun q' hq' => h q' (List.mem_cons_of_mem q hq')).bind
    intro rest rest' hrest
    exact Follows.ok ((hfirst.shared_append _).append hrest)

theorem body_follows (depth : Nat) (q : Question) :
    Follows (FillOne target (q.nodes.flatMap nodeHoles)) (Mode.body ⟨target, false⟩ path depth q)
      (Mode.body ⟨target, true⟩ path depth q) := by
  induction q generalizing path depth with
  | openEnded statement modelAnswer points answerLength =>
    rw [Mode.body, Mode.body]
    apply Follows.after
    intro statement
    apply (answerSpace_follows target modelAnswer answerLength).bind
    intro space space' hspace
    exact Follows.ok (hspace.shared_append (statement ++ "\n"))
  | closedEnded statement points choices =>
    have hholes : (Question.closedEnded statement points choices).nodes.flatMap nodeHoles =
        choices.map fun c => .choice c.isCorrect := List.append_nil _
    rw [Mode.body, Mode.body, hholes]
    apply Follows.after
    intro statement
    apply (choices_follows target path choices).bind
    intro items items' hitems
    apply Follows.ok
    exact (hitems.shared_append (statement ++ "\n" ++ beginEnvironment "items")).append_shared
      (endEnvironment "items")
  | trueFalse statement answer points =>
    have hletter : FillOne target [.letter answer] (Mode.answerLetter ⟨target, false⟩ answer)
        (Mode.answerLetter ⟨target, true⟩ answer) := FillOne.hole (.letter answer) rfl
    rw [Mode.body, Mode.body]
    apply Follows.after
    intro _
    apply Follows.after
    intro statement
    apply Follows.ok
    have hline := ((hletter.shared_append "\x7b").append_shared "\x7d").shared_append "\\TFQuestion"
    exact (hline.append_shared (braced statement)).append_shared "\n"
  | compound statement points children ih =>
    have hholes : (Question.compound statement points children).nodes.flatMap nodeHoles =
        questionHoles children := rfl
    rw [Mode.body, Mode.body, hholes]
    cases level? depth with
    | none =>
      -- Too deep a nesting gives no solutions to follow.
      intro text htext
      cases htext
    | some level =>
      apply Follows.after
      intro statement
      apply (children_follows target path depth level.command 0 fun q hq => ih q hq).bind
      intro parts parts' hparts
      apply Follows.ok
      apply FillOne.shared_append
      have henvironment := (hparts.shared_append (beginEnvironment level.environment)).append_shared
        (endEnvironment level.environment)
      split
      · exact (henvironment.shared_append _).append_shared "\\addpoints\n"
      · exact henvironment

theorem question_follows (q : Question) :
    Follows (FillOne target (q.nodes.flatMap nodeHoles)) (Mode.question ⟨target, false⟩ path q)
      (Mode.question ⟨target, true⟩ path q) := by
  apply (body_follows target path 0 q).bind
  intro body body' hbody
  exact Follows.ok (hbody.shared_append _)

theorem questions_follows (index : Nat) (qs : List Question) :
    Follows (FillOne target (questionHoles qs)) (questions ⟨target, false⟩ index qs)
      (questions ⟨target, true⟩ index qs) := by
  induction qs generalizing index with
  | nil => exact Follows.ok (FillOne.shared target "")
  | cons q qs ih =>
    rw [questions, questions, questionHoles_cons]
    apply (question_follows target [index + 1] q).bind
    intro first first' hfirst
    apply (ih (index + 1)).bind
    intro rest rest' hrest
    exact Follows.ok ((hfirst.shared_append _).append hrest)

end Questions

def holes (e : Exam) : List Hole := .classOptions :: questionHoles e.questions

theorem documentClass_fillOne (layout : Layout) :
    FillOne layout.target [.classOptions] (documentClass layout false)
      (documentClass layout true) := by
  have hoptions : FillOne layout.target [.classOptions] "" ",answers" :=
    FillOne.hole .classOptions rfl
  have hline (size : String) :=
    (((hoptions.shared_append ("\\documentclass[" ++ size ++ ",addpoints")).append_shared
      "]").append_shared (braced "exam")).append_shared "\n\n"
  cases layout with
  | midterm => exact hline "10pt"
  | quiz => exact hline "11pt"

theorem opening_fillOne (layout : Layout) (e : Exam) :
    FillOne layout.target [.classOptions] (opening layout false e) (opening layout true e) := by
  -- The class options stand in the first of ten pieces.
  unfold opening
  iterate 9 apply FillOne.append_shared
  exact documentClass_fillOne layout

theorem instructionItems_eq (target : Notation) (ss : List Segment) :
    instructionItems ⟨target, false⟩ ss = instructionItems ⟨target, true⟩ ss := by
  induction ss with
  | nil => rfl
  | cons s ss ih =>
    rw [instructionItems, instructionItems, ih]
    rfl

/-- Instructions never hold answers. -/
theorem instructions_eq (target : Notation) (e : Exam) :
    instructions ⟨target, false⟩ e = instructions ⟨target, true⟩ e := by
  unfold instructions
  split
  · rfl
  · rw [instructionItems_eq]

theorem render_follows (layout : Layout) (e : Exam) :
    Follows (FillOne layout.target (holes e)) (render layout false e) (render layout true e) := by
  unfold render
  dsimp only
  rw [instructions_eq]
  apply Follows.after
  intro instructions
  apply (questions_follows layout.target 0 e.questions).bind
  intro questions questions' hquestions
  apply Follows.ok
  have hopening := (((((opening_fillOne layout e).append_shared instructions).append_shared
    (questionsHeading layout)).append_shared (beginEnvironment "questions")).append_shared
      "\\bracketedpoints\n\\marksnotpoints\n").append hquestions
  exact (hopening.append_shared (endEnvironment "questions")).append_shared
    (endEnvironment "document")

/-- When the text with solutions is rendered, so is the text for learners, and one template gives
both: its holes are the class options and then those of the questions in the order of the document,
each filled for learners or with solutions. -/
theorem texts_fill_one_template {layout : Layout} {e : Exam} {solutions : String}
    (h : render layout true e = .ok solutions) :
    ∃ (t : Template) (learner : String), render layout false e = .ok learner ∧ t.holes = holes e ∧
      t.fill (fun hole => .ok hole.learner) = .ok learner ∧
      t.fill (Hole.solution layout.target) = .ok solutions := by
  obtain ⟨learner, hlearner, t, hholes, hfill, hfill'⟩ := render_follows layout e solutions h
  exact ⟨t, learner, hlearner, hholes, hfill, hfill'⟩

def mixedSheet : Exam where
  parameters := Parameters.empty.bind .title (.text "Quiz 1")
  questions :=
    [.compound (.plain "two parts") 4
        [.trueFalse (.plain "true or false") false 1,
          .compound (.plain "explain") 3
            [.openEnded (.plain "why") (.simple "because" [.bold]) 3 "2cm"]],
      .closedEnded (.plain "pick one") 2 [⟨false, .plain "this"⟩, ⟨true, .plain "that"⟩]]

theorem texts_fill_one_template_mixedSheet :
    ∃ (t : Template) (learner solutions : String),
      render .quiz true mixedSheet = .ok solutions ∧ render .quiz false mixedSheet = .ok learner ∧
      t.holes = [.classOptions, .letter false, .answerSpace (.simple "because" [.bold]) "2cm",
        .choice false, .choice true] ∧
      t.fill (fun hole => .ok hole.learner) = .ok learner ∧
      t.fill (Hole.solution .latexQuiz) = .ok solutions := by
  obtain ⟨solutions, hsolutions⟩ : ∃ text, render .quiz true mixedSheet = .ok text := ⟨_, rfl⟩
  obtain ⟨t, learner, h⟩ := texts_fill_one_template hsolutions
  exact ⟨t, learner, solutions, hsolutions, h⟩

end ExamVariants.Latex
