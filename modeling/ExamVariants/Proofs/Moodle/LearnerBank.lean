import ExamVariants.Moodle.Bank
import ExamVariants.Proofs.Decimal.Numerals
import ExamVariants.Proofs.Outcome
import ExamVariants.Proofs.Question.Tree
import ExamVariants.Proofs.Xml.Nesting

namespace ExamVariants.Moodle

open Xml

/-- Leaves out the information for graders and takes the credit from every answer. -/
def withoutKey (es : List Event) : List Event :=
  (dropElements "graderinfo" 0 es).map (setAttribute "answer" "fraction" "0")

/-- Events for learners that come of events with solutions, which nest. -/
structure LearnerOf (learner solutions : List Event) : Prop where
  nested : Nested solutions
  eq : learner = withoutKey solutions

namespace LearnerOf

variable {learner learner' solutions solutions' : List Event}

theorem nil : LearnerOf [] [] := ⟨Nested.nil, rfl⟩

theorem append (h : LearnerOf learner solutions) (h' : LearnerOf learner' solutions') :
    LearnerOf (learner ++ learner') (solutions ++ solutions') := by
  refine ⟨h.nested.append h'.nested, ?_⟩
  rw [h.eq, h'.eq, withoutKey, withoutKey, withoutKey, dropElements_append h.nested,
    List.map_append]

theorem within {name : String} {attributes attributes' : List (String × String)}
    (hname : name ≠ "graderinfo")
    (hattributes : setAttribute "answer" "fraction" "0" (.start name attributes) =
      .start name attributes')
    (h : LearnerOf learner solutions) :
    LearnerOf (Moodle.within name attributes' learner)
      (Moodle.within name attributes solutions) := by
  refine ⟨h.nested.element name attributes Nested.nil, ?_⟩
  have hdrop : dropElements "graderinfo" 0 (Moodle.within name attributes solutions) =
      .start name attributes :: (dropElements "graderinfo" 0 solutions ++ [.stop name]) := by
    rw [Moodle.within, List.cons_append, dropElements, if_neg hname, dropElements_append h.nested]
    rfl
  rw [withoutKey, hdrop, List.map_cons, List.map_append, hattributes, Moodle.within, h.eq]
  rfl

end LearnerOf

theorem not_isForbidden_of_isDigit {c : Char} (hc : c.isDigit = true) : isForbidden c = false := by
  have hlow : 48 ≤ c.toNat := by
    simp only [Char.isDigit, Bool.and_eq_true, decide_eq_true_eq] at hc
    exact hc.1
  have hle (d : Char) (hd : d.toNat < 48) : ¬ c ≤ d := by
    intro h
    have hnat : c.toNat ≤ d.toNat := h
    omega
  have hne (d : Char) (hd : d.toNat < 48) : c ≠ d := by
    rintro rfl
    omega
  simp [isForbidden, hle, hne]

theorem element_toString (name : String) (n : Nat) :
    element name (toString n) = .ok [.start name [], .text (toString n), .stop name] := by
  have hfind : (toString n).toList.find? isForbidden = none := by
    rw [List.find?_eq_none]
    intro c hc
    simp [not_isForbidden_of_isDigit (Decimal.isDigit_of_mem_toString hc)]
  rw [element, checkText, hfind]
  rfl

theorem element_follows {name : String} (hname : name ≠ "graderinfo") (text : String) :
    Follows LearnerOf (element name text) (element name text) := by
  have htext : LearnerOf [.text text] [.text text] := ⟨Nested.nil.text text, rfl⟩
  apply Follows.after
  intro _
  exact Follows.ok (htext.within hname (setAttribute_start_nil _ _ _ name))

theorem wrapped_follows {name : String} {attributes attributes' : List (String × String)}
    (hname : name ≠ "graderinfo")
    (hattributes : setAttribute "answer" "fraction" "0" (.start name attributes) =
      .start name attributes') (text : String) :
    Follows LearnerOf (wrapped name attributes' text) (wrapped name attributes text) := by
  apply (element_follows (by decide) text).bind
  intro inner inner' hinner
  exact Follows.ok (hinner.within hname hattributes)

theorem questionElement_learnerOf (kind : String) {learner solutions : List Event}
    (h : LearnerOf learner solutions) :
    LearnerOf (questionElement kind learner) (questionElement kind solutions) :=
  h.within (by decide) rfl

theorem category_follows (e : Exam) : Follows LearnerOf (category e) (category e) := by
  apply (wrapped_follows (by decide) rfl (categoryPath e)).bind
  intro inner inner' hinner
  exact Follows.ok (questionElement_learnerOf "category" hinner)

theorem instructions_follows (e : Exam) : Follows LearnerOf (instructions e) (instructions e) := by
  unfold instructions
  split
  · exact Follows.ok LearnerOf.nil
  · apply Follows.after
    intro items
    apply (wrapped_follows (by decide) rfl "Instructions").bind
    intro name name' hname
    apply (wrapped_follows (by decide) rfl _).bind
    intro text text' htext
    exact Follows.ok ((hname.append htext).within (by decide) rfl)

theorem heading_follows (path : QuestionPath) (statement : Segment) :
    Follows LearnerOf (heading path statement) (heading path statement) := by
  apply (wrapped_follows (by decide) rfl path.label).bind
  intro name name' hname
  apply Follows.after
  intro text
  apply (wrapped_follows (by decide) rfl text).bind
  intro text text' htext
  exact Follows.ok (hname.append htext)

theorem answer_follows (fraction format text : String) :
    Follows LearnerOf (answer "0" format text) (answer fraction format text) :=
  wrapped_follows (by decide) rfl text

theorem graderInfo_follows (modelAnswer : Segment) :
    Follows LearnerOf (graderInfo false modelAnswer) (graderInfo true modelAnswer) := by
  intro es hes
  obtain ⟨text, -, hes⟩ := bind_eq_ok_iff.mp hes
  obtain ⟨inner, hinner, hes⟩ := bind_eq_ok_iff.mp hes
  obtain rfl := pure_eq_ok_iff.mp hes
  obtain ⟨_, _, hlearner⟩ := element_follows (by decide : "text" ≠ "graderinfo") text inner hinner
  -- The element closes behind a text that nests, so it is left out up to its own end.
  have hnested := hlearner.nested
  refine ⟨[], rfl, hnested.element "graderinfo" [("format", "html")] Nested.nil, ?_⟩
  rw [withoutKey, within, List.cons_append, dropElements, if_pos rfl, dropElements_inside hnested]
  rfl

theorem essay_follows (path : QuestionPath) (statement modelAnswer : Segment) (points : Nat)
    (answerLength : String) :
    Follows LearnerOf (essay false path statement modelAnswer points answerLength)
      (essay true path statement modelAnswer points answerLength) := by
  apply (heading_follows path statement).bind
  intro heading heading' hheading
  apply (element_follows (by decide) _).bind
  intro grade grade' hgrade
  apply (element_follows (by decide) _).bind
  intro format format' hformat
  apply (element_follows (by decide) _).bind
  intro lines lines' hlines
  apply (graderInfo_follows modelAnswer).bind
  intro grader grader' hgrader
  apply Follows.ok
  exact questionElement_learnerOf "essay"
    ((((hheading.append hgrade).append hformat).append hlines).append hgrader)

theorem choiceAnswers_follows (correct : Nat) (cs : List Choice) :
    Follows LearnerOf (choiceAnswers false correct cs) (choiceAnswers true correct cs) := by
  induction cs with
  | nil => exact Follows.ok LearnerOf.nil
  | cons c cs ih =>
    rw [choiceAnswers, choiceAnswers]
    apply Follows.after
    intro text
    apply (answer_follows (choiceFraction true correct c) "html" text).bind
    intro first first' hfirst
    apply ih.bind
    intro rest rest' hrest
    exact Follows.ok (hfirst.append hrest)

theorem multichoice_follows (path : QuestionPath) (statement : Segment) (points : Nat)
    (choices : List Choice) :
    Follows LearnerOf (multichoice false path statement points choices)
      (multichoice true path statement points choices) := by
  apply (heading_follows path statement).bind
  intro heading heading' hheading
  apply (element_follows (by decide) _).bind
  intro grade grade' hgrade
  apply (element_follows (by decide) _).bind
  intro single single' hsingle
  apply (element_follows (by decide) _).bind
  intro shuffle shuffle' hshuffle
  apply (element_follows (by decide) _).bind
  intro numbering numbering' hnumbering
  apply (choiceAnswers_follows _ choices).bind
  intro answers answers' hanswers
  apply Follows.ok
  have hsettings := (((hheading.append hgrade).append hsingle).append hshuffle).append hnumbering
  exact questionElement_learnerOf "multichoice" (hsettings.append hanswers)

theorem trueFalse_follows (path : QuestionPath) (statement : Segment) (truth : Bool)
    (points : Nat) :
    Follows LearnerOf (trueFalse false path statement truth points)
      (trueFalse true path statement truth points) := by
  apply (heading_follows path statement).bind
  intro heading heading' hheading
  apply (element_follows (by decide) _).bind
  intro grade grade' hgrade
  apply (answer_follows (truthFraction true truth true) _ _).bind
  intro yes yes' hyes
  apply (answer_follows (truthFraction true truth false) _ _).bind
  intro no no' hno
  apply Follows.ok
  exact questionElement_learnerOf "truefalse" (((hheading.append hgrade).append hyes).append hno)

theorem questions_follows (path : QuestionPath) (index : Nat) {qs : List Question}
    (h : ∀ q ∈ qs, ∀ path, Follows LearnerOf (question false path q) (question true path q)) :
    Follows LearnerOf (questions false path index qs) (questions true path index qs) := by
  induction qs generalizing index with
  | nil => exact Follows.ok LearnerOf.nil
  | cons q qs ih =>
    rw [questions, questions]
    apply (h q List.mem_cons_self _).bind
    intro first first' hfirst
    apply (ih (index + 1) fun q' hq' => h q' (List.mem_cons_of_mem q hq')).bind
    intro rest rest' hrest
    exact Follows.ok (hfirst.append hrest)

theorem question_follows (path : QuestionPath) (q : Question) :
    Follows LearnerOf (question false path q) (question true path q) := by
  induction q generalizing path with
  | openEnded statement modelAnswer points answerLength =>
    rw [question, question]
    exact essay_follows path statement modelAnswer points answerLength
  | closedEnded statement points choices =>
    rw [question, question]
    exact multichoice_follows path statement points choices
  | trueFalse statement answer points =>
    rw [question, question]
    exact trueFalse_follows path statement answer points
  | compound statement points children ih =>
    rw [question, question]
    apply (heading_follows path statement).bind
    intro heading heading' hheading
    apply (questions_follows path 0 fun q hq path => ih q hq path).bind
    intro rest rest' hrest
    exact Follows.ok ((questionElement_learnerOf "description" hheading).append hrest)

theorem events_follows (e : Exam) : Follows LearnerOf (events false e) (events true e) := by
  apply (category_follows e).bind
  intro category category' hcategory
  apply (instructions_follows e).bind
  intro instructions instructions' hinstructions
  apply (questions_follows [] 0 fun q _ path => question_follows path q).bind
  intro questions questions' hquestions
  apply Follows.ok
  exact ((hcategory.append hinstructions).append hquestions).within (by decide) rfl

theorem render_eq_ok_iff {solutions : Bool} {e : Exam} {text : String} :
    render solutions e = .ok text ↔ ∃ es, events solutions e = .ok es ∧ document es = text := by
  rw [render]
  cases events solutions e <;> simp [Functor.map, Except.map]

/-- When the bank with solutions is rendered, so is the bank for learners, whose events are those
with solutions without the information for graders and without any credit. -/
theorem learner_bank_eq_withoutKey {e : Exam} {solutions : String}
    (h : render true e = .ok solutions) :
    ∃ es, events true e = .ok es ∧ Nested es ∧ solutions = document es ∧
      events false e = .ok (withoutKey es) ∧ render false e = .ok (document (withoutKey es)) := by
  obtain ⟨es, hes, rfl⟩ := render_eq_ok_iff.mp h
  obtain ⟨_, hlearner, hnested, rfl⟩ := events_follows e es hes
  exact ⟨es, hes, hnested, rfl, hlearner, render_eq_ok_iff.mpr ⟨_, hlearner, rfl⟩⟩

def mixedBank : Exam where
  parameters := Parameters.empty.bind .instructions (.segments [.plain "Be brief."])
  questions :=
    [.compound (.plain "two parts") 4
        [.trueFalse (.plain "true or false") false 1,
          .openEnded (.plain "why") (.plain "because") 3 "half a page"],
      .closedEnded (.plain "pick one") 2
        [⟨true, .plain "this"⟩, ⟨true, .plain "that"⟩, ⟨false, .plain "neither"⟩]]

theorem learner_bank_eq_withoutKey_mixedBank :
    ∃ (solutions : String) (es : List Event), render true mixedBank = .ok solutions ∧
      events true mixedBank = .ok es ∧ Nested es ∧ solutions = document es ∧
      events false mixedBank = .ok (withoutKey es) ∧
      render false mixedBank = .ok (document (withoutKey es)) := by
  have hrender : ∃ text, render true mixedBank = .ok text := by
    -- The lines of the answer are floating-point and stay as they are.
    simp only [render, events, mixedBank, questions, question, essay, element_toString]
    exact ⟨_, rfl⟩
  obtain ⟨solutions, hsolutions⟩ := hrender
  obtain ⟨es, h⟩ := learner_bank_eq_withoutKey hsolutions
  exact ⟨solutions, es, hsolutions, h⟩

end ExamVariants.Moodle
