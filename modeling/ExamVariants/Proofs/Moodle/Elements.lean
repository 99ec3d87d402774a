import ExamVariants.Proofs.Moodle.Containment
import ExamVariants.Proofs.Question.Paths

namespace ExamVariants

namespace Xml.Element

def name : Element → String
  | leaf name _ _ => name
  | node name _ _ => name

def attribute? (key : String) : Element → Option String
  | leaf _ attributes _ => attributes.lookup key
  | node _ attributes _ => attributes.lookup key

def parts (wanted : String) : Element → List Element
  | leaf .. => []
  | node _ _ children => children.filter (·.name = wanted)

end Xml.Element

namespace Moodle

open Xml

def typeName : QuestionKind → String
  | .openEnded => "essay"
  | .closedEnded => "multichoice"
  | .trueFalse => "truefalse"
  | .compound => "description"

structure IsQuestionElement (type name : String) (t : Element) : Prop where
  element : t.name = "question"
  type : t.attribute? "type" = some type
  name : (t.parts "name").map Element.texts = [[name]]

/-- The element of the question at a path, with an answer for each choice. -/
structure Mirrors (t : Element) (n : QuestionPath × Question) : Prop
    extends IsQuestionElement (typeName n.2.kind) n.1.label t where
  answers : ∀ statement points choices, n.2 = .closedEnded statement points choices →
    List.Forall₂ (fun answer c => ∃ text, styles.render c.statement = .ok text ∧
      answer.texts = [text]) (t.parts "answer") choices

theorem parts_questionTree (wanted kind : String) (path : QuestionPath) (statement : Segment)
    (rest : List Element) :
    (questionTree kind path statement rest).parts wanted =
      (headingTrees path statement).filter (·.name = wanted) ++ rest.filter (·.name = wanted) :=
  List.filter_append ..

theorem isQuestionElement_questionTree {kind : String} {path : QuestionPath} {statement : Segment}
    {rest : List Element} (h : ∀ t ∈ rest, t.name ≠ "name") :
    IsQuestionElement kind path.label (questionTree kind path statement rest) := by
  have hrest : rest.filter (·.name = "name") = [] :=
    List.filter_eq_nil_iff.mpr fun t ht => by simpa using h t ht
  refine ⟨rfl, rfl, ?_⟩
  rw [parts_questionTree, hrest, List.append_nil]
  rfl

section Questions

variable {solutions : Bool} {path : QuestionPath}

theorem mirrors_openEnded (statement modelAnswer : Segment) (points : Nat) (answerLength : String) :
    Mirrors
      (questionTree "essay" path statement (essayTrees solutions modelAnswer points answerLength))
      (path, .openEnded statement modelAnswer points answerLength) := by
  have hnames : ∀ t ∈ essayTrees solutions modelAnswer points answerLength, t.name ≠ "name" := by
    cases solutions <;> simp [essayTrees, Element.name, htmlTree, textTree]
  exact ⟨isQuestionElement_questionTree hnames, fun _ _ _ h => by cases h⟩

theorem mirrors_trueFalse (statement : Segment) (truth : Bool) (points : Nat) :
    Mirrors (questionTree "truefalse" path statement (trueFalseTrees solutions truth points))
      (path, .trueFalse statement truth points) := by
  have hnames : ∀ t ∈ trueFalseTrees solutions truth points, t.name ≠ "name" := by
    simp [trueFalseTrees, Element.name, answerTree, textTree]
  exact ⟨isQuestionElement_questionTree hnames, fun _ _ _ h => by cases h⟩

theorem mirrors_compound (statement : Segment) (points : Nat) (children : List Question) :
    Mirrors (questionTree "description" path statement [])
      (path, .compound statement points children) :=
  ⟨isQuestionElement_questionTree (List.forall_mem_nil _), fun _ _ _ h => by cases h⟩

theorem mirrors_closedEnded (statement : Segment) (points : Nat) {cs : List Choice}
    (hcs : ∀ c ∈ cs, styles.render c.statement = .ok (htmlText c.statement)) :
    Mirrors (questionTree "multichoice" path statement (multichoiceTrees solutions points cs))
      (path, .closedEnded statement points cs) := by
  have hchoices : ∀ t ∈ choiceTrees solutions (cs.countP Choice.isCorrect) cs, t.name = "answer" :=
    List.forall_mem_map.mpr fun _ _ => rfl
  have hnames : ∀ t ∈ multichoiceTrees solutions points cs, t.name ≠ "name" := by
    refine List.forall_mem_append.mpr ⟨by simp [Element.name], fun t ht => ?_⟩
    rw [hchoices t ht]
    decide
  have hanswers : (multichoiceTrees solutions points cs).filter (·.name = "answer") =
      choiceTrees solutions (cs.countP Choice.isCorrect) cs := by
    rw [multichoiceTrees, List.filter_append,
      List.filter_eq_self.mpr fun t ht => decide_eq_true (hchoices t ht)]
    rfl
  refine ⟨isQuestionElement_questionTree hnames, fun _ _ _ h => ?_⟩
  cases h
  rw [parts_questionTree, hanswers, choiceTrees]
  refine List.forall₂_map_left_iff.mpr (List.forall₂_same.mpr fun c hc => ?_)
  exact ⟨htmlText c.statement, hcs c hc, rfl⟩

end Questions

theorem mirrors_questionTreesOf {solutions : Bool} {path : QuestionPath} {index : Nat}
    {qs : List Question}
    (hqs : ∀ q ∈ qs, ∀ path,
      List.Forall₂ Mirrors (questionTrees solutions path q) (q.placed path)) :
    List.Forall₂ Mirrors (questionTreesOf solutions path index qs)
      (Question.placedFrom path index qs) := by
  induction qs generalizing index with
  | nil => exact .nil
  | cons q qs ih =>
    obtain ⟨hq, hqs⟩ := List.forall_mem_cons.mp hqs
    exact List.rel_append (hq _) (ih hqs)

def ChoicesRendered (q : Question) : Prop :=
  ∀ statement points choices, q = .closedEnded statement points choices →
    ∀ c ∈ choices, styles.render c.statement = .ok (htmlText c.statement)

/-- One element for each node of a question, in their order. -/
theorem mirrors_questionTrees {solutions : Bool} {q : Question}
    (hq : ∀ n ∈ q.nodes, ChoicesRendered n) (path : QuestionPath) :
    List.Forall₂ Mirrors (questionTrees solutions path q) (q.placed path) := by
  induction q generalizing path with
  | openEnded statement modelAnswer points answerLength =>
    exact .cons (mirrors_openEnded statement modelAnswer points answerLength) .nil
  | closedEnded statement points choices =>
    have hchoices := hq _ (Question.mem_nodes_self _) statement points choices rfl
    exact .cons (mirrors_closedEnded statement points hchoices) .nil
  | trueFalse statement truth points =>
    exact .cons (mirrors_trueFalse statement truth points) .nil
  | compound statement points children ih =>
    refine .cons (mirrors_compound statement points children) ?_
    refine mirrors_questionTreesOf fun q hmem path => ih q hmem ?_ path
    exact fun n hn => hq n (Question.mem_nodes_of_child hmem hn)

theorem choicesRendered_of_render {solutions : Bool} {e : Exam} {out : String}
    (h : render solutions e = .ok out) : ∀ n ∈ Question.nodesOf e.questions, ChoicesRendered n := by
  obtain ⟨hclean, -⟩ := render_eq_ok_iff_document.mp h
  rintro n hn statement points choices rfl c hc
  refine (render_writes c.statement).eq_ok_iff.mpr ⟨fun t ht => hclean t ?_, rfl⟩
  refine List.mem_append_right _ (List.mem_flatMap.mpr ⟨_, hn, ?_⟩)
  exact List.mem_append_right _ (List.mem_flatMap.mpr ⟨c, hc, ht⟩)

theorem names_of_mirrors {ts : List Element} {ns : List (QuestionPath × Question)}
    (h : List.Forall₂ Mirrors ts ns) :
    ts.map (fun t => (t.parts "name").map Element.texts) = ns.map fun n => [[n.1.label]] := by
  induction h with
  | nil => rfl
  | cons hmirrors _ ih => rw [List.map_cons, List.map_cons, hmirrors.name, ih]

/-- The question elements of a bank are the category, the instructions if there are any, and one
element for each question node, in the order of the document. An element has the type and the label
of its question, and an answer for each choice in their order; no two have the same name. -/
theorem elements_mirror_questions {solutions : Bool} {e : Exam} {out : String}
    (h : render solutions e = .ok out) :
    ∃ category instructions elements,
      Xml.parse out = some (.node "quiz" [] (category :: (instructions ++ elements))) ∧
      (category.name = "question" ∧ category.attribute? "type" = some "category") ∧
      (e.instructions = [] → instructions = []) ∧
      (e.instructions ≠ [] → ∃ t, instructions = [t] ∧
        IsQuestionElement "description" "Instructions" t) ∧
      List.Forall₂ Mirrors elements (Question.placedFrom [] 0 e.questions) ∧
      (elements.map fun t => (t.parts "name").map Element.texts).Nodup := by
  have hrendered := choicesRendered_of_render h
  have hmirrors : List.Forall₂ Mirrors (questionTreesOf solutions [] 0 e.questions)
      (Question.placedFrom [] 0 e.questions) := by
    refine mirrors_questionTreesOf fun q hq path => mirrors_questionTrees (fun n hn => ?_) path
    rw [Question.nodesOf_eq_flatMap] at hrendered
    exact hrendered n (List.mem_flatMap.mpr ⟨q, hq, hn⟩)
  have hnames : ((Question.placedFrom [] 0 e.questions).map fun n => [[n.1.label]]).Nodup := by
    have hlabels := (Question.nodup_labels e.questions).map
      (f := fun label => [[label]]) fun _ _ h => by simpa using h
    simpa only [List.map_map, Function.comp_def] using hlabels
  refine ⟨categoryTree e, instructionTrees e.instructions,
    questionTreesOf solutions [] 0 e.questions, parse_of_render h, ⟨rfl, rfl⟩, fun hnil => by rw [hnil, instructionTrees], fun hne => ?_,
    hmirrors, names_of_mirrors hmirrors ▸ hnames⟩
  obtain ⟨s, ss, hinstructions⟩ := List.exists_cons_of_ne_nil hne
  exact ⟨_, by rw [hinstructions, instructionTrees], rfl, rfl, rfl⟩

def partedQuestion : Question :=
  .compound (.plain "two parts") 2 [.openEnded (.plain "why") (.plain "because") 1 "2cm",
    .closedEnded (.plain "pick") 1 [⟨true, .plain "this"⟩, ⟨false, .plain "that"⟩]]

def partedBank : Exam where
  parameters := Parameters.empty.bind .instructions (.segments [.plain "Answer all."])
  questions := [.trueFalse (.plain "true or false") true 1, partedQuestion]

theorem elements_mirror_questions_partedBank :
    ∃ out category instructions elements,
      render true partedBank = .ok out ∧
      Xml.parse out = some (.node "quiz" [] (category :: instructions :: elements)) ∧
      IsQuestionElement "description" "Instructions" instructions ∧
      List.Forall₂ Mirrors elements ([([1], .trueFalse (.plain "true or false") true 1),
        ([2], partedQuestion)] ++ Question.placedFrom [2] 0 partedQuestion.children) ∧
      elements.map (fun t => (t.parts "name").map Element.texts) =
        [[["Q1"]], [["Q2"]], [["Q2.1"]], [["Q2.2"]]] := by
  have hrender := render_eq_ok_iff_document.mpr
    ⟨(by decide : AllChars _ (shownTexts true partedBank)), rfl⟩
  obtain ⟨category, instructions, elements, hparse, -, -, hinstructions, hmirrors, -⟩ :=
    elements_mirror_questions hrender
  obtain ⟨t, rfl, ht⟩ := hinstructions (List.cons_ne_nil _ _)
  exact ⟨_, category, t, elements, hrender, hparse, ht, hmirrors, names_of_mirrors hmirrors⟩

end Moodle

end ExamVariants
