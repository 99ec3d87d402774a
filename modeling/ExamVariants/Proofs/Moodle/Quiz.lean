import ExamVariants.Moodle.Bank
import ExamVariants.Proofs.Decimal.Numerals
import ExamVariants.Proofs.Moodle.Html
import ExamVariants.Proofs.Question.Rewriting

namespace ExamVariants.Moodle

open Xml

def textTree (name : String) (attributes : List (String × String)) (text : String) : Element :=
  .node name attributes [.leaf "text" [] text]

def htmlTree (name text : String) : Element := textTree name [("format", "html")] text

def categoryTree (e : Exam) : Element :=
  .node "question" [("type", "category")] [textTree "category" [] (categoryPath e)]

def itemsHtml (ss : List Segment) : String :=
  String.join (ss.map fun s => "<li>" ++ htmlText s ++ "</li>")

def instructionTrees : List Segment → List Element
  | [] => []
  | s :: ss =>
    [.node "question" [("type", "description"), ("id", "instructions")]
      [textTree "name" [] "Instructions",
        htmlTree "questiontext" ("<ul>" ++ itemsHtml (s :: ss) ++ "</ul>")]]

def headingTrees (path : QuestionPath) (statement : Segment) : List Element :=
  [textTree "name" [] path.label, htmlTree "questiontext" (htmlText statement)]

def answerTree (fraction format text : String) : Element :=
  textTree "answer" [("fraction", fraction), ("format", format)] text

def choiceTrees (solutions : Bool) (correct : Nat) (cs : List Choice) : List Element :=
  cs.map fun c => answerTree (choiceFraction solutions correct c) "html" (htmlText c.statement)

def essayTrees (solutions : Bool) (modelAnswer : Segment) (points : Nat) (answerLength : String) :
    List Element :=
  [.leaf "defaultgrade" [] (toString points), .leaf "responseformat" [] "editor",
    .leaf "responsefieldlines" [] (toString (responseLines answerLength))] ++
  if solutions then [htmlTree "graderinfo" (htmlText modelAnswer)] else []

def multichoiceTrees (solutions : Bool) (points : Nat) (cs : List Choice) : List Element :=
  let correct := cs.countP Choice.isCorrect
  [.leaf "defaultgrade" [] (toString points),
    .leaf "single" [] (if correct ≤ 1 then "true" else "false"),
    .leaf "shuffleanswers" [] "false", .leaf "answernumbering" [] "ABCD"] ++
  choiceTrees solutions correct cs

def trueFalseTrees (solutions truth : Bool) (points : Nat) : List Element :=
  [.leaf "defaultgrade" [] (toString points),
    answerTree (truthFraction solutions truth true) "moodle_auto_format" "true",
    answerTree (truthFraction solutions truth false) "moodle_auto_format" "false"]

def questionTree (kind : String) (path : QuestionPath) (statement : Segment)
    (rest : List Element) : Element :=
  .node "question" [("type", kind)] (headingTrees path statement ++ rest)

mutual

/-- The question, and behind a compound one its children. -/
def questionTrees (solutions : Bool) (path : QuestionPath) : Question → List Element
  | .openEnded statement modelAnswer points answerLength =>
    [questionTree "essay" path statement (essayTrees solutions modelAnswer points answerLength)]
  | .closedEnded statement points choices =>
    [questionTree "multichoice" path statement (multichoiceTrees solutions points choices)]
  | .trueFalse statement truth points =>
    [questionTree "truefalse" path statement (trueFalseTrees solutions truth points)]
  | .compound statement _ children =>
    questionTree "description" path statement [] :: questionTreesOf solutions path 0 children

def questionTreesOf (solutions : Bool) (path : QuestionPath) (index : Nat) :
    List Question → List Element
  | [] => []
  | q :: qs =>
    questionTrees solutions (path ++ [index + 1]) q ++ questionTreesOf solutions path (index + 1) qs

end

/-- The category, the instructions if there are any, and the questions. -/
def quiz (solutions : Bool) (e : Exam) : Element :=
  .node "quiz" []
    (categoryTree e :: (instructionTrees e.instructions ++
      questionTreesOf solutions [] 0 e.questions))

theorem textTree_wellFormed {name : String} {attributes : List (String × String)}
    (h : TagFits name attributes) (text : String) :
    (textTree name attributes text).WellFormed := by
  refine .node h (List.cons_ne_nil _ _) fun e he => ?_
  obtain rfl := List.mem_singleton.mp he
  exact .leaf text ⟨by decide, by decide, by decide⟩

theorem htmlTree_wellFormed {name : String} (h : IsName name) (text : String) :
    (htmlTree name text).WellFormed :=
  textTree_wellFormed ⟨h, by decide, by decide⟩ text

theorem leaf_wellFormed {name : String} (h : IsName name) (text : String) :
    (Element.leaf name [] text).WellFormed :=
  .leaf text ⟨h, by decide, by decide⟩

theorem headingTrees_wellFormed (path : QuestionPath) (statement : Segment) :
    ∀ t ∈ headingTrees path statement, t.WellFormed := by
  rw [headingTrees, List.forall_mem_cons, List.forall_mem_singleton]
  exact ⟨textTree_wellFormed ⟨by decide, by decide, by decide⟩ _,
    htmlTree_wellFormed (by decide) _⟩

theorem isPrintable_of_isDigit {c : Char} (h : c.isDigit = true) : isPrintable c = true :=
  isPrintable_of_isNameChar (by simp [isNameChar, Char.isAlphanum, h])

theorem isPrintable_of_mem_toDigits {n : Nat} {c : Char} (h : c ∈ Nat.toDigits 10 n) :
    isPrintable c = true :=
  isPrintable_of_isDigit (Decimal.isDigit_of_mem_toDigits h)

theorem isPrintable_of_mem_toString {n : Nat} {c : Char} (h : c ∈ (toString n).toList) :
    isPrintable c = true :=
  isPrintable_of_isDigit (Decimal.isDigit_of_mem_toString h)

theorem isPrintable_of_mem_share {n : Nat} {c : Char} (h : c ∈ (share n).toList) :
    isPrintable c = true := by
  unfold share at h
  split at h
  · exact isPrintable_of_mem_toString (n := 0) h
  · extract_lets unit quotient scaled digits kept at h
    have hkept (d : Char) (hd : d ∈ kept) : isPrintable d = true :=
      isPrintable_of_mem_toDigits (List.mem_of_mem_drop (List.mem_reverse.mp
        ((List.dropWhile_sublist _).mem (List.mem_reverse.mp hd))))
    have hpoint : ".".toList.all isPrintable = true := by decide
    rw [String.toList_append, List.mem_append] at h
    rcases h with h | h
    · exact isPrintable_of_mem_toString h
    · split at h
      · cases h
      · rw [String.toList_append, List.mem_append] at h
        exact h.elim (List.all_eq_true.mp hpoint c) fun h => hkept c (by rwa [String.toList_ofList] at h)

theorem answerTree_wellFormed {fraction format : String}
    (hfraction : fraction.toList.all isPrintable = true)
    (hformat : format.toList.all isPrintable = true) (text : String) :
    (answerTree fraction format text).WellFormed := by
  refine textTree_wellFormed ⟨by decide, ?_, ?_⟩ text
  · simp only [List.forall_mem_cons]
    exact ⟨by decide, by decide, by simp⟩
  · simp only [List.forall_mem_cons]
    exact ⟨hfraction, hformat, by simp⟩

theorem choiceTrees_wellFormed (solutions : Bool) (correct : Nat) (cs : List Choice) :
    ∀ t ∈ choiceTrees solutions correct cs, t.WellFormed := by
  intro t ht
  obtain ⟨c, -, rfl⟩ := List.mem_map.mp ht
  refine answerTree_wellFormed ?_ (by decide) _
  rw [choiceFraction]
  split
  · exact List.all_eq_true.mpr fun d hd => isPrintable_of_mem_share hd
  · decide

theorem questionTree_wellFormed {kind : String} (hkind : kind.toList.all isPrintable = true)
    (path : QuestionPath) (statement : Segment) {rest : List Element}
    (h : ∀ t ∈ rest, t.WellFormed) : (questionTree kind path statement rest).WellFormed := by
  refine .node ⟨by decide, by simpa using by decide, by simpa using hkind⟩ ?_ ?_
  · simp [headingTrees]
  · exact List.forall_mem_append.mpr ⟨headingTrees_wellFormed path statement, h⟩

theorem essayTrees_wellFormed (solutions : Bool) (modelAnswer : Segment) (points : Nat)
    (answerLength : String) :
    ∀ t ∈ essayTrees solutions modelAnswer points answerLength, t.WellFormed := by
  have hgrader : ∀ t ∈ (if solutions then [htmlTree "graderinfo" (htmlText modelAnswer)] else []),
      t.WellFormed := by
    cases solutions with
    | false => simp
    | true => simpa using htmlTree_wellFormed (by decide) _
  refine List.forall_mem_append.mpr ⟨?_, hgrader⟩
  simp only [List.forall_mem_cons]
  exact ⟨leaf_wellFormed (by decide) _, leaf_wellFormed (by decide) _,
    leaf_wellFormed (by decide) _, by simp⟩

theorem multichoiceTrees_wellFormed (solutions : Bool) (points : Nat) (cs : List Choice) :
    ∀ t ∈ multichoiceTrees solutions points cs, t.WellFormed := by
  refine List.forall_mem_append.mpr ⟨?_, choiceTrees_wellFormed _ _ _⟩
  simp only [List.forall_mem_cons]
  exact ⟨leaf_wellFormed (by decide) _, leaf_wellFormed (by decide) _,
    leaf_wellFormed (by decide) _, leaf_wellFormed (by decide) _, by simp⟩

theorem trueFalseTrees_wellFormed (solutions truth : Bool) (points : Nat) :
    ∀ t ∈ trueFalseTrees solutions truth points, t.WellFormed := by
  have hfraction (label : Bool) :
      (truthFraction solutions truth label).toList.all isPrintable = true := by
    revert solutions truth label
    decide
  simp only [trueFalseTrees, List.forall_mem_cons]
  exact ⟨leaf_wellFormed (by decide) _, answerTree_wellFormed (hfraction true) (by decide) _,
    answerTree_wellFormed (hfraction false) (by decide) _, by simp⟩

theorem questionTreesOf_wellFormed (solutions : Bool) (path : QuestionPath) (index : Nat)
    {qs : List Question}
    (h : ∀ q ∈ qs, ∀ path, ∀ t ∈ questionTrees solutions path q, t.WellFormed) :
    ∀ t ∈ questionTreesOf solutions path index qs, t.WellFormed := by
  induction qs generalizing index with
  | nil => simp [questionTreesOf]
  | cons q qs ih =>
    rw [questionTreesOf, List.forall_mem_append]
    exact ⟨h q List.mem_cons_self _, ih _ fun q' hq' => h q' (List.mem_cons_of_mem q hq')⟩

theorem questionTrees_wellFormed (solutions : Bool) (path : QuestionPath) (q : Question) :
    ∀ t ∈ questionTrees solutions path q, t.WellFormed := by
  induction q generalizing path with
  | openEnded statement modelAnswer points answerLength =>
    rw [questionTrees, List.forall_mem_singleton]
    exact questionTree_wellFormed (by decide) _ _ (essayTrees_wellFormed _ _ _ _)
  | closedEnded statement points choices =>
    rw [questionTrees, List.forall_mem_singleton]
    exact questionTree_wellFormed (by decide) _ _ (multichoiceTrees_wellFormed _ _ _)
  | trueFalse statement answer points =>
    rw [questionTrees, List.forall_mem_singleton]
    exact questionTree_wellFormed (by decide) _ _ (trueFalseTrees_wellFormed _ _ _)
  | compound statement points children ih =>
    rw [questionTrees, List.forall_mem_cons]
    exact ⟨questionTree_wellFormed (by decide) _ _ (by simp),
      questionTreesOf_wellFormed solutions path 0 ih⟩

theorem instructionTrees_wellFormed (ss : List Segment) :
    ∀ t ∈ instructionTrees ss, t.WellFormed := by
  cases ss with
  | nil => simp [instructionTrees]
  | cons s ss =>
    rw [instructionTrees, List.forall_mem_singleton]
    refine .node ⟨by decide, by decide, by decide⟩ (List.cons_ne_nil _ _) ?_
    rw [List.forall_mem_cons, List.forall_mem_singleton]
    exact ⟨textTree_wellFormed ⟨by decide, by decide, by decide⟩ _,
      htmlTree_wellFormed (by decide) _⟩

theorem quiz_wellFormed (solutions : Bool) (e : Exam) : (quiz solutions e).WellFormed := by
  have hcategory : (categoryTree e).WellFormed := by
    refine .node ⟨by decide, by decide, by decide⟩ (List.cons_ne_nil _ _) ?_
    rw [List.forall_mem_singleton]
    exact textTree_wellFormed ⟨by decide, by decide, by decide⟩ _
  refine .node ⟨by decide, by decide, by decide⟩ (List.cons_ne_nil _ _) ?_
  rw [List.forall_mem_cons, List.forall_mem_append]
  exact ⟨hcategory, instructionTrees_wellFormed _,
    questionTreesOf_wellFormed solutions [] 0 fun q _ path =>
      questionTrees_wellFormed solutions path q⟩

/-- The elements and attributes without the texts. -/
def shape (t : Element) : Element := t.mapTexts fun _ => ""

@[simp] theorem shape_leaf (name : String) (attributes : List (String × String)) (text : String) :
    shape (.leaf name attributes text) = .leaf name attributes "" := by
  rw [shape, Element.mapTexts]

@[simp] theorem shape_node (name : String) (attributes : List (String × String)) (ts : List Element) :
    shape (.node name attributes ts) = .node name attributes (ts.map shape) := by
  rw [shape, Element.mapTexts, Element.mapTextsOf_eq_map]
  rfl

@[simp] theorem textTree_shape (name : String) (attributes : List (String × String)) (text : String) :
    shape (textTree name attributes text) = textTree name attributes "" := by
  rw [textTree, shape_node, List.map_singleton, shape_leaf, textTree]

theorem questionTree_shape {kind : String} {path : QuestionPath} {statement statement' : Segment}
    {rest rest' : List Element} (h : rest.map shape = rest'.map shape) :
    shape (questionTree kind path statement rest) =
      shape (questionTree kind path statement' rest') := by
  simp [questionTree, headingTrees, htmlTree, h]

theorem essayTrees_shape (solutions : Bool) (modelAnswer modelAnswer' : Segment)
    (points points' : Nat) (answerLength answerLength' : String) :
    (essayTrees solutions modelAnswer points answerLength).map shape =
      (essayTrees solutions modelAnswer' points' answerLength').map shape := by
  cases solutions <;> simp [essayTrees, htmlTree]

theorem multichoiceTrees_shape {r : Rewriting} (hr : r.isCorrect = id) (solutions : Bool)
    (points points' : Nat) (cs : List Choice) :
    (multichoiceTrees solutions points (cs.map r.choice)).map shape =
      (multichoiceTrees solutions points' cs).map shape := by
  have hcorrect (c : Choice) : (r.choice c).isCorrect = c.isCorrect := by
    rw [Rewriting.choice, hr, id]
  have hcount : (cs.map r.choice).countP Choice.isCorrect = cs.countP Choice.isCorrect := by
    rw [List.countP_map]
    exact List.countP_congr fun c _ => by simp [hcorrect c]
  have hchoices (correct : Nat) : (choiceTrees solutions correct (cs.map r.choice)).map shape =
      (choiceTrees solutions correct cs).map shape := by
    simp only [choiceTrees, List.map_map]
    refine List.map_congr_left fun c _ => ?_
    simp only [Function.comp_apply, choiceFraction, hcorrect c, answerTree, textTree_shape]
  simp only [multichoiceTrees, List.map_append, List.map_cons, hcount, hchoices, shape_leaf]

theorem questionTreesOf_shape {r : Rewriting} (solutions : Bool) (path : QuestionPath)
    (index : Nat) {qs : List Question}
    (h : ∀ q ∈ qs, ∀ path, (questionTrees solutions path (r.question q)).map shape =
      (questionTrees solutions path q).map shape) :
    (questionTreesOf solutions path index (qs.map r.question)).map shape =
      (questionTreesOf solutions path index qs).map shape := by
  induction qs generalizing index with
  | nil => rfl
  | cons q qs ih =>
    simp only [List.map_cons, questionTreesOf, List.map_append]
    rw [h q List.mem_cons_self, ih _ fun q' hq' => h q' (List.mem_cons_of_mem q hq')]

theorem questionTrees_shape {r : Rewriting} (hcorrect : r.isCorrect = id) (hanswer : r.answer = id)
    (solutions : Bool) (path : QuestionPath) (q : Question) :
    (questionTrees solutions path (r.question q)).map shape =
      (questionTrees solutions path q).map shape := by
  induction q generalizing path with
  | openEnded statement modelAnswer points answerLength =>
    simp only [Rewriting.question, questionTrees, List.map_singleton]
    exact congrArg ([·]) (questionTree_shape (essayTrees_shape _ _ _ _ _ _ _))
  | closedEnded statement points choices =>
    simp only [Rewriting.question, questionTrees, List.map_singleton]
    exact congrArg ([·]) (questionTree_shape (multichoiceTrees_shape hcorrect _ _ _ _))
  | trueFalse statement answer points =>
    simp only [Rewriting.question, questionTrees, List.map_singleton, hanswer, id]
    exact congrArg ([·]) (questionTree_shape rfl)
  | compound statement points children ih =>
    simp only [Rewriting.question, Rewriting.questions_eq_map, questionTrees, List.map_cons]
    rw [questionTreesOf_shape solutions path 0 ih]
    exact congrArg (· :: _) (questionTree_shape rfl)

/-- Blanks all texts and counts of a question, but neither its kind nor its key. -/
def outline : Rewriting where
  statement _ := .plain ""
  modelAnswer _ := .plain ""
  answerLength _ := ""
  choiceStatement _ := .plain ""
  points _ := 0

/-- Examinations that differ in what they say only. -/
structure SameOutline (e e' : Exam) : Prop where
  questions : e.questions.map outline.question = e'.questions.map outline.question
  instructions : e.instructions = [] ↔ e'.instructions = []

theorem instructionTrees_shape {ss ss' : List Segment} (h : ss = [] ↔ ss' = []) :
    (instructionTrees ss).map shape = (instructionTrees ss').map shape := by
  cases ss with
  | nil => rw [h.mp rfl]
  | cons s ss =>
    cases ss' with
    | nil => cases h.mpr rfl
    | cons s' ss' => simp [instructionTrees, htmlTree]

theorem quiz_shape (solutions : Bool) {e e' : Exam} (h : SameOutline e e') :
    shape (quiz solutions e) = shape (quiz solutions e') := by
  have houtline (qs : List Question) :
      (questionTreesOf solutions [] 0 qs).map shape =
        (questionTreesOf solutions [] 0 (qs.map outline.question)).map shape :=
    (questionTreesOf_shape solutions [] 0 fun q _ path =>
      questionTrees_shape rfl rfl solutions path q).symm
  -- Both quizzes have the shape of the quiz of their common outline.
  simp only [quiz, categoryTree, shape_node, List.map_cons, List.map_append, textTree_shape]
  rw [houtline e.questions, h.questions, ← houtline, instructionTrees_shape h.instructions]

end ExamVariants.Moodle
