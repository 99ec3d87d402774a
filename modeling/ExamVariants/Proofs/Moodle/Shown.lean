import ExamVariants.Proofs.Moodle.Quiz

namespace ExamVariants.Moodle

open Xml

/-- The chain writes the elements unless one of their texts holds a forbidden character, and fails at
the first one. -/
def ChecksTrees (es : List Element) (x : Events) : Prop :=
  Checks (Element.textsOf es) (Element.eventsOf es) x

theorem element_checks (name text : String) :
    ChecksTrees [.leaf name [] text] (element name text) :=
  (checkText_checks text).map rfl

theorem wrapped_checks (name : String) (attributes : List (String × String)) (text : String) :
    ChecksTrees [textTree name attributes text] (wrapped name attributes text) :=
  (element_checks "text" text).map rfl

theorem render_bind_checks {α : Type} {ts : List String} {a : α} (s : Segment)
    {f : String → Except RenderError α} (h : Checks (htmlText s :: ts) a (f (htmlText s))) :
    Checks (htmlText s :: ts) a (styles.render s >>= f) :=
  ((render_checks s).bind h).of_first (firstForbidden?_append_self (htmlText_sameStrays s) ts)

theorem category_checks (e : Exam) : ChecksTrees [categoryTree e] (category e) :=
  (wrapped_checks "category" [] (categoryPath e)).map rfl

theorem instructionItems_checks (ss : List Segment) :
    Checks (ss.flatMap leafTexts) (itemsHtml ss) (instructionItems ss) := by
  induction ss with
  | nil => exact .pure _
  | cons s ss ih =>
    rw [instructionItems, itemsHtml, List.flatMap_cons, List.map_cons, String.join_cons]
    exact (render_checks s).bind (ih.map rfl)

theorem itemsHtml_sameStrays (ss : List Segment) :
    SameStrays ["<ul>" ++ itemsHtml ss ++ "</ul>"] (ss.flatMap leafTexts) := by
  have hitems : SameStrays (ss.flatMap fun s => ["<li>" ++ htmlText s ++ "</li>"])
      (ss.flatMap leafTexts) :=
    .flatMap fun s _ => (SameStrays.between (by decide) (by decide) _).trans (htmlText_sameStrays s)
  rw [← List.map_eq_flatMap] at hitems
  exact (SameStrays.between (by decide) (by decide) _).trans ((SameStrays.join _).trans hitems)

theorem instructionTrees_sameStrays (ss : List Segment) :
    SameStrays (Element.textsOf (instructionTrees ss)) (ss.flatMap leafTexts) := by
  cases ss with
  | nil => exact .refl _
  | cons s ss =>
    have hname : SameStrays ["Instructions"] [] := .of_all (by decide)
    exact hname.append (itemsHtml_sameStrays (s :: ss))

theorem instructions_checks (e : Exam) :
    ChecksTrees (instructionTrees e.instructions) (instructions e) := by
  rw [instructions]
  cases e.instructions with
  | nil => exact .pure _
  | cons s ss =>
    have hname := wrapped_checks "name" [] "Instructions"
    have htext := wrapped_checks "questiontext" [("format", "html")]
      ("<ul>" ++ itemsHtml (s :: ss) ++ "</ul>")
    -- The list of instructions is checked item by item, and once more as a whole.
    refine Checks.of_first
      ((instructionItems_checks (s :: ss)).bind (hname.bind (htext.map rfl))) ?_
    exact firstForbidden?_append_self (instructionTrees_sameStrays (s :: ss)) []

theorem heading_checks (path : QuestionPath) (statement : Segment) :
    ChecksTrees (headingTrees path statement) (heading path statement) := by
  have htext := wrapped_checks "questiontext" [("format", "html")] (htmlText statement)
  exact (wrapped_checks "name" [] path.label).bind
    (render_bind_checks statement (htext.map rfl))

theorem answer_checks (fraction format text : String) :
    ChecksTrees [answerTree fraction format text] (answer fraction format text) :=
  wrapped_checks "answer" [("fraction", fraction), ("format", format)] text

theorem graderInfo_checks (solutions : Bool) (modelAnswer : Segment) :
    ChecksTrees (if solutions then [htmlTree "graderinfo" (htmlText modelAnswer)] else [])
      (graderInfo solutions modelAnswer) := by
  cases solutions with
  | false => exact .pure _
  | true =>
    exact render_bind_checks modelAnswer
      (wrapped_checks "graderinfo" [("format", "html")] (htmlText modelAnswer))

theorem essay_checks (solutions : Bool) (path : QuestionPath) (statement modelAnswer : Segment)
    (points : Nat) (answerLength : String) :
    ChecksTrees
      [questionTree "essay" path statement (essayTrees solutions modelAnswer points answerLength)]
      (essay solutions path statement modelAnswer points answerLength) := by
  have hgrader := graderInfo_checks solutions modelAnswer
  -- One rule for each line of the function; what it collects is then only regrouped.
  refine Checks.congr ((heading_checks path statement).bind ((element_checks _ _).bind
    ((element_checks _ _).bind ((element_checks _ _).bind (hgrader.map rfl))))) ?_ ?_
  · simp [questionTree, essayTrees, Element.textsOf, Element.texts, Element.textsOf_append]
  · simp [questionTree, essayTrees, questionElement, within, Element.eventsOf, Element.events,
      Element.eventsOf_append]

theorem choiceAnswers_checks (solutions : Bool) (correct : Nat) (cs : List Choice) :
    ChecksTrees (choiceTrees solutions correct cs) (choiceAnswers solutions correct cs) := by
  induction cs with
  | nil => exact .pure _
  | cons c cs ih =>
    have hfirst := answer_checks (choiceFraction solutions correct c) "html" (htmlText c.statement)
    exact render_bind_checks c.statement (hfirst.bind (ih.map rfl))

theorem multichoice_checks (solutions : Bool) (path : QuestionPath) (statement : Segment)
    (points : Nat) (cs : List Choice) :
    ChecksTrees
      [questionTree "multichoice" path statement (multichoiceTrees solutions points cs)]
      (multichoice solutions path statement points cs) := by
  have hanswers := choiceAnswers_checks solutions (cs.countP Choice.isCorrect) cs
  refine Checks.congr ((heading_checks path statement).bind ((element_checks _ _).bind
    ((element_checks _ _).bind ((element_checks _ _).bind ((element_checks _ _).bind
      (hanswers.map rfl)))))) ?_ ?_
  · simp [questionTree, multichoiceTrees, Element.textsOf, Element.texts, Element.textsOf_append]
  · simp [questionTree, multichoiceTrees, questionElement, within, Element.eventsOf,
      Element.events, Element.eventsOf_append]

theorem trueFalse_checks (solutions : Bool) (path : QuestionPath) (statement : Segment)
    (truth : Bool) (points : Nat) :
    ChecksTrees [questionTree "truefalse" path statement (trueFalseTrees solutions truth points)]
      (trueFalse solutions path statement truth points) :=
  (heading_checks path statement).bind ((element_checks _ _).bind
    ((answer_checks _ _ _).bind ((answer_checks _ _ _).map rfl)))

theorem questions_checks (solutions : Bool) (path : QuestionPath) (index : Nat)
    {qs : List Question}
    (h : ∀ q ∈ qs, ∀ path, ChecksTrees (questionTrees solutions path q) (question solutions path q)) :
    ChecksTrees (questionTreesOf solutions path index qs) (questions solutions path index qs) := by
  induction qs generalizing index with
  | nil => exact .pure _
  | cons q qs ih =>
    have hrest := ih (index + 1) fun q' hq' => h q' (List.mem_cons_of_mem q hq')
    rw [questions, questionTreesOf]
    refine Checks.congr ((h q List.mem_cons_self _).bind (hrest.map rfl)) ?_ ?_
    · rw [Element.textsOf_append]
    · rw [Element.eventsOf_append]

theorem question_checks (solutions : Bool) (path : QuestionPath) (q : Question) :
    ChecksTrees (questionTrees solutions path q) (question solutions path q) := by
  induction q generalizing path with
  | openEnded statement modelAnswer points answerLength =>
    rw [question, questionTrees]
    exact essay_checks solutions path statement modelAnswer points answerLength
  | closedEnded statement points choices =>
    rw [question, questionTrees]
    exact multichoice_checks solutions path statement points choices
  | trueFalse statement answer points =>
    rw [question, questionTrees]
    exact trueFalse_checks solutions path statement answer points
  | compound statement points children ih =>
    rw [question, questionTrees]
    exact (heading_checks path statement).bind
      ((questions_checks solutions path 0 ih).map rfl)

theorem events_checks (solutions : Bool) (e : Exam) :
    Checks (quiz solutions e).texts (quiz solutions e).events (events solutions e) := by
  have hquestions := questions_checks solutions [] 0 fun q (_ : q ∈ e.questions) path =>
    question_checks solutions path q
  refine Checks.congr ((category_checks e).bind
    ((instructions_checks e).bind (hquestions.map rfl))) ?_ ?_
  · simp [quiz, Element.texts, Element.textsOf, Element.textsOf_append]
  · simp [quiz, within, Element.events, Element.eventsOf, Element.eventsOf_append]

theorem events_writes (solutions : Bool) (e : Exam) :
    Writes (quiz solutions e).texts (quiz solutions e).events (events solutions e) :=
  .of_checks (events_checks solutions e)

/-- The texts of a question itself; model answers are for graders. -/
def nodeTexts (solutions : Bool) : Question → List String
  | .openEnded statement modelAnswer _ _ =>
    leafTexts statement ++ if solutions then leafTexts modelAnswer else []
  | .closedEnded statement _ choices =>
    leafTexts statement ++ choices.flatMap fun c => leafTexts c.statement
  | .trueFalse statement _ _ => leafTexts statement
  | .compound statement _ _ => leafTexts statement

/-- The texts of an examination that its bank shows. -/
def shownTexts (solutions : Bool) (e : Exam) : List String :=
  categoryParts e ++ e.instructions.flatMap leafTexts ++
    (Question.nodesOf e.questions).flatMap (nodeTexts solutions)

theorem replaceChar_sameStrays {old new : Char} (hold : isPrintable old = true)
    (hnew : isPrintable new = true) (s : String) :
    SameStrays [Text.replaceChar old new s] [s] := by
  rw [Text.replaceChar, List.map_eq_flatMap]
  refine .ofList_flatMap (fun c => ?_) s
  by_cases hc : c = old
  · exact .inr ⟨hc ▸ hold, by simp [hc, hnew]⟩
  · exact .inl (by rw [if_neg hc])

theorem intercalate_sameStrays {sep : String} (hsep : sep.toList.all isPrintable = true) :
    ∀ ts : List String, SameStrays [sep.intercalate ts] ts
  | [] => by
    rw [String.intercalate_nil]
    exact .of_all (by decide)
  | [t] => by
    rw [String.intercalate_singleton]
    exact .refl _
  | t :: t' :: ts => by
    rw [String.intercalate_cons_cons]
    exact (SameStrays.pair (t ++ sep) _).trans
      ((SameStrays.before hsep t).append (intercalate_sameStrays hsep (t' :: ts)))

theorem categoryTree_sameStrays (e : Exam) : SameStrays (categoryTree e).texts (categoryParts e) := by
  have hparts : SameStrays ((categoryParts e).map (Text.replaceChar '/' '-'))
      ((categoryParts e).map id) :=
    .map fun t _ => replaceChar_sameStrays (by decide) (by decide) t
  rw [List.map_id] at hparts
  have hpath : SameStrays [categoryPath e]
      (["$course$"] ++ (categoryParts e).map (Text.replaceChar '/' '-')) :=
    intercalate_sameStrays (by decide) _
  exact hpath.trans ((SameStrays.of_all (by decide)).append hparts)

theorem toString_sameStrays (ns : List Nat) : SameStrays (ns.map toString) [] := by
  refine .of_all fun t ht => List.all_eq_true.mpr fun c hc => ?_
  obtain ⟨n, -, rfl⟩ := List.mem_map.mp ht
  exact isPrintable_of_mem_toString hc

theorem label_sameStrays (path : QuestionPath) : SameStrays [path.label] [] :=
  (SameStrays.behind (by decide) _).trans
    ((intercalate_sameStrays (by decide) _).trans (toString_sameStrays path))

theorem headingTrees_sameStrays (path : QuestionPath) (statement : Segment) :
    SameStrays (Element.textsOf (headingTrees path statement)) (leafTexts statement) :=
  (label_sameStrays path).append (htmlText_sameStrays statement)

theorem questionTree_sameStrays {kind : String} {path : QuestionPath} {statement : Segment}
    {rest : List Element} {ts : List String} (h : SameStrays (Element.textsOf rest) ts) :
    SameStrays (questionTree kind path statement rest).texts (leafTexts statement ++ ts) := by
  rw [questionTree, Element.texts, Element.textsOf_append]
  exact (headingTrees_sameStrays path statement).append h

theorem essayTrees_sameStrays (solutions : Bool) (modelAnswer : Segment) (points : Nat)
    (answerLength : String) :
    SameStrays (Element.textsOf (essayTrees solutions modelAnswer points answerLength))
      (if solutions then leafTexts modelAnswer else []) := by
  have hgrader : SameStrays
      (Element.textsOf (if solutions then [htmlTree "graderinfo" (htmlText modelAnswer)] else []))
      (if solutions then leafTexts modelAnswer else []) := by
    cases solutions with
    | false => exact .refl _
    | true => exact htmlText_sameStrays modelAnswer
  have hformat : SameStrays ["editor"] [] := .of_all (by decide)
  rw [essayTrees, Element.textsOf_append]
  exact (toString_sameStrays [points]).append
    (hformat.append ((toString_sameStrays [responseLines answerLength]).append hgrader))

theorem choiceTrees_sameStrays (solutions : Bool) (correct : Nat) (cs : List Choice) :
    SameStrays (Element.textsOf (choiceTrees solutions correct cs))
      (cs.flatMap fun c => leafTexts c.statement) := by
  rw [Element.textsOf_eq_flatMap, choiceTrees, List.flatMap_map]
  exact .flatMap fun c _ => htmlText_sameStrays c.statement

theorem multichoiceTrees_sameStrays (solutions : Bool) (points : Nat) (cs : List Choice) :
    SameStrays (Element.textsOf (multichoiceTrees solutions points cs))
      (cs.flatMap fun c => leafTexts c.statement) := by
  have hsettings : SameStrays
      [if cs.countP Choice.isCorrect ≤ 1 then "true" else "false", "false", "ABCD"] [] := by
    split <;> exact .of_all (by decide)
  rw [multichoiceTrees, Element.textsOf_append]
  exact (toString_sameStrays [points]).append
    (hsettings.append (choiceTrees_sameStrays solutions (cs.countP Choice.isCorrect) cs))

theorem trueFalseTrees_sameStrays (solutions truth : Bool) (points : Nat) :
    SameStrays (Element.textsOf (trueFalseTrees solutions truth points)) [] := by
  have hlabels : SameStrays ["true", "false"] [] := .of_all (by decide)
  exact (toString_sameStrays [points]).append hlabels

theorem questionTreesOf_sameStrays (solutions : Bool) (path : QuestionPath) (index : Nat)
    {qs : List Question}
    (h : ∀ q ∈ qs, ∀ path, SameStrays (Element.textsOf (questionTrees solutions path q))
      (q.nodes.flatMap (nodeTexts solutions))) :
    SameStrays (Element.textsOf (questionTreesOf solutions path index qs))
      ((Question.nodesOf qs).flatMap (nodeTexts solutions)) := by
  induction qs generalizing index with
  | nil => exact .refl _
  | cons q qs ih =>
    rw [questionTreesOf, Element.textsOf_append, Question.nodesOf, List.flatMap_append]
    exact (h q List.mem_cons_self _).append
      (ih (index + 1) fun q' hq' => h q' (List.mem_cons_of_mem q hq'))

theorem questionTrees_sameStrays (solutions : Bool) (path : QuestionPath) (q : Question) :
    SameStrays (Element.textsOf (questionTrees solutions path q))
      (q.nodes.flatMap (nodeTexts solutions)) := by
  induction q generalizing path with
  | openEnded statement modelAnswer points answerLength =>
    rw [questionTrees, Element.textsOf_singleton, Question.nodes, List.flatMap_singleton]
    exact questionTree_sameStrays (essayTrees_sameStrays _ _ _ _)
  | closedEnded statement points choices =>
    rw [questionTrees, Element.textsOf_singleton, Question.nodes, List.flatMap_singleton]
    exact questionTree_sameStrays (multichoiceTrees_sameStrays _ _ _)
  | trueFalse statement truth points =>
    rw [questionTrees, Element.textsOf_singleton, Question.nodes, List.flatMap_singleton,
      nodeTexts, ← List.append_nil (leafTexts statement)]
    exact questionTree_sameStrays (trueFalseTrees_sameStrays _ _ _)
  | compound statement points children ih =>
    rw [questionTrees, Element.textsOf, Question.nodes, List.flatMap_cons, nodeTexts,
      ← List.append_nil (leafTexts statement)]
    exact (questionTree_sameStrays (.refl (Element.textsOf []))).append
      (questionTreesOf_sameStrays solutions path 0 ih)

/-- The quiz holds the characters of the texts that it shows. -/
theorem quiz_sameStrays (solutions : Bool) (e : Exam) :
    SameStrays (quiz solutions e).texts (shownTexts solutions e) := by
  have hquestions := questionTreesOf_sameStrays solutions [] 0 fun q (_ : q ∈ e.questions) path =>
    questionTrees_sameStrays solutions path q
  rw [quiz, Element.texts, Element.textsOf, Element.textsOf_append, shownTexts, List.append_assoc]
  exact (categoryTree_sameStrays e).append
    ((instructionTrees_sameStrays e.instructions).append hquestions)

theorem quiz_sameChars (solutions : Bool) (e : Exam) :
    SameChars (quiz solutions e).texts (shownTexts solutions e) :=
  (quiz_sameStrays solutions e).sameChars

/-- The bank is the document of the quiz, unless a text that it shows holds a forbidden character. It
fails at the first one. -/
theorem bank_checks (solutions : Bool) (e : Exam) :
    Checks (shownTexts solutions e) (document (quiz solutions e).events) (render solutions e) := by
  rw [render, ← bind_pure_comp]
  exact ((events_checks solutions e).map rfl).of_first (quiz_sameStrays solutions e).firstForbidden?_eq

theorem bank_writes (solutions : Bool) (e : Exam) :
    Writes (shownTexts solutions e) (document (quiz solutions e).events) (render solutions e) :=
  .of_checks (bank_checks solutions e)

theorem render_eq_ok_iff_document {solutions : Bool} {e : Exam} {out : String} :
    render solutions e = .ok out ↔
      AllChars (fun c => isForbidden c = false) (shownTexts solutions e) ∧
        document (quiz solutions e).events = out :=
  (bank_writes solutions e).eq_ok_iff

end ExamVariants.Moodle
