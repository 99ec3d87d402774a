import ExamVariants.Latex.Document
import ExamVariants.Proofs.Outcome
import ExamVariants.Proofs.Question.Nesting

namespace ExamVariants.Latex

inductive Demand where
  | rendered (s : Segment)
  /-- The segment is the argument of a command in the question at the path. -/
  | codeless (path : QuestionPath) (s : Segment)
  /-- A compound question stands at the path. -/
  | shallow (path : QuestionPath)

namespace Demand

def check (m : Mode) : Demand → Except RenderError Unit
  | rendered s => (m.text s).map fun _ => ()
  | codeless path s => m.rejectCode path s
  | shallow path => if path.length ≤ 3 then .ok () else .error (.nestedTooDeep m.target path)

@[simp] theorem check_rendered_eq_ok_iff {m : Mode} {s : Segment} :
    (rendered s).check m = .ok () ↔ ∃ out, m.text s = .ok out := by
  rw [check]
  cases m.text s <;> simp [Except.map]

@[simp] theorem check_codeless_eq_ok_iff {m : Mode} {path : QuestionPath} {s : Segment} :
    (codeless path s).check m = .ok () ↔ s.hasStyle .code = false := by
  rw [check, Mode.rejectCode]
  cases s.hasStyle .code <;> simp

@[simp] theorem check_shallow_eq_ok_iff {m : Mode} {path : QuestionPath} :
    (shallow path).check m = .ok () ↔ path.length ≤ 3 := by
  rw [check]
  split <;> simp_all

theorem check_shallow_eq_error {m : Mode} {path : QuestionPath} (h : 3 < path.length) :
    (shallow path).check m = .error (.nestedTooDeep m.target path) := by
  rw [check, if_neg (Nat.not_le.mpr h)]

end Demand

/-- The chain succeeds if all demands are met, and otherwise fails as the first one that is not. -/
def Asks {α : Type} (m : Mode) (ds : List Demand) (x : Except RenderError α) : Prop :=
  x.map (fun _ => ()) = forM ds (Demand.check m)

namespace Asks

variable {α β : Type} {m : Mode} {ds ds' : List Demand}

theorem pure (a : α) : Asks m [] (Pure.pure a) := rfl

theorem bind {x : Except RenderError α} {f : α → Except RenderError β} (hx : Asks m ds x)
    (hf : ∀ a, Asks m ds' (f a)) : Asks m (ds ++ ds') (x >>= f) := by
  rw [Asks] at hx ⊢
  rw [List.forM_append, ← hx]
  cases x with
  | error err => rfl
  | ok a => exact hf a

theorem map {x : Except RenderError α} (hx : Asks m ds x) (f : α → β) :
    Asks m ds (x >>= fun a => Pure.pure (f a)) := by
  have h := hx.bind fun a => pure (f a)
  rwa [List.append_nil] at h

theorem rendered (s : Segment) : Asks m [.rendered s] (m.text s) := by
  rw [Asks, List.forM_cons, List.forM_nil, Demand.check]
  cases m.text s <;> rfl

theorem codeless (path : QuestionPath) (s : Segment) :
    Asks m [.codeless path s] (m.rejectCode path s) := by
  rw [Asks, List.forM_cons, List.forM_nil, Demand.check]
  cases m.rejectCode path s <;> rfl

theorem cons_of_met {d : Demand} {x : Except RenderError α} (hd : d.check m = .ok ())
    (h : Asks m ds x) : Asks m (d :: ds) x := by
  rw [Asks, List.forM_cons, hd]
  exact h

theorem cons_of_unmet {d : Demand} {err : RenderError} (hd : d.check m = .error err)
    (ds : List Demand) : Asks m (d :: ds) (.error err : Except RenderError α) := by
  rw [Asks, List.forM_cons, hd]
  rfl

theorem exists_eq_ok_iff {x : Except RenderError α} (h : Asks m ds x) :
    (∃ a, x = .ok a) ↔ ∀ d ∈ ds, d.check m = .ok () := by
  rw [← forM_eq_ok_iff, ← h]
  cases x <;> simp [Except.map]

theorem eq_error {x : Except RenderError α} {before after : List Demand} {d : Demand}
    {err : RenderError} (h : Asks m (before ++ d :: after) x)
    (hbefore : ∀ d ∈ before, d.check m = .ok ()) (hd : d.check m = .error err) :
    x = .error err := by
  rw [Asks, forM_append_cons_of_error hbefore hd] at h
  cases x with
  | error err' => simpa [Except.map] using h
  | ok a => cases h

end Asks

/-- What a question asks at a path, without the questions within it. -/
def demandsOf (m : Mode) (n : QuestionPath × Question) : List Demand :=
  match n.2 with
  | .openEnded statement modelAnswer _ _ =>
    .rendered statement :: if m.solutions then [.rendered modelAnswer] else []
  | .closedEnded statement _ choices =>
    .rendered statement ::
      choices.flatMap fun c => [.codeless n.1 c.statement, .rendered c.statement]
  | .trueFalse statement _ _ => [.codeless n.1 statement, .rendered statement]
  | .compound statement _ _ => [.shallow n.1, .rendered statement]

theorem level?_eq_none_iff {depth : Nat} : level? depth = none ↔ 3 ≤ depth := by
  match depth with
  | 0 | 1 | 2 => simp [level?]
  | depth + 3 => simp [level?]

namespace Mode

variable {m : Mode} {path : QuestionPath}

theorem answerSpace_asks (modelAnswer : Segment) (answerLength : String) :
    Asks m (if m.solutions then [.rendered modelAnswer] else [])
      (m.answerSpace modelAnswer answerLength) := by
  rw [answerSpace]
  cases m.solutions with
  | false => exact .pure _
  | true => exact (Asks.rendered modelAnswer).map _

theorem choice_asks (path : QuestionPath) (c : Choice) :
    Asks m [.codeless path c.statement, .rendered c.statement] (m.choice path c) :=
  (Asks.codeless path c.statement).bind fun _ => (Asks.rendered c.statement).map _

theorem choices_asks (path : QuestionPath) (cs : List Choice) :
    Asks m (cs.flatMap fun c => [.codeless path c.statement, .rendered c.statement])
      (m.choices path cs) := by
  induction cs with
  | nil => exact .pure _
  | cons c cs ih =>
    rw [choices, List.flatMap_cons]
    exact (choice_asks path c).bind fun _ => ih.map _

theorem children_asks {command : String} {index depth : Nat} {qs : List Question}
    (h : ∀ q ∈ qs, ∀ path depth, path.length = depth + 1 →
      Asks m ((q.placed path).flatMap (demandsOf m)) (m.body path depth q))
    (hpath : path.length = depth + 1) :
    Asks m ((Question.placedFrom path index qs).flatMap (demandsOf m))
      (m.children path depth command index qs) := by
  induction qs generalizing index with
  | nil => exact .pure _
  | cons q qs ih =>
    obtain ⟨hq, hqs⟩ := List.forall_mem_cons.mp h
    rw [children, Question.placedFrom, List.flatMap_append]
    exact (hq _ _ (by simp [hpath])).bind fun _ => (ih hqs).map _

theorem body_asks (q : Question) (path : QuestionPath) (depth : Nat)
    (hpath : path.length = depth + 1) :
    Asks m ((q.placed path).flatMap (demandsOf m)) (m.body path depth q) := by
  induction q generalizing path depth with
  | openEnded statement modelAnswer points answerLength =>
    rw [Question.placed, List.flatMap_singleton, body]
    exact (Asks.rendered statement).bind fun _ => (answerSpace_asks modelAnswer answerLength).map _
  | closedEnded statement points choices =>
    rw [Question.placed, List.flatMap_singleton, body]
    exact (Asks.rendered statement).bind fun _ => (choices_asks path choices).map _
  | trueFalse statement answer points =>
    rw [Question.placed, List.flatMap_singleton, body]
    exact (Asks.codeless path statement).bind fun _ => (Asks.rendered statement).map _
  | compound statement points qs ih =>
    rw [Question.placed, List.flatMap_cons, body]
    -- The path has one entry more than there are compound questions around the node.
    cases hlevel : level? depth with
    | none =>
      have hdepth : 3 ≤ depth := level?_eq_none_iff.mp hlevel
      have hdeep : 3 < path.length := by omega
      exact .cons_of_unmet (Demand.check_shallow_eq_error hdeep) _
    | some level =>
      have hdepth : ¬ 3 ≤ depth := by simp [← level?_eq_none_iff, hlevel]
      have hmet : (Demand.shallow path).check m = .ok () :=
        Demand.check_shallow_eq_ok_iff.mpr (by omega)
      refine .cons_of_met hmet ((Asks.rendered statement).bind fun _ => ?_)
      exact (children_asks ih hpath).map _

theorem question_asks (number : Nat) (q : Question) :
    Asks m ((q.placed [number]).flatMap (demandsOf m)) (m.question [number] q) :=
  (body_asks q [number] 0 rfl).map _

end Mode

theorem instructionItems_asks (m : Mode) (ss : List Segment) :
    Asks m (ss.map .rendered) (instructionItems m ss) := by
  induction ss with
  | nil => exact .pure _
  | cons s ss ih =>
    rw [instructionItems]
    exact (Asks.rendered s).bind fun _ => ih.map _

theorem instructions_asks (m : Mode) (e : Exam) :
    Asks m (e.instructions.map .rendered) (instructions m e) := by
  rw [instructions]
  cases e.instructions with
  | nil => exact .pure _
  | cons s ss => exact (instructionItems_asks m (s :: ss)).map _

theorem questions_asks (m : Mode) (index : Nat) (qs : List Question) :
    Asks m ((Question.placedFrom [] index qs).flatMap (demandsOf m)) (questions m index qs) := by
  induction qs generalizing index with
  | nil => exact .pure _
  | cons q qs ih =>
    rw [questions, Question.placedFrom, List.flatMap_append]
    exact (Mode.question_asks (index + 1) q).bind fun _ => (ih (index + 1)).map _

/-- All that rendering asks of an examination, in the order of the document. -/
def demands (m : Mode) (e : Exam) : List Demand :=
  e.instructions.map .rendered ++ (Question.placedFrom [] 0 e.questions).flatMap (demandsOf m)

theorem render_asks (layout : Layout) (solutions : Bool) (e : Exam) :
    Asks ⟨layout.target, solutions⟩ (demands ⟨layout.target, solutions⟩ e)
      (render layout solutions e) :=
  (instructions_asks _ e).bind fun _ => (questions_asks _ 0 e.questions).map _

def argumentsOf : Question → List Segment
  | .closedEnded _ _ choices => choices.map Choice.statement
  | .trueFalse statement _ _ => [statement]
  | .openEnded .. | .compound .. => []

/-- The texts of a question that are printed, its model answer with solutions only. -/
def printedOf (solutions : Bool) : Question → List Segment
  | .openEnded statement modelAnswer _ _ =>
    statement :: if solutions then [modelAnswer] else []
  | .closedEnded statement _ choices => statement :: choices.map Choice.statement
  | .trueFalse statement _ _ => [statement]
  | .compound statement _ _ => [statement]

def arguments (e : Exam) : List Segment :=
  (Question.nodesOf e.questions).flatMap argumentsOf

def printed (solutions : Bool) (e : Exam) : List Segment :=
  e.instructions ++ (Question.nodesOf e.questions).flatMap (printedOf solutions)

theorem forall_demandsOf_iff (m : Mode) (n : QuestionPath × Question) :
    (∀ d ∈ demandsOf m n, d.check m = .ok ()) ↔
      Question.isDeeper 3 n = false ∧ (∀ s ∈ argumentsOf n.2, s.hasStyle .code = false) ∧
        ∀ s ∈ printedOf m.solutions n.2, ∃ out, m.text s = .ok out := by
  obtain ⟨path, q⟩ := n
  cases q with
  | openEnded statement modelAnswer points answerLength =>
    cases hsolutions : m.solutions <;>
      simp [demandsOf, hsolutions, argumentsOf, printedOf, Question.isDeeper, Question.kind]
  | closedEnded statement points choices =>
    simp only [demandsOf, argumentsOf, printedOf, List.forall_mem_cons, List.forall_mem_flatMap,
      List.forall_mem_map, List.not_mem_nil, IsEmpty.forall_iff, implies_true, and_true,
      Demand.check_rendered_eq_ok_iff, Demand.check_codeless_eq_ok_iff]
    constructor
    · rintro ⟨hstatement, hchoices⟩
      exact ⟨rfl, fun c hc => (hchoices c hc).1, hstatement, fun c hc => (hchoices c hc).2⟩
    · rintro ⟨-, hcodeless, hstatement, hrendered⟩
      exact ⟨hstatement, fun c hc => ⟨hcodeless c hc, hrendered c hc⟩⟩
  | trueFalse statement answer points =>
    simp [demandsOf, argumentsOf, printedOf, Question.isDeeper, Question.kind]
  | compound statement points children =>
    simp [demandsOf, argumentsOf, printedOf, Question.isDeeper, Question.kind]

theorem forall_demands_iff (m : Mode) (e : Exam) :
    (∀ d ∈ demands m e, d.check m = .ok ()) ↔
      (∀ q ∈ e.questions, q.nesting ≤ 3) ∧ (∀ s ∈ arguments e, s.hasStyle .code = false) ∧
        ∀ s ∈ printed m.solutions e, ∃ out, m.text s = .ok out := by
  simp only [demands, arguments, printed, List.forall_mem_append, List.forall_mem_flatMap,
    List.forall_mem_map, Demand.check_rendered_eq_ok_iff, forall_demandsOf_iff, forall_and,
    Question.forall_isDeeper_eq_false_iff]
  rw [Question.forall_placedFrom_iff (P := fun q => ∀ s ∈ argumentsOf q, s.hasStyle .code = false),
    Question.forall_placedFrom_iff
      (P := fun q => ∀ s ∈ printedOf m.solutions q, ∃ out, m.text s = .ok out)]
  exact and_left_comm.trans (and_congr_right fun _ => and_left_comm)

theorem exists_render_eq_ok_iff {layout : Layout} {solutions : Bool} {e : Exam} :
    (∃ out, render layout solutions e = .ok out) ↔
      (∀ q ∈ e.questions, q.nesting ≤ 3) ∧ (∀ s ∈ arguments e, s.hasStyle .code = false) ∧
        ∀ s ∈ printed solutions e, ∃ out, (styles layout.target).render s = .ok out :=
  (render_asks layout solutions e).exists_eq_ok_iff.trans
    (forall_demands_iff ⟨layout.target, solutions⟩ e)

/-- Where nothing fails before the first compound question that is too deep, it gives the error,
whatever stands within it or behind it. -/
theorem render_of_first_deeper {layout : Layout} {solutions : Bool} {e : Exam}
    {before after : List (QuestionPath × Question)} {path : QuestionPath} {deep : Question}
    (hplaced : Question.placedFrom [] 0 e.questions = before ++ (path, deep) :: after)
    (hdeep : Question.isDeeper 3 (path, deep) = true)
    (hinstructions : ∀ s ∈ e.instructions, ∃ out, (styles layout.target).render s = .ok out)
    (hbefore : ∀ n ∈ before, ∀ d ∈ demandsOf ⟨layout.target, solutions⟩ n,
      d.check ⟨layout.target, solutions⟩ = .ok ()) :
    render layout solutions e = .error (.nestedTooDeep layout.target path) := by
  simp only [Question.isDeeper, Bool.and_eq_true, decide_eq_true_eq] at hdeep
  cases deep with
  | compound statement points children =>
    have hdemands : demands ⟨layout.target, solutions⟩ e =
        (e.instructions.map .rendered ++ before.flatMap (demandsOf ⟨layout.target, solutions⟩)) ++
          .shallow path :: .rendered statement ::
            after.flatMap (demandsOf ⟨layout.target, solutions⟩) := by
      rw [demands, hplaced, List.flatMap_append, List.flatMap_cons, List.append_assoc]
      rfl
    have hasks := render_asks layout solutions e
    rw [hdemands] at hasks
    refine hasks.eq_error (List.forall_mem_append.mpr ⟨?_, ?_⟩)
      (Demand.check_shallow_eq_error hdeep.2)
    · refine List.forall_mem_map.mpr fun s hs => ?_
      exact Demand.check_rendered_eq_ok_iff.mpr (hinstructions s hs)
    · exact List.forall_mem_flatMap.mpr hbefore
  | _ => cases hdeep.1

theorem label_four (n i j k : Nat) : QuestionPath.label [n, i, j, k] = s!"Q{n}.{i}.{j}.{k}" := by
  simp only [QuestionPath.label, List.map_cons, List.map_nil, String.intercalate_cons_cons,
    String.intercalate_singleton, String.append_assoc]
  rfl

/-- A document is rendered exactly if at most three compound questions nest in one another, no
argument of a command holds a block of code, and each text that is printed is rendered. Where only
the nesting is at fault, the error names the first compound question of the fourth level. -/
theorem rendering_fails_where_it_must (layout : Layout) (solutions : Bool) (e : Exam) :
    let shallow := ∀ q ∈ e.questions, q.nesting ≤ 3
    let codeless := ∀ s ∈ arguments e, s.hasStyle .code = false
    let rendered := ∀ s ∈ printed solutions e, ∃ out, (styles layout.target).render s = .ok out
    ((∃ out, render layout solutions e = .ok out) ↔ shallow ∧ codeless ∧ rendered) ∧
      (¬ shallow → codeless → rendered → ∃ n i j k deep,
        (Question.placedFrom [] 0 e.questions).find? (Question.isDeeper 3) =
          some ([n, i, j, k], deep) ∧
        QuestionPath.label [n, i, j, k] = s!"Q{n}.{i}.{j}.{k}" ∧
        render layout solutions e = .error (.nestedTooDeep layout.target [n, i, j, k])) := by
  intro shallow codeless rendered
  refine ⟨exists_render_eq_ok_iff, ?_⟩
  intro hdeep hcodeless hrendered
  obtain ⟨path, deep, hlength, hfind⟩ := Question.exists_first_deeper hdeep
  obtain ⟨n, i, j, k, rfl⟩ : ∃ n i j k, path = [n, i, j, k] := by
    match path, hlength with
    | [n, i, j, k], _ => exact ⟨n, i, j, k, rfl⟩
  obtain ⟨hself, before, after, hplaced, hbefore⟩ := List.find?_eq_some_iff_append.mp hfind
  refine ⟨n, i, j, k, deep, hfind, label_four n i j k, ?_⟩
  obtain ⟨hinstructions, hprinted⟩ := List.forall_mem_append.mp hrendered
  have hnodes : ∀ x ∈ Question.placedFrom [] 0 e.questions, x.2 ∈ Question.nodesOf e.questions :=
    Question.forall_placedFrom_iff.mpr fun q hq => hq
  refine render_of_first_deeper hplaced hself hinstructions fun x hx => ?_
  have hnode := hnodes x (hplaced ▸ List.mem_append_left _ hx)
  refine (forall_demandsOf_iff _ x).mpr ⟨by simpa using hbefore x hx, ?_, ?_⟩
  · exact List.forall_mem_flatMap.mp hcodeless x.2 hnode
  · exact List.forall_mem_flatMap.mp hprinted x.2 hnode

def nestedSheet (deepest : Question) : Exam where
  parameters := Parameters.empty.bind .instructions (.segments [.plain "Answer all."])
  questions :=
    [.trueFalse (.plain "true or false") true 1,
      .compound (.plain "two parts") 3
        [.openEnded (.plain "why") (.plain "because") 1 "2cm",
          .compound (.plain "then") 2 [.compound (.plain "so") 2 [deepest]]]]

/-- With a question with choices within them the sheet is rendered, and with a fourth compound
question it is not. -/
theorem rendering_fails_where_it_must_nestedSheet :
    (∃ out, render .quiz true (nestedSheet (.closedEnded (.plain "pick") 2
      [⟨true, .plain "this"⟩, ⟨false, .plain "that"⟩])) = .ok out) ∧
    render .midterm false (nestedSheet (.compound (.plain "finally") 2 [])) =
      .error (.nestedTooDeep .latexMidterm [2, 2, 1, 1]) := by
  have hcodeless (ts : List String) : ∀ s ∈ ts.map Segment.plain, s.hasStyle .code = false :=
    List.forall_mem_map.mpr fun t _ => rfl
  have hrendered (target : Notation) (ts : List String) :
      ∀ s ∈ ts.map Segment.plain, ∃ out, (styles target).render s = .ok out :=
    List.forall_mem_map.mpr fun t _ => ⟨escapeText t, rfl⟩
  constructor
  · refine (rendering_fails_where_it_must .quiz true _).1.mpr ⟨?_, ?_, ?_⟩
    · simp [nestedSheet, Question.nesting, Question.nestingOf]
    · exact hcodeless ["true or false", "this", "that"]
    · exact hrendered .latexQuiz ["Answer all.", "true or false", "two parts", "why", "because",
        "then", "so", "pick", "this", "that"]
  · obtain ⟨n, i, j, k, deep, hfind, -, herror⟩ :=
      (rendering_fails_where_it_must .midterm false
        (nestedSheet (.compound (.plain "finally") 2 []))).2
        (by simp [nestedSheet, Question.nesting, Question.nestingOf])
        (hcodeless ["true or false"])
        (hrendered .latexMidterm ["Answer all.", "true or false", "two parts", "why", "then", "so",
          "finally"])
    have hpath : some [2, 2, 1, 1] = some [n, i, j, k] := congrArg (Option.map Prod.fst) hfind
    rw [herror, Option.some.inj hpath]
    rfl

end ExamVariants.Latex
