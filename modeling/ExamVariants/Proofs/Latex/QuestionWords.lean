import ExamVariants.Proofs.Latex.ControlWords
import ExamVariants.Proofs.Latex.Demands

namespace ExamVariants.Latex

def environmentWords (name : String) (inner : List ControlWord) : List ControlWord :=
  ⟨"begin", some name⟩ :: (inner ++ [⟨"end", some name⟩])

mutual

/-- The control words of a question within `depth` compound questions, behind the one that gives its
points. -/
def bodyWords (solutions : Bool) (depth : Nat) : Question → List ControlWord
  | .openEnded .. => if solutions then environmentWords "solution" [] else []
  | .closedEnded .. => environmentWords "items" []
  | .trueFalse .. => []
  | .compound _ _ children =>
    match level? depth with
    | none => []
    | some level =>
      let parts := environmentWords level.environment
        (childWords solutions depth level.command children)
      if depth = 0 then ⟨"noaddpoints", none⟩ :: (parts ++ [⟨"addpoints", none⟩]) else parts

def childWords (solutions : Bool) (depth : Nat) (command : String) :
    List Question → List ControlWord
  | [] => []
  | q :: qs =>
    pointsWord command q.points ::
      (bodyWords solutions (depth + 1) q ++ childWords solutions depth command qs)

end

def questionWords (solutions : Bool) : List Question → List ControlWord
  | [] => []
  | q :: qs =>
    pointsWord "question" q.points :: (bodyWords solutions 0 q ++ questionWords solutions qs)

theorem bodyWords_compound {depth : Nat} {level : Level} (h : level? depth = some level)
    (solutions : Bool) (statement : Segment) (points : Nat) (children : List Question) :
    bodyWords solutions depth (.compound statement points children) =
      let parts := environmentWords level.environment
        (childWords solutions depth level.command children)
      if depth = 0 then ⟨"noaddpoints", none⟩ :: (parts ++ [⟨"addpoints", none⟩]) else parts := by
  simp only [bodyWords, h]

def questionEnvironments : List String := ["solution", "items", "parts", "subparts", "subsubparts"]

def switchWords : List ControlWord := [⟨"noaddpoints", none⟩, ⟨"addpoints", none⟩]

/-- The word belongs to an environment within a question, or gives points. -/
def IsInner (w : ControlWord) : Prop :=
  (∃ name ∈ questionEnvironments, w ∈ environmentWords name []) ∨
    ∃ command ∈ pointWords, ∃ points, w = pointsWord command points

theorem IsInner.name_mem {w : ControlWord} (h : IsInner w) :
    w.name ∈ ["begin", "end"] ++ pointWords := by
  rcases h with ⟨name, -, hw⟩ | ⟨command, hcommand, points, rfl⟩
  · simp only [environmentWords, List.nil_append, List.mem_cons, List.not_mem_nil, or_false] at hw
    rcases hw with rfl | rfl <;> simp
  · exact List.mem_append_right _ hcommand

theorem isInner_environmentWords {name : String} (hname : name ∈ questionEnvironments)
    {ws : List ControlWord} (hws : ∀ w ∈ ws, IsInner w) :
    ∀ w ∈ environmentWords name ws, IsInner w := by
  have houter : ∀ w ∈ environmentWords name [], IsInner w := fun w hw => .inl ⟨name, hname, hw⟩
  obtain ⟨hbegin, hend⟩ := List.forall_mem_cons.mp houter
  exact List.forall_mem_cons.mpr ⟨hbegin, List.forall_mem_append.mpr ⟨hws, hend⟩⟩

theorem brace_notMem_of_mem_questionEnvironments {name : String}
    (h : name ∈ questionEnvironments) : '\x7d' ∉ name.toList := by
  revert name
  decide

theorem level?_fits {depth : Nat} {level : Level} (h : level? depth = some level) :
    level.environment ∈ questionEnvironments ∧
      pointWords[depth + 1]? = some level.command := by
  match depth, h with
  | 0, h | 1, h | 2, h =>
    obtain rfl := Option.some.inj h
    decide

theorem mem_pointWords_of_level? {depth : Nat} {level : Level} (h : level? depth = some level) :
    level.command ∈ pointWords :=
  List.mem_of_getElem? (level?_fits h).2

theorem isInner_childWords {solutions : Bool} {depth : Nat} {command : String}
    (hcommand : command ∈ pointWords) {qs : List Question}
    (hqs : ∀ q ∈ qs, ∀ w ∈ bodyWords solutions (depth + 1) q, IsInner w) :
    ∀ w ∈ childWords solutions depth command qs, IsInner w := by
  induction qs with
  | nil => exact List.forall_mem_nil _
  | cons q qs ih =>
    obtain ⟨hq, hqs⟩ := List.forall_mem_cons.mp hqs
    rw [childWords]
    refine List.forall_mem_cons.mpr ⟨.inr ⟨command, hcommand, q.points, rfl⟩, ?_⟩
    exact List.forall_mem_append.mpr ⟨hq, ih hqs⟩

/-- Counting is switched at the top level only. -/
theorem isInner_bodyWords {solutions : Bool} {depth : Nat} {q : Question} :
    ∀ w ∈ bodyWords solutions depth q, IsInner w ∨ depth = 0 ∧ w ∈ switchWords := by
  have hnil : ∀ w ∈ ([] : List ControlWord), IsInner w := List.forall_mem_nil _
  induction q generalizing depth with
  | openEnded statement modelAnswer points answerLength =>
    rw [bodyWords]
    split
    · exact fun w hw => .inl (isInner_environmentWords (by decide) hnil w hw)
    · exact List.forall_mem_nil _
  | closedEnded statement points choices =>
    exact fun w hw => .inl (isInner_environmentWords (by decide) hnil w hw)
  | trueFalse statement answer points => exact List.forall_mem_nil _
  | compound statement points children ih =>
    cases hlevel : level? depth with
    | none =>
      rw [bodyWords, hlevel]
      exact List.forall_mem_nil _
    | some level =>
      have hchildren : ∀ q ∈ children, ∀ w ∈ bodyWords solutions (depth + 1) q, IsInner w :=
        fun q hq w hw => (ih q hq w hw).resolve_right fun h => Nat.succ_ne_zero depth h.1
      have hparts := isInner_environmentWords (level?_fits hlevel).1
        (isInner_childWords (mem_pointWords_of_level? hlevel) hchildren)
      rw [bodyWords_compound hlevel]
      by_cases hdepth : depth = 0
      · simp only [if_pos hdepth]
        refine List.forall_mem_cons.mpr ⟨.inr ⟨hdepth, by decide⟩, ?_⟩
        refine List.forall_mem_append.mpr ⟨fun w hw => .inl (hparts w hw), ?_⟩
        exact List.forall_mem_singleton.mpr (.inr ⟨hdepth, by decide⟩)
      · simp only [if_neg hdepth]
        exact fun w hw => .inl (hparts w hw)

theorem isInner_questionWords {solutions : Bool} {qs : List Question} :
    ∀ w ∈ questionWords solutions qs, IsInner w ∨ w ∈ switchWords := by
  induction qs with
  | nil => exact List.forall_mem_nil _
  | cons q qs ih =>
    rw [questionWords]
    refine List.forall_mem_cons.mpr ⟨.inl (.inr ⟨"question", by decide, q.points, rfl⟩), ?_⟩
    refine List.forall_mem_append.mpr ⟨fun w hw => ?_, ih⟩
    exact (isInner_bodyWords w hw).imp_right And.right

theorem environment_gives {name : String} (h : '\x7d' ∉ name.toList) {inner : String}
    {ws : List ControlWord} (hinner : Gives inner ws) :
    Gives (beginEnvironment name ++ inner ++ endEnvironment name) (environmentWords name ws) :=
  ((beginEnvironment_gives h).append hinner).append (endEnvironment_gives h)

section Bodies

variable {m : Mode} {path : QuestionPath} {out : String}

theorem answerSpace_gives {modelAnswer : Segment} {answerLength : String}
    (hprose : m.solutions = true → IsProse modelAnswer)
    (h : m.answerSpace modelAnswer answerLength = .ok out) :
    Gives out (if m.solutions then environmentWords "solution" [] else []) := by
  rw [Mode.answerSpace] at h
  cases hsolutions : m.solutions with
  | false =>
    rw [hsolutions] at h
    obtain rfl := Except.ok.inj h
    exact (braced_gives (by decide : Gives ("\\makeemptybox" ++ "\x7b") [])
      (escapeText_gives answerLength)).append newLine_gives
  | true =>
    rw [hsolutions] at h
    obtain ⟨answer, hanswer, h⟩ := bind_eq_ok_iff.mp h
    obtain rfl := pure_eq_ok_iff.mp h
    have hbegin : Gives (beginEnvironment "solution") _ := beginEnvironment_gives (by decide)
    have hanswer := (hbegin.append (text_gives (hprose hsolutions) hanswer)).append newLine_gives
    exact hanswer.append (endEnvironment_gives (by decide))

theorem choice_gives {c : Choice} (hprose : IsProse c.statement) (h : m.choice path c = .ok out) :
    Gives out [] := by
  rw [Mode.choice] at h
  obtain ⟨-, -, h⟩ := bind_eq_ok_iff.mp h
  obtain ⟨statement, hstatement, h⟩ := bind_eq_ok_iff.mp h
  obtain rfl := pure_eq_ok_iff.mp h
  have hcommand : Gives ("    " ++ m.choiceCommand c ++ " ") [] := by
    rw [Mode.choiceCommand]
    split <;> decide
  exact (hcommand.append (text_gives hprose hstatement)).append newLine_gives

theorem choices_gives {cs : List Choice} (hprose : ∀ c ∈ cs, IsProse c.statement)
    (h : m.choices path cs = .ok out) : Gives out [] := by
  induction cs generalizing out with
  | nil =>
    obtain rfl := Except.ok.inj h
    exact gives_nil
  | cons c cs ih =>
    obtain ⟨hc, hcs⟩ := List.forall_mem_cons.mp hprose
    rw [Mode.choices] at h
    obtain ⟨first, hfirst, h⟩ := bind_eq_ok_iff.mp h
    obtain ⟨rest, hrest, h⟩ := bind_eq_ok_iff.mp h
    obtain rfl := pure_eq_ok_iff.mp h
    exact (choice_gives hc hfirst).append (ih hcs hrest)

theorem children_gives {depth index : Nat} {command : String} (hcommand : command ∈ pointWords)
    {qs : List Question}
    (hqs : ∀ q ∈ qs, ∀ path depth out, m.body path depth q = .ok out →
      Gives out (bodyWords m.solutions depth q))
    (h : m.children path depth command index qs = .ok out) :
    Gives out (childWords m.solutions depth command qs) := by
  induction qs generalizing index out with
  | nil =>
    obtain rfl := Except.ok.inj h
    exact gives_nil
  | cons q qs ih =>
    obtain ⟨hq, hqs⟩ := List.forall_mem_cons.mp hqs
    rw [Mode.children] at h
    obtain ⟨first, hfirst, h⟩ := bind_eq_ok_iff.mp h
    obtain ⟨rest, hrest, h⟩ := bind_eq_ok_iff.mp h
    obtain rfl := pure_eq_ok_iff.mp h
    have hgap : Gives ((if index = 0 then "" else "\n") ++ "    ") [] := by
      split <;> decide
    have hfront := (hgap.append (pointsLine_gives hcommand q.points)).append (hq _ _ _ hfirst)
    have hall := hfront.append (ih hqs hrest)
    exact hall

/-- A question that is rendered gives its control words. -/
theorem body_gives {q : Question} {depth : Nat}
    (hprose : ∀ n ∈ q.nodes, ∀ s ∈ printedOf m.solutions n, IsProse s)
    (h : m.body path depth q = .ok out) : Gives out (bodyWords m.solutions depth q) := by
  have hself := hprose q q.mem_nodes_self
  induction q generalizing path depth out with
  | openEnded statement modelAnswer points answerLength =>
    obtain ⟨hstatement, hanswer⟩ := List.forall_mem_cons.mp hself
    rw [Mode.body] at h
    obtain ⟨header, hheader, h⟩ := bind_eq_ok_iff.mp h
    obtain ⟨space, hspace, h⟩ := bind_eq_ok_iff.mp h
    obtain rfl := pure_eq_ok_iff.mp h
    have hmodel : m.solutions = true → IsProse modelAnswer := fun hsolutions =>
      hanswer modelAnswer (by simp [hsolutions])
    exact ((text_gives hstatement hheader).append newLine_gives).append
      (answerSpace_gives hmodel hspace)
  | closedEnded statement points choices =>
    obtain ⟨hstatement, hchoices⟩ := List.forall_mem_cons.mp hself
    rw [Mode.body] at h
    obtain ⟨header, hheader, h⟩ := bind_eq_ok_iff.mp h
    obtain ⟨items, hitems, h⟩ := bind_eq_ok_iff.mp h
    obtain rfl := pure_eq_ok_iff.mp h
    have hbegin : Gives (beginEnvironment "items") _ := beginEnvironment_gives (by decide)
    have hfront := ((text_gives hstatement hheader).append newLine_gives).append hbegin
    exact (hfront.append (choices_gives (List.forall_mem_map.mp hchoices) hitems)).append
      (endEnvironment_gives (by decide))
  | trueFalse statement answer points =>
    have hstatement := hself statement List.mem_cons_self
    rw [Mode.body] at h
    obtain ⟨-, -, h⟩ := bind_eq_ok_iff.mp h
    obtain ⟨header, hheader, h⟩ := bind_eq_ok_iff.mp h
    obtain rfl := pure_eq_ok_iff.mp h
    have hcommand : Gives ("\\TFQuestion" ++ braced (m.answerLetter answer) ++ "\x7b") [] := by
      rw [Mode.answerLetter]
      cases m.solutions <;> cases answer <;> decide
    exact (braced_gives hcommand (text_gives hstatement hheader)).append newLine_gives
  | compound statement points children ih =>
    -- The children are rendered one level deeper, so the hypothesis is needed for every depth.
    have hchildren : ∀ q ∈ children, ∀ path depth out, m.body path depth q = .ok out →
        Gives out (bodyWords m.solutions depth q) := by
      intro q hq path depth out hout
      have hq' := fun n hn => hprose n (Question.mem_nodes_of_child hq hn)
      exact ih q hq hq' hout (hq' q q.mem_nodes_self)
    rw [Mode.body] at h
    cases hlevel : level? depth with
    | none =>
      rw [hlevel] at h
      cases h
    | some level =>
      rw [hlevel] at h
      obtain ⟨header, hheader, h⟩ := bind_eq_ok_iff.mp h
      obtain ⟨parts, hparts, h⟩ := bind_eq_ok_iff.mp h
      obtain rfl := pure_eq_ok_iff.mp h
      have hstatement := (text_gives (hself statement List.mem_cons_self) hheader).append
        newLine_gives
      have hname := brace_notMem_of_mem_questionEnvironments (level?_fits hlevel).1
      have henvironment := environment_gives hname
        (children_gives (mem_pointWords_of_level? hlevel) hchildren hparts)
      rw [bodyWords_compound hlevel]
      -- Counting is switched around the parts at the top level only.
      by_cases hdepth : depth = 0
      · have hoff : Gives "\\noaddpoints % parts are counted in the question total\n"
            [⟨"noaddpoints", none⟩] := by decide
        have hon : Gives "\\addpoints\n" [⟨"addpoints", none⟩] := by decide
        simp only [if_pos hdepth]
        exact hstatement.append ((hoff.append henvironment).append hon)
      · simp only [if_neg hdepth]
        exact hstatement.append henvironment

end Bodies

theorem questions_gives {m : Mode} {qs : List Question}
    (hprose : ∀ n ∈ Question.nodesOf qs, ∀ s ∈ printedOf m.solutions n, IsProse s) {index : Nat}
    {out : String} (h : questions m index qs = .ok out) :
    Gives out (questionWords m.solutions qs) := by
  induction qs generalizing index out with
  | nil =>
    obtain rfl := Except.ok.inj h
    exact gives_nil
  | cons q qs ih =>
    obtain ⟨hq, hqs⟩ := List.forall_mem_append.mp hprose
    rw [questions] at h
    obtain ⟨first, hfirst, h⟩ := bind_eq_ok_iff.mp h
    obtain ⟨rest, hrest, h⟩ := bind_eq_ok_iff.mp h
    obtain rfl := pure_eq_ok_iff.mp h
    obtain ⟨body, hbody, hfirst⟩ := bind_eq_ok_iff.mp hfirst
    obtain rfl := pure_eq_ok_iff.mp hfirst
    have hgap : Gives (if index = 0 then "" else "\n") [] := by
      split <;> decide
    have hquestion := (pointsLine_gives List.mem_cons_self q.points).append (body_gives hq hbody)
    exact (hgap.append hquestion).append (ih hqs hrest)

end ExamVariants.Latex
