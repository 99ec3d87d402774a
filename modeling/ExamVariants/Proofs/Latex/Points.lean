import ExamVariants.Proofs.Latex.DocumentWords
import ExamVariants.Proofs.Question.Points

namespace ExamVariants.Latex

/-- The mark of an environment, with the argument of its word. -/
def mark? (w : ControlWord) : Option (Item (Option String)) :=
  if w.name = "begin" then some (.opened w.argument)
  else if w.name = "end" then some (.closed w.argument)
  else none

/-- Every environment that begins among the words ends behind what it holds. -/
def Matched (ws : List ControlWord) : Prop := Item.Nested (ws.filterMap mark?)

def pointsIn (ws : List ControlWord) : List ControlWord := ws.filter (·.name ∈ pointWords)

def pointsValue (w : ControlWord) : Nat :=
  match w.argument with
  | some digits => Nat.ofDigitChars 10 digits.toList 0
  | none => 0

/-- Whether points are counted, and the sum so far. -/
def count (state : Bool × Nat) (w : ControlWord) : Bool × Nat :=
  if w.name = "noaddpoints" then (false, state.2)
  else if w.name = "addpoints" then (true, state.2)
  else if state.1 ∧ w.name ∈ pointWords then (state.1, state.2 + pointsValue w)
  else state

/-- The sum of the points that are met while counting is on, as it is at first. -/
def countedPoints (ws : List ControlWord) : Nat := (ws.foldl count (true, 0)).2

theorem Matched.append {ws vs : List ControlWord} (h : Matched ws) (h' : Matched vs) :
    Matched (ws ++ vs) := by
  rw [Matched, List.filterMap_append]
  exact Item.Nested.append h h'

theorem matched_environmentWords (name : String) {ws : List ControlWord} (h : Matched ws) :
    Matched (environmentWords name ws) := by
  have hmarks : (environmentWords name ws).filterMap mark? =
      .opened (some name) :: (ws.filterMap mark? ++ [.closed (some name)]) := by
    simp [environmentWords, mark?]
  rw [Matched, hmarks]
  exact Item.Nested.within (some name) h .nil

theorem matched_cons {w : ControlWord} (hw : mark? w = none) {ws : List ControlWord}
    (h : Matched ws) : Matched (w :: ws) := by
  rwa [Matched, List.filterMap_cons_none hw]

theorem pointsIn_append (ws vs : List ControlWord) :
    pointsIn (ws ++ vs) = pointsIn ws ++ pointsIn vs := List.filter_append ..

theorem pointsIn_environmentWords (name : String) (ws : List ControlWord) :
    pointsIn (environmentWords name ws) = pointsIn ws := by
  simp [environmentWords, pointsIn, pointWords]

theorem pointsIn_pointsWord {command : String} (h : command ∈ pointWords) (points : Nat)
    (ws : List ControlWord) :
    pointsIn (pointsWord command points :: ws) = pointsWord command points :: pointsIn ws :=
  List.filter_cons_of_pos (decide_eq_true h)

theorem pointsIn_uncounted (ws : List ControlWord) :
    pointsIn (⟨"noaddpoints", none⟩ :: (ws ++ [⟨"addpoints", none⟩])) = pointsIn ws := by
  simp [pointsIn, pointWords]

theorem mark?_pointsWord {command : String} (h : command ∈ pointWords) (points : Nat) :
    mark? (pointsWord command points) = none := by
  have hbegin : command ≠ "begin" := fun heq => absurd (heq ▸ h) (by decide)
  have hend : command ≠ "end" := fun heq => absurd (heq ▸ h) (by decide)
  rw [mark?, pointsWord, if_neg hbegin, if_neg hend]

theorem pointsValue_pointsWord (command : String) (points : Nat) :
    pointsValue (pointsWord command points) = points := by
  rw [pointsValue, pointsWord]
  simp only [Decimal.toList_toString, Nat.ofDigitChars_ten_toDigits]

/-- The word that gives the points of a question at a path. -/
def pointsWordAt (n : QuestionPath × Question) : Option ControlWord :=
  pointWords[n.1.length - 1]?.map fun command => pointsWord command n.2.points

section Words

variable {solutions : Bool} {depth : Nat} {command : String} {qs : List Question}

theorem matched_childWords (hcommand : command ∈ pointWords)
    (hqs : ∀ q ∈ qs, Matched (bodyWords solutions (depth + 1) q)) :
    Matched (childWords solutions depth command qs) := by
  induction qs with
  | nil => exact .nil
  | cons q qs ih =>
    obtain ⟨hq, hqs⟩ := List.forall_mem_cons.mp hqs
    rw [childWords]
    exact matched_cons (mark?_pointsWord hcommand q.points) (hq.append (ih hqs))

theorem matched_bodyWords (q : Question) : Matched (bodyWords solutions depth q) := by
  have hnil : Matched [] := .nil
  induction q generalizing depth with
  | openEnded statement modelAnswer points answerLength =>
    rw [bodyWords]
    split
    · exact matched_environmentWords "solution" hnil
    · exact hnil
  | closedEnded statement points choices => exact matched_environmentWords "items" hnil
  | trueFalse statement answer points => exact hnil
  | compound statement points children ih =>
    cases hlevel : level? depth with
    | none =>
      rw [bodyWords, hlevel]
      exact hnil
    | some level =>
      have hchildren : Matched (childWords solutions depth level.command children) :=
        matched_childWords (mem_pointWords_of_level? hlevel) fun q hq => ih q hq
      have hparts := matched_environmentWords level.environment hchildren
      rw [bodyWords_compound hlevel]
      by_cases hdepth : depth = 0
      · simp only [if_pos hdepth]
        exact matched_cons rfl (hparts.append (matched_cons rfl hnil))
      · simp only [if_neg hdepth]
        exact hparts

theorem matched_questionWords (qs : List Question) : Matched (questionWords solutions qs) := by
  induction qs with
  | nil => exact .nil
  | cons q qs ih =>
    rw [questionWords]
    exact matched_cons (mark?_pointsWord (by decide) q.points) ((matched_bodyWords q).append ih)

theorem pointsWordAt_eq (hcommand : pointWords[depth]? = some command) {path : QuestionPath}
    (hpath : path.length = depth + 1) (q : Question) :
    pointsWordAt (path, q) = some (pointsWord command q.points) := by
  simp [pointsWordAt, hpath, hcommand]

theorem pointsIn_childWords (hcommand : pointWords[depth + 1]? = some command) {index : Nat}
    {path : QuestionPath} (hpath : path.length = depth + 1)
    (hqs : ∀ q ∈ qs, ∀ path : QuestionPath, path.length = depth + 2 →
      (pointsIn (bodyWords solutions (depth + 1) q)).map some =
        (Question.placedFrom path 0 q.children).map pointsWordAt) :
    (pointsIn (childWords solutions depth command qs)).map some =
      (Question.placedFrom path index qs).map pointsWordAt := by
  induction qs generalizing index with
  | nil => rfl
  | cons q qs ih =>
    obtain ⟨hq, hqs⟩ := List.forall_mem_cons.mp hqs
    have hlength : (path ++ [index + 1]).length = depth + 2 := by simp [hpath]
    rw [childWords, pointsIn_pointsWord (List.mem_of_getElem? hcommand), pointsIn_append,
      Question.placedFrom, Question.placed_eq_cons]
    simp only [List.cons_append, List.map_cons, List.map_append]
    rw [hq _ hlength, ih hqs, pointsWordAt_eq hcommand hlength]

theorem pointsIn_bodyWords {q : Question} (hnesting : q.nesting + depth ≤ 3) {path : QuestionPath}
    (hpath : path.length = depth + 1) :
    (pointsIn (bodyWords solutions depth q)).map some =
      (Question.placedFrom path 0 q.children).map pointsWordAt := by
  induction q generalizing depth path with
  | openEnded statement modelAnswer points answerLength =>
    rw [bodyWords]
    split <;> rfl
  | closedEnded statement points choices => rfl
  | trueFalse statement answer points => rfl
  | compound statement points children ih =>
    rw [Question.nesting] at hnesting
    have hdepth : ¬ 3 ≤ depth := by omega
    obtain ⟨level, hlevel⟩ := Option.ne_none_iff_exists'.mp (mt level?_eq_none_iff.mp hdepth)
    have hchildren : (pointsIn (childWords solutions depth level.command children)).map some =
        (Question.placedFrom path 0 children).map pointsWordAt := by
      refine pointsIn_childWords (level?_fits hlevel).2 hpath fun q hq path hpath => ?_
      have hle := Question.nestingOf_le_iff.mp (Nat.le_refl _) q hq
      exact ih q hq (by omega) hpath
    rw [bodyWords_compound hlevel]
    by_cases htop : depth = 0
    · simp only [if_pos htop]
      rw [pointsIn_uncounted, pointsIn_environmentWords]
      exact hchildren
    · simp only [if_neg htop]
      rw [pointsIn_environmentWords]
      exact hchildren

theorem pointsIn_questionWords {index : Nat} (hnesting : ∀ q ∈ qs, q.nesting ≤ 3) :
    (pointsIn (questionWords solutions qs)).map some =
      (Question.placedFrom [] index qs).map pointsWordAt := by
  induction qs generalizing index with
  | nil => rfl
  | cons q qs ih =>
    obtain ⟨hq, hqs⟩ := List.forall_mem_cons.mp hnesting
    have hcommand : pointWords[0]? = some "question" := rfl
    have hbody : (pointsIn (bodyWords solutions 0 q)).map some =
        (Question.placedFrom ([] ++ [index + 1]) 0 q.children).map pointsWordAt :=
      pointsIn_bodyWords hq rfl
    rw [questionWords, pointsIn_pointsWord (List.mem_of_getElem? hcommand), pointsIn_append,
      Question.placedFrom, Question.placed_eq_cons]
    simp only [List.cons_append, List.map_cons, List.map_append]
    rw [hbody, ih hqs, pointsWordAt_eq hcommand rfl]

/-- Where counting is off, nothing within a question is counted. -/
theorem foldl_count_of_isInner {ws : List ControlWord} (hws : ∀ w ∈ ws, IsInner w) (sum : Nat) :
    ws.foldl count (false, sum) = (false, sum) := by
  induction ws with
  | nil => rfl
  | cons w ws ih =>
    obtain ⟨hw, hws⟩ := List.forall_mem_cons.mp hws
    have hnames : ∀ name ∈ ["begin", "end"] ++ pointWords,
        name ≠ "noaddpoints" ∧ name ≠ "addpoints" := by decide
    obtain ⟨hoff, hon⟩ := hnames w.name hw.name_mem
    have hcount : count (false, sum) w = (false, sum) := by simp [count, hoff, hon]
    rw [List.foldl_cons, hcount, ih hws]

theorem foldl_count_bodyWords (q : Question) (sum : Nat) :
    (bodyWords solutions 0 q).foldl count (true, sum) = (true, sum) := by
  cases q with
  | openEnded statement modelAnswer points answerLength =>
    rw [bodyWords]
    split <;> rfl
  | closedEnded statement points choices => rfl
  | trueFalse statement answer points => rfl
  | compound statement points children =>
    have hchildren : ∀ w ∈ childWords solutions 0 "part" children, IsInner w :=
      isInner_childWords (by decide) fun q _ w hw =>
        (isInner_bodyWords w hw).resolve_right fun h => absurd h.1 (by decide)
    have hparts := foldl_count_of_isInner
      (isInner_environmentWords (by decide : "parts" ∈ questionEnvironments) hchildren) sum
    have hbody : bodyWords solutions 0 (.compound statement points children) =
        ⟨"noaddpoints", none⟩ ::
          (environmentWords "parts" (childWords solutions 0 "part" children) ++
            [⟨"addpoints", none⟩]) := rfl
    have hoff : count (true, sum) ⟨"noaddpoints", none⟩ = (false, sum) := rfl
    rw [hbody, List.foldl_cons, hoff, List.foldl_append, hparts]
    rfl

theorem count_pointsWord {command : String} (h : command ∈ pointWords) (points sum : Nat) :
    count (true, sum) (pointsWord command points) = (true, sum + points) := by
  have hnames : ∀ name ∈ pointWords, name ≠ "noaddpoints" ∧ name ≠ "addpoints" := by decide
  obtain ⟨hoff, hon⟩ : (pointsWord command points).name ≠ "noaddpoints" ∧
      (pointsWord command points).name ≠ "addpoints" := hnames command h
  rw [count, if_neg hoff, if_neg hon, if_pos ⟨rfl, h⟩, pointsValue_pointsWord]

theorem foldl_count_questionWords (qs : List Question) (sum : Nat) :
    (questionWords solutions qs).foldl count (true, sum) =
      (true, sum + (qs.map Question.points).sum) := by
  induction qs generalizing sum with
  | nil => rfl
  | cons q qs ih =>
    rw [questionWords, List.foldl_cons, count_pointsWord (by decide), List.foldl_append,
      foldl_count_bodyWords, ih, List.map_cons, List.sum_cons, Nat.add_assoc]

end Words

theorem end_questions_notMem {solutions : Bool} {qs : List Question} :
    ⟨"end", some "questions"⟩ ∉ questionWords solutions qs := by
  intro hmem
  have hnot : ∀ name ∈ questionEnvironments,
      (⟨"end", some "questions"⟩ : ControlWord) ∉ environmentWords name [] := by decide
  rcases isInner_questionWords _ hmem with
    (⟨name, hname, hw⟩ | ⟨command, hcommand, points, hw⟩) | hw
  · exact hnot name hname hw
  · rw [← (ControlWord.mk.inj hw).1] at hcommand
    exact absurd hcommand (by decide)
  · exact absurd hw (by decide)

theorem exists_front_of_render {layout : Layout} {solutions : Bool} {e : Exam} {out : String}
    (hprose : ∀ s ∈ printed solutions e, IsProse s) (h : render layout solutions e = .ok out) :
    ∃ front, controlWords? out = some (front ++
        environmentWords "questions" (questionWords solutions e.questions) ++
          [⟨"end", some "document"⟩]) ∧
      ⟨"begin", some "questions"⟩ ∉ front := by
  obtain ⟨fixed, uses, hgives, hfixed, huses⟩ := render_gives hprose h
  refine ⟨_, controlWords?_eq_some_iff.mpr hgives, ?_⟩
  simp only [List.mem_append, not_or]
  refine ⟨⟨fun hw => ?_, fun hw => ?_⟩, fun hw => ?_⟩
  · exact (hfixed _ hw).2.2 rfl
  · obtain ⟨name, -, hname⟩ := List.mem_map.mp hw
    exact absurd (ControlWord.mk.inj hname).1 (by decide)
  · exact (huses _ hw).2.2 rfl

theorem countedPoints_questionWords (solutions : Bool) (qs : List Question) :
    countedPoints (questionWords solutions qs) = (qs.map Question.points).sum := by
  rw [countedPoints, foldl_count_questionWords, Nat.zero_add]

theorem renders_plain (ts : List String) : ∀ s ∈ ts.map Segment.plain,
    IsProse s ∧ ∃ out, (styles .latexQuiz).render s = .ok out :=
  List.forall_mem_map.mpr fun t _ => ⟨isProse_plain t, escapeText t, rfl⟩

theorem codeless_plain (ts : List String) :
    ∀ s ∈ ts.map Segment.plain, s.hasStyle .code = false :=
  List.forall_mem_map.mpr fun _ _ => rfl

/-- A question with choices within three compound questions in one another. -/
def countedSheet : Exam := nestedSheet (.closedEnded (.plain "pick") 2 [⟨true, .plain "this"⟩])

/-- The points of both questions do not fit 32 bits together. -/
def heavySheet : Exam where
  parameters := .empty
  questions := [.trueFalse (.plain "first") true 4294967295, .trueFalse (.plain "second") false 1]

end ExamVariants.Latex
