import ExamVariants.Document.Value
import ExamVariants.Exam.Basic

namespace ExamVariants.Stored

open Document

def fields (names : List String) : Value → Option (List Value)
  | .mapping entries => some (names.map fun k => (Value.find? k entries).getD .null)
  | .list items => if items.length = names.length then some items else none
  | _ => none

def text? : Value → Option String
  | .text s => some s
  | _ => none

def bool? : Value → Option Bool
  | .bool b => some b
  | _ => none

def optional {α : Type} (read : Value → Option α) : Value → Option (Option α)
  | .null => some none
  | v => some <$> read v

/-- A mapping with one entry, which names the case. -/
def ofCase (name : String) (v : Value) : Value := .mapping [(name, v)]

def count (n : Nat) : Value := .number (.integer n)

def styleName : Style → String
  | .bold => "BOLD"
  | .italic => "ITALIC"
  | .code => "CODE"
  | .inlineCode => "INLINE_CODE"
  | .custom => "CUSTOM"
  | .inherit => "INHERIT"
  | .newLine => "NEW_LINE"

def encodeStyle (s : Style) : Value := .text (styleName s)

def styleOfName? (name : String) : Option Style :=
  Style.all.find? (styleName · == name)

/-- A style is its name, or a mapping from its name to null. -/
def decodeStyle : Value → Option Style
  | .text name => styleOfName? name
  | .mapping [(name, .null)] => styleOfName? name
  | _ => none

def decodeLeaf (entries : List (String × Value)) : Option Segment := do
  let text ← (Value.find? "text" entries).bind text?
  match ← Value.find? "styles" entries with
  | .list styles => return .simple text (← styles.mapM decodeStyle)
  | _ => none

mutual

def encodeSegment : Segment → Value
  | .simple text styles =>
    ofCase "Simple" (.mapping [("styles", .list (styles.map encodeStyle)), ("text", .text text)])
  | .compound parts => ofCase "Compound" (.list (encodeSegments parts))

def encodeSegments : List Segment → List Value
  | [] => []
  | p :: ps => encodeSegment p :: encodeSegments ps

end

mutual

def decodeSegment : Value → Option Segment
  | .mapping [(name, .mapping entries)] => if name = "Simple" then decodeLeaf entries else none
  | .mapping [(name, .list parts)] =>
    if name = "Compound" then Segment.compound <$> decodeSegments parts else none
  | _ => none

def decodeSegments : List Value → Option (List Segment)
  | [] => some []
  | v :: vs => do
    let p ← decodeSegment v
    let ps ← decodeSegments vs
    return p :: ps

end

def segments? : Value → Option (List Segment)
  | .list vs => decodeSegments vs
  | _ => none

def encodeChoice (c : Choice) : Value :=
  .mapping [("is_correct", .bool c.isCorrect), ("statement", encodeSegment c.statement)]

def decodeChoice (v : Value) : Option Choice := do
  match ← fields ["is_correct", "statement"] v with
  | [isCorrect, statement] => return ⟨← bool? isCorrect, ← decodeSegment statement⟩
  | _ => none

def choices? : Value → Option (List Choice)
  | .list vs => vs.mapM decodeChoice
  | _ => none

def kindName : QuestionKind → String
  | .openEnded => "OpenEnded"
  | .closedEnded => "ClosedEnded"
  | .trueFalse => "TrueFalse"
  | .compound => "Compound"

mutual

def encodeQuestion : Question → Value
  | .openEnded statement modelAnswer points answerLength =>
    ofCase (kindName .openEnded) (.mapping
      [("expected_answer_length", .text answerLength),
        ("model_answer", encodeSegment modelAnswer), ("points", count points),
        ("statement", encodeSegment statement)])
  | .closedEnded statement points choices =>
    ofCase (kindName .closedEnded) (.mapping
      [("options", .list (choices.map encodeChoice)), ("points", count points),
        ("statement", encodeSegment statement)])
  | .trueFalse statement answer points =>
    ofCase (kindName .trueFalse) (.mapping
      [("answer", .bool answer), ("points", count points),
        ("statement", encodeSegment statement)])
  | .compound statement points children =>
    ofCase (kindName .compound) (.mapping
      [("children", .list (encodeQuestions children)), ("points", count points),
        ("statement", encodeSegment statement)])

def encodeQuestions : List Question → List Value
  | [] => []
  | q :: qs => encodeQuestion q :: encodeQuestions qs

end

def decodeOpenEnded (v : Value) : Option Question := do
  match ← fields ["statement", "model_answer", "points", "expected_answer_length"] v with
  | [statement, modelAnswer, points, answerLength] =>
    return .openEnded (← decodeSegment statement) (← decodeSegment modelAnswer) (← points.count?)
      (← text? answerLength)
  | _ => none

def decodeClosedEnded (v : Value) : Option Question := do
  match ← fields ["statement", "points", "options"] v with
  | [statement, points, choices] =>
    return .closedEnded (← decodeSegment statement) (← points.count?) (← choices? choices)
  | _ => none

def decodeTrueFalse (v : Value) : Option Question := do
  match ← fields ["statement", "answer", "points"] v with
  | [statement, answer, points] =>
    return .trueFalse (← decodeSegment statement) (← bool? answer) (← points.count?)
  | _ => none

def compoundHead (v : Value) : Option (Segment × Nat) := do
  match ← fields ["statement", "points", "children"] v with
  | [statement, points, _] => return (← decodeSegment statement, ← points.count?)
  | _ => none

mutual

def decodeQuestion : Value → Option Question
  | .mapping [(name, v)] =>
    if name = kindName .openEnded then decodeOpenEnded v
    else if name = kindName .closedEnded then decodeClosedEnded v
    else if name = kindName .trueFalse then decodeTrueFalse v
    else if name = kindName .compound then do
      let (statement, points) ← compoundHead v
      let children ← decodeChildren v
      return .compound statement points children
    else none
  | _ => none

def decodeChildren : Value → Option (List Question)
  | .mapping entries => childrenEntry entries
  | .list [_, _, .list vs] => decodeQuestions vs
  | _ => none

def childrenEntry : List (String × Value) → Option (List Question)
  | [] => none
  | (key, v) :: rest =>
    if key = "children" then
      match v with
      | .list vs => decodeQuestions vs
      | _ => none
    else childrenEntry rest

def decodeQuestions : List Value → Option (List Question)
  | [] => some []
  | v :: vs => do
    let q ← decodeQuestion v
    let qs ← decodeQuestions vs
    return q :: qs

end

def questions? : Value → Option (List Question)
  | .list vs => decodeQuestions vs
  | _ => none

def encodeSection (s : Section) : Value :=
  .mapping
    [("name", .text s.name), ("student_count", (s.studentCount.map count).getD .null),
      ("teaching_assistant", (s.teachingAssistant.map Value.text).getD .null)]

def decodeSection (v : Value) : Option Section := do
  match ← fields ["name", "teaching_assistant", "student_count"] v with
  | [name, assistant, students] =>
    return ⟨← text? name, ← optional text? assistant, ← optional Value.count? students⟩
  | _ => none

def encodeParameterValue : ParameterValue → Value
  | .text t => ofCase "Text" (.text t)
  | .sections ss => ofCase "Sections" (.list (ss.map encodeSection))
  | .boundSection s => ofCase "Section" (encodeSection s)
  | .segments ss => ofCase "Segments" (.list (encodeSegments ss))

def decodeParameterValue : Value → Option ParameterValue
  | .mapping [(name, v)] =>
    if name = "Text" then ParameterValue.text <$> text? v
    else if name = "Sections" then
      match v with
      | .list vs => ParameterValue.sections <$> vs.mapM decodeSection
      | _ => none
    else if name = "Section" then ParameterValue.boundSection <$> decodeSection v
    else if name = "Segments" then ParameterValue.segments <$> segments? v
    else none
  | _ => none

def encodeParameters (ps : Parameters) : Value :=
  .ofEntries (Parameter.all.filterMap fun p =>
    (ps p).map fun v => (p.name, encodeParameterValue v))

def decodeEntry (ps : Parameters) (entry : String × Value) : Option Parameters := do
  let p ← Parameter.all.find? (·.name == entry.1)
  let v ← decodeParameterValue entry.2
  return ps.bind p v

def decodeParameters : Value → Option Parameters
  | .mapping entries => entries.foldlM decodeEntry .empty
  | _ => none

def encode (e : Exam) : Value :=
  .mapping
    [("parameters", encodeParameters e.parameters),
      ("questions", .list (encodeQuestions e.questions))]

def decode (v : Value) : Option Exam := do
  match ← fields ["parameters", "questions"] v with
  | [parameters, questions] => return ⟨← decodeParameters parameters, ← questions? questions⟩
  | _ => none

end ExamVariants.Stored
