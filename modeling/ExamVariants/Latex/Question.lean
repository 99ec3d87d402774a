import ExamVariants.Latex.Styles
import ExamVariants.Question.Basic

namespace ExamVariants.Latex

/-- What is rendered: the target notation, which errors name, and whether solutions are printed. -/
structure Mode where
  target : Notation
  solutions : Bool
  deriving DecidableEq, Repr

/-- The environment of the children of a compound question, and the command of each child. -/
structure Level where
  environment : String
  command : String

/-- Compound questions nest at most three deep. -/
def level? : Nat → Option Level
  | 0 => some ⟨"parts", "part"⟩
  | 1 => some ⟨"subparts", "subpart"⟩
  | 2 => some ⟨"subsubparts", "subsubpart"⟩
  | _ => none

def beginEnvironment (name : String) : String := "\\begin" ++ braced name ++ "\n"

def endEnvironment (name : String) : String := "\\end" ++ braced name ++ "\n"

/-- A command with points in brackets, on a line of its own. -/
def pointsLine (command : String) (points : Nat) : String :=
  s!"\\{command}[{points}]\n"

namespace Mode

def text (m : Mode) (s : Segment) : Except RenderError String :=
  (styles m.target).render s

/-- Refuses blocks of code where the text is the argument of a command. -/
def rejectCode (m : Mode) (path : QuestionPath) (s : Segment) : Except RenderError Unit :=
  if s.hasStyle .code then .error (.codeInArgument m.target path) else .ok ()

/-- The model answer, or an empty box of the expected length. -/
def answerSpace (m : Mode) (modelAnswer : Segment) (answerLength : String) :
    Except RenderError String :=
  if m.solutions then do
    let answer ← m.text modelAnswer
    return beginEnvironment "solution" ++ answer ++ "\n" ++ endEnvironment "solution"
  else return "\\makeemptybox" ++ braced (escapeText answerLength) ++ "\n"

/-- The command that opens a choice; a star marks a correct one. -/
def choiceCommand (m : Mode) (c : Choice) : String :=
  if m.solutions && c.isCorrect then "\\item*" else "\\item"

def choice (m : Mode) (path : QuestionPath) (c : Choice) : Except RenderError String := do
  m.rejectCode path c.statement
  let statement ← m.text c.statement
  return "    " ++ m.choiceCommand c ++ " " ++ statement ++ "\n"

def choices (m : Mode) (path : QuestionPath) : List Choice → Except RenderError String
  | [] => .ok ""
  | c :: cs => do
    let first ← m.choice path c
    let rest ← m.choices path cs
    return first ++ rest

/-- The letter of a true-false answer, printed with solutions only. -/
def answerLetter (m : Mode) (answer : Bool) : String :=
  if m.solutions then (if answer then "T" else "F") else ""

mutual

/-- A question within `depth` compound questions, without the command that gives its points. -/
def body (m : Mode) (path : QuestionPath) (depth : Nat) :
    Question → Except RenderError String
  | .openEnded statement modelAnswer _ answerLength => do
    let statement ← m.text statement
    let space ← m.answerSpace modelAnswer answerLength
    return statement ++ "\n" ++ space
  | .closedEnded statement _ choices => do
    let statement ← m.text statement
    let items ← m.choices path choices
    return statement ++ "\n" ++ beginEnvironment "items" ++ items ++ endEnvironment "items"
  | .trueFalse statement answer _ => do
    m.rejectCode path statement
    let statement ← m.text statement
    return "\\TFQuestion" ++ braced (m.answerLetter answer) ++ braced statement ++ "\n"
  | .compound statement _ children => do
    match level? depth with
    | none => throw (.nestedTooDeep m.target path)
    | some level =>
      let statement ← m.text statement
      let parts ← m.children path depth level.command 0 children
      let environment :=
        beginEnvironment level.environment ++ parts ++ endEnvironment level.environment
      return statement ++ "\n" ++
        (if depth = 0 then
          "\\noaddpoints % parts are counted in the question total\n" ++ environment ++
            "\\addpoints\n"
        else environment)

/-- The children from `index` on, a blank line between two. -/
def children (m : Mode) (path : QuestionPath) (depth : Nat) (command : String) (index : Nat) :
    List Question → Except RenderError String
  | [] => .ok ""
  | q :: qs => do
    let gap := if index = 0 then "" else "\n"
    let first ← m.body (path ++ [index + 1]) (depth + 1) q
    let rest ← m.children path depth command (index + 1) qs
    return gap ++ "    " ++ pointsLine command q.points ++ first ++ rest

end

def question (m : Mode) (path : QuestionPath) (q : Question) : Except RenderError String := do
  let body ← m.body path 0 q
  return pointsLine "question" q.points ++ body

end Mode

end ExamVariants.Latex
