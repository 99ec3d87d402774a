import ExamVariants.Decimal.Digits
import ExamVariants.Exam.Basic
import ExamVariants.Moodle.Styles
import ExamVariants.Xml

namespace ExamVariants.Moodle

open Xml

abbrev Events := Except RenderError (List Event)

def element (name text : String) : Events := do
  checkText text
  return [.start name [], .text text, .stop name]

def within (name : String) (attributes : List (String × String)) (inner : List Event) :
    List Event :=
  .start name attributes :: inner ++ [.stop name]

/-- A text in an element of its own within another. -/
def wrapped (name : String) (attributes : List (String × String)) (text : String) : Events := do
  let inner ← element "text" text
  return within name attributes inner

def html (name text : String) : Events := wrapped name [("format", "html")] text

def questionElement (kind : String) (inner : List Event) : List Event :=
  within "question" [("type", kind)] inner

/-- The parts of the category path; absent ones are left out. -/
def categoryParts (e : Exam) : List String :=
  ((e.text? .courseId).orElse fun _ => e.text? .course).toList ++ (e.text? .title).toList ++
    (e.section?.map Section.name).toList

def categoryPath (e : Exam) : String :=
  "/".intercalate ("$course$" :: (categoryParts e).map (Text.replaceChar '/' '-'))

def category (e : Exam) : Events := do
  let inner ← wrapped "category" [] (categoryPath e)
  return questionElement "category" inner

def instructionItems : List Segment → Except RenderError String
  | [] => .ok ""
  | s :: ss => do
    let first ← styles.render s
    let rest ← instructionItems ss
    return "<li>" ++ first ++ "</li>" ++ rest

def instructions (e : Exam) : Events :=
  match e.instructions with
  | [] => .ok []
  | ss => do
    let items ← instructionItems ss
    let name ← wrapped "name" [] "Instructions"
    let text ← html "questiontext" ("<ul>" ++ items ++ "</ul>")
    return within "question" [("type", "description"), ("id", "instructions")] (name ++ text)

/-- Five decimals of the floating-point quotient `100 / n`, without the zeros at their end. -/
def share (n : Nat) : String :=
  if n = 0 then "0"
  else
    let unit := 100000
    let quotient := Decimal.floatQuotient 100 n
    let scaled := Decimal.roundedQuotient (quotient.1 * unit) (1 <<< quotient.2)
    let digits := (Nat.toDigits 10 (unit + scaled % unit)).drop 1
    let kept := (digits.reverse.dropWhile (· == '0')).reverse
    toString (scaled / unit) ++ (if kept.isEmpty then "" else "." ++ String.ofList kept)

example : [1, 3, 256, 32000].map share = ["100", "33.33333", "0.39062", "0.00313"] := by decide

/-- Lines for an answer of a length in inches or centimetres, ten for any other text; at least five
and at most forty. -/
def responseLines (length : String) : Nat :=
  let cs := Text.stripChars length.toList
  let isNumeric (c : Char) : Bool := c.isDigit || c == '.'
  let lines : Float :=
    match Decimal.unsigned? (cs.takeWhile isNumeric),
      String.ofList (Text.stripChars (cs.dropWhile isNumeric)) with
    | some x, "in" => x * 5
    | some x, "cm" => x * 2
    | _, _ => 10
  max 5 (min 40 lines.round.toUInt32.toNat)

def heading (path : QuestionPath) (statement : Segment) : Events := do
  let name ← wrapped "name" [] path.label
  let text ← styles.render statement
  let text ← html "questiontext" text
  return name ++ text

def answer (fraction format text : String) : Events :=
  wrapped "answer" [("fraction", fraction), ("format", format)] text

def graderInfo (solutions : Bool) (modelAnswer : Segment) : Events :=
  if solutions then do
    let text ← styles.render modelAnswer
    html "graderinfo" text
  else .ok []

def essay (solutions : Bool) (path : QuestionPath) (statement modelAnswer : Segment) (points : Nat)
    (answerLength : String) : Events := do
  let heading ← heading path statement
  let grade ← element "defaultgrade" (toString points)
  let format ← element "responseformat" "editor"
  let lines ← element "responsefieldlines" (toString (responseLines answerLength))
  let grader ← graderInfo solutions modelAnswer
  return questionElement "essay" (heading ++ grade ++ format ++ lines ++ grader)

/-- What a choice is worth: its share of the correct ones, with solutions only. -/
def choiceFraction (solutions : Bool) (correct : Nat) (c : Choice) : String :=
  if solutions && c.isCorrect then share correct else "0"

def choiceAnswers (solutions : Bool) (correct : Nat) : List Choice → Events
  | [] => .ok []
  | c :: cs => do
    let text ← styles.render c.statement
    let first ← answer (choiceFraction solutions correct c) "html" text
    let rest ← choiceAnswers solutions correct cs
    return first ++ rest

def multichoice (solutions : Bool) (path : QuestionPath) (statement : Segment) (points : Nat)
    (choices : List Choice) : Events := do
  let correct := choices.countP Choice.isCorrect
  let heading ← heading path statement
  let grade ← element "defaultgrade" (toString points)
  let single ← element "single" (if correct ≤ 1 then "true" else "false")
  let shuffle ← element "shuffleanswers" "false"
  let numbering ← element "answernumbering" "ABCD"
  let answers ← choiceAnswers solutions correct choices
  return questionElement "multichoice"
    (heading ++ grade ++ single ++ shuffle ++ numbering ++ answers)

def truthFraction (solutions answer label : Bool) : String :=
  if solutions && answer == label then "100" else "0"

def trueFalse (solutions : Bool) (path : QuestionPath) (statement : Segment) (truth : Bool)
    (points : Nat) : Events := do
  let heading ← heading path statement
  let grade ← element "defaultgrade" (toString points)
  let yes ← answer (truthFraction solutions truth true) "moodle_auto_format" "true"
  let no ← answer (truthFraction solutions truth false) "moodle_auto_format" "false"
  return questionElement "truefalse" (heading ++ grade ++ yes ++ no)

mutual

/-- The elements of a question; a compound question is a description followed by its children. -/
def question (solutions : Bool) (path : QuestionPath) : Question → Events
  | .openEnded statement modelAnswer points answerLength =>
    essay solutions path statement modelAnswer points answerLength
  | .closedEnded statement points choices => multichoice solutions path statement points choices
  | .trueFalse statement truth points => trueFalse solutions path statement truth points
  | .compound statement _ children => do
    let heading ← heading path statement
    let rest ← questions solutions path 0 children
    return questionElement "description" heading ++ rest

def questions (solutions : Bool) (path : QuestionPath) (index : Nat) : List Question → Events
  | [] => .ok []
  | q :: qs => do
    let first ← question solutions (path ++ [index + 1]) q
    let rest ← questions solutions path (index + 1) qs
    return first ++ rest

end

def events (solutions : Bool) (e : Exam) : Events := do
  let category ← category e
  let instructions ← instructions e
  let questions ← questions solutions [] 0 e.questions
  return within "quiz" [] (category ++ instructions ++ questions)

def render (solutions : Bool) (e : Exam) : Except RenderError String :=
  Xml.document <$> events solutions e

end ExamVariants.Moodle
