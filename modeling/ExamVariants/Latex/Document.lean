import ExamVariants.Exam.Basic
import ExamVariants.Latex.Preamble
import ExamVariants.Latex.Question

namespace ExamVariants.Latex

inductive Layout where
  | midterm
  | quiz
  deriving DecidableEq, Repr, Inhabited

def Layout.target : Layout → Notation
  | midterm => .latexMidterm
  | quiz => .latexQuiz

def parameterCommands : List (Parameter × String) :=
  [(.course, "course"), (.courseId, "coursenumber"), (.courseReferenceNumber, "crn"),
    (.term, "term"), (.instructors, "instructors"), (.timeLimit, "timelimit"),
    (.title, "examtitle"), (.date, "examdate")]

def hasText (e : Exam) (p : Parameter) : Bool := (e.text? p).isSome

def hasAssistant (e : Exam) : Bool :=
  (e.section?.bind Section.teachingAssistant).isSome

def newCommand (name value : String) : String :=
  "\\newcommand" ++ braced ("\\" ++ name) ++ braced (escapeText value) ++ "\n"

def documentClass (layout : Layout) (solutions : Bool) : String :=
  let size := match layout with
    | .midterm => "10pt"
    | .quiz => "11pt"
  let answers := if solutions then ",answers" else ""
  s!"\\documentclass[{size},addpoints{answers}]" ++ braced "exam" ++ "\n\n"

def packages (layout : Layout) : String :=
  let margin := match layout with
    | .midterm => "1in"
    | .quiz => "0.5in"
  let quotes := match layout with
    | .midterm => []
    | .quiz => ["\\usepackage" ++ braced "upquote"]
  s!"% packages\n\\usepackage[margin={margin}]" ++ braced "geometry" ++ "\n" ++
    closeLines (packageLines ++ quotes)

def fixedPreamble : String :=
  "\n% choices\n" ++ closeLines choiceLines ++ "\n% true/false\n" ++ closeLines trueFalseLines ++
    "\n% listings\n" ++ closeLines listingLines

def parameterDefinitions (e : Exam) : String :=
  String.join (parameterCommands.map fun (p, name) =>
    match e.text? p with
    | some value => newCommand name value
    | none => "")

def sectionDefinitions (e : Exam) : String :=
  match e.section? with
  | none => ""
  | some s =>
    newCommand "examsection" s.name ++
      match s.teachingAssistant with
      | some ta => newCommand "sectionta" ta
      | none => ""

/-- The three parts of the page header between braces. -/
def headerParts (e : Exam) : String :=
  let left :=
    if hasText e .courseId then "\\scriptsize \\coursenumber" ++ braced "" else ""
  let page :=
    if e.section?.isSome then "Page \\examsection" ++ braced "" ++ "-\\thepage\\ of \\numpages"
    else "Page \\thepage\\ of \\numpages"
  let center :=
    if hasText e .title then "\\scriptsize \\examtitle\\ - " ++ page else "\\scriptsize " ++ page
  let right := if hasText e .date then "\\scriptsize \\examdate" else ""
  braced left ++ braced center ++ braced right

def pageStyle (layout : Layout) (e : Exam) : String :=
  "\n% page\n\\pagestyle" ++ braced "head" ++ "\n" ++
    match layout with
    | .midterm =>
      "\\firstpageheader" ++ braced "" ++ braced "" ++ braced "" ++ "\n\\runningheader" ++
        headerParts e ++ "\n\\runningheadrule\n"
    | .quiz => "\\header" ++ headerParts e ++ "\n\\headrule\n"

def titleBlock (e : Exam) : String :=
  let lines := [(Parameter.term, "\\term"), (Parameter.title, "\\examtitle")].filterMap
    fun (p, command) => if hasText e p then some command else none
  if lines.isEmpty && !hasText e .date then ""
  else
    let heading :=
      if lines.isEmpty then ""
      else "    \x7b\\LARGE\\bfseries\n" ++
        String.join (lines.map fun l => "        " ++ l ++ "\\\\\n") ++ "    \x7d\n"
    let date :=
      if hasText e .date then
        "    \\vspace" ++ braced "0.2cm" ++ "\n    " ++ braced "\\large \\examdate" ++ "\n"
      else ""
    "% title\n" ++ beginEnvironment "center" ++ heading ++ date ++ endEnvironment "center"

def table (comment stretch : String) (rows : List (String × String)) : String :=
  s!"\n% {comment}\n" ++ "\\vspace" ++ braced "0.5cm" ++ "\n\\noindent\n\\renewcommand" ++
    braced "\\arraystretch" ++ braced stretch ++ "\n\\begin" ++ braced "tabularx" ++
    braced "\\textwidth" ++ braced "|l|X|" ++ "\n    \\hline\n" ++
    String.join (rows.map fun (label, value) =>
      "    \\textbf" ++ braced label ++ " & " ++ value ++ "\\\\\n    \\hline\n") ++
    endEnvironment "tabularx"

def studentTable (e : Exam) : String :=
  let sectionRow := if e.section?.isSome then [("Section", "\\examsection ")] else []
  table "student information" "3"
    ([("Last Name", ""), ("First Name", "")] ++ sectionRow ++ [("Student Number", "")])

def courseRows (e : Exam) : List (String × String) :=
  let course := match hasText e .courseId, hasText e .course with
    | true, true => [("Course", "\\coursenumber" ++ braced "" ++ " - \\course ")]
    | true, false => [("Course", "\\coursenumber ")]
    | false, true => [("Course", "\\course ")]
    | false, false => []
  course ++
    (if hasText e .courseReferenceNumber then [("CRN", "\\crn ")] else []) ++
    (if hasText e .instructors then [("Instructors", "\\instructors ")] else []) ++
    (if hasAssistant e then [("Teaching Assistant", "\\sectionta ")] else []) ++
    (if hasText e .timeLimit then [("Duration", "\\timelimit ")] else [])

def courseTable (e : Exam) : String :=
  match courseRows e with
  | [] => ""
  | rows =>
    table "course information" "1.2" rows ++ "\\renewcommand" ++ braced "\\arraystretch" ++
      braced "1" ++ "\n"

def titlePage (layout : Layout) (e : Exam) : String :=
  match layout with
  | .midterm => titleBlock e ++ studentTable e ++ courseTable e
  | .quiz =>
    let title := if hasText e .title then braced "\\large\\bfseries \\examtitle" else ""
    "\\noindent\n" ++ title ++ "\\hfill Name:\\enspace\\makebox[6cm]" ++ braced "\\hrulefill" ++
      "\n"

def opening (layout : Layout) (solutions : Bool) (e : Exam) : String :=
  documentClass layout solutions ++ packages layout ++ fixedPreamble ++ "\n% parameters\n" ++
    parameterDefinitions e ++ sectionDefinitions e ++ pageStyle layout e ++ "\n" ++
    beginEnvironment "document" ++ titlePage layout e

def instructionItems (m : Mode) : List Segment → Except RenderError String
  | [] => .ok ""
  | s :: ss => do
    let first ← m.text s
    let rest ← instructionItems m ss
    return "    \\item " ++ first ++ "\n" ++ rest

def instructions (m : Mode) (e : Exam) : Except RenderError String :=
  match e.instructions with
  | [] => .ok ""
  | ss => do
    let items ← instructionItems m ss
    return "\n% instructions\n\\vspace" ++ braced "0.5cm" ++ "\n\\noindent\n" ++
      braced "\\large\\bfseries Instructions" ++ "\n\\begin" ++ braced "itemize" ++
      "[noitemsep]\n" ++ items ++ endEnvironment "itemize"

/-- The questions from `index` on, a blank line between two. -/
def questions (m : Mode) (index : Nat) : List Question → Except RenderError String
  | [] => .ok ""
  | q :: qs => do
    let gap := if index = 0 then "" else "\n"
    let first ← m.question [index + 1] q
    let rest ← questions m (index + 1) qs
    return gap ++ first ++ rest

def questionsHeading (layout : Layout) : String :=
  "\n% questions\n\\vspace" ++ braced "0.5cm" ++ "\n" ++
    match layout with
    | .midterm =>
      "\\noindent\n" ++ braced "\\large\\bfseries Questions" ++ "\n\\vspace" ++ braced "0.5cm" ++
        "\n"
    | .quiz => ""

def render (layout : Layout) (solutions : Bool) (e : Exam) : Except RenderError String := do
  let m : Mode := ⟨layout.target, solutions⟩
  let instructions ← instructions m e
  let questions ← questions m 0 e.questions
  return opening layout solutions e ++ instructions ++ questionsHeading layout ++
    beginEnvironment "questions" ++ "\\bracketedpoints\n\\marksnotpoints\n" ++ questions ++
    endEnvironment "questions" ++ endEnvironment "document"

/-- One question of the top level, numbered from one. -/
def renderQuestion (layout : Layout) (solutions : Bool) (number : Nat) (q : Question) :
    Except RenderError String :=
  Mode.question ⟨layout.target, solutions⟩ [number] q

end ExamVariants.Latex
