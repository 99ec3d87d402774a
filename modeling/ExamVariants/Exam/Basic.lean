import ExamVariants.Exam.Parameter
import ExamVariants.Question.Scramble

namespace ExamVariants

structure Exam where
  parameters : Parameters
  questions : List Question
  deriving Inhabited

/-- Why an examination has no variants. -/
inductive VariantError where
  | missingSections
  | invalidSections
  | limitExceedsQuestions (limit available : Nat)
  deriving DecidableEq, Repr

def VariantError.message : VariantError → String
  | missingSections => s!"missing required parameter {Parameter.sections.name}"
  | invalidSections =>
    s!"invalid value for parameter {Parameter.sections.name}: expected a list of sections"
  | limitExceedsQuestions limit available =>
    s!"limit exceeds question count: limit {limit}, available {available}"

namespace Exam

def text? (e : Exam) (p : Parameter) : Option String :=
  match e.parameters p with
  | some (.text t) => some t
  | _ => none

/-- All sections; a variant's own section is a list of one. -/
def sections (e : Exam) : Except VariantError (List Section) :=
  match e.parameters .sections with
  | some (.sections ss) => .ok ss
  | some (.boundSection s) => .ok [s]
  | some _ => .error .invalidSections
  | none => .error .missingSections

/-- The section that the examination is bound to. -/
def section? (e : Exam) : Option Section :=
  match e.parameters .sections with
  | some (.boundSection s) => some s
  | some (.sections [s]) => some s
  | _ => none

def instructions (e : Exam) : List Segment :=
  match e.parameters .instructions with
  | some (.segments ss) => ss
  | _ => []

def totalPoints (e : Exam) : Nat :=
  Question.sumPoints e.questions

/-- Scrambles each question, then reorders the questions. -/
def scrambled (e : Exam) (seed : Int64) : Exam :=
  { e with questions := Shuffle.shuffled (e.questions.map (Question.scrambled seed)) seed }

def forSection (e : Exam) (s : Section) (questions : List Question) : Exam where
  parameters := e.parameters.bind .sections (.boundSection s)
  questions := questions

@[simp] theorem section?_forSection (e : Exam) (s : Section) (qs : List Question) :
    (e.forSection s qs).section? = some s := by
  simp [section?, forSection]

end Exam

end ExamVariants
