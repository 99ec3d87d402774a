import ExamVariants.Segment

namespace ExamVariants

inductive QuestionKind where
  | openEnded
  | closedEnded
  | trueFalse
  | compound
  deriving DecidableEq, Repr, Inhabited

namespace QuestionKind

def all : List QuestionKind := [openEnded, closedEnded, trueFalse, compound]

theorem mem_all (k : QuestionKind) : k ∈ all := by cases k <;> decide

/-- The tag that a specification writes under `type`. -/
def name : QuestionKind → String
  | openEnded => "open-ended"
  | closedEnded => "closed-ended"
  | trueFalse => "true-false"
  | compound => "compound"

/-- Reads a tag in any letter case, blanks around it dropped and `_` taken for `-`. -/
def ofName? (s : String) : Option QuestionKind :=
  let wanted := Text.replaceChar '_' '-' (Text.lower (Text.strip s))
  all.find? (·.name == wanted)

end QuestionKind

structure Choice where
  isCorrect : Bool
  statement : Segment
  deriving Repr, Inhabited

/-- A question. The points of a compound question are its own and are never derived from its
children; `answerLength` is the vertical space that an answer gets on paper. -/
inductive Question where
  | openEnded (statement modelAnswer : Segment) (points : Nat) (answerLength : String)
  | closedEnded (statement : Segment) (points : Nat) (choices : List Choice)
  | trueFalse (statement : Segment) (answer : Bool) (points : Nat)
  | compound (statement : Segment) (points : Nat) (children : List Question)
  deriving Repr, Inhabited

namespace Question

def kind : Question → QuestionKind
  | openEnded .. => .openEnded
  | closedEnded .. => .closedEnded
  | trueFalse .. => .trueFalse
  | compound .. => .compound

def header : Question → Segment
  | openEnded statement _ _ _ => statement
  | closedEnded statement _ _ => statement
  | trueFalse statement _ _ => statement
  | compound statement _ _ => statement

def points : Question → Nat
  | openEnded _ _ points _ => points
  | closedEnded _ points _ => points
  | trueFalse _ _ points => points
  | compound _ points _ => points

/-- The points of all questions, added up in words of 32 bits. -/
def sumPoints (qs : List Question) : Nat :=
  qs.foldl (fun sum q => (sum + q.points) % 0x100000000) 0

def children : Question → List Question
  | compound _ _ children => children
  | _ => []

mutual

/-- The statements of the choices, or one compound of header and body for each child. -/
def body : Question → List Segment
  | openEnded .. => []
  | trueFalse .. => []
  | closedEnded _ _ choices => choices.map Choice.statement
  | compound _ _ children => bodies children

def bodies : List Question → List Segment
  | [] => []
  | q :: qs => Segment.compound (q.header :: q.body) :: bodies qs

end

end Question

end ExamVariants
