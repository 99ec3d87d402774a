import ExamVariants.Segment

namespace ExamVariants

inductive Parameter where
  | course
  | courseId
  | courseReferenceNumber
  | date
  | instructors
  | instructions
  | sections
  | term
  | timeLimit
  | title
  deriving DecidableEq, Repr, Inhabited

namespace Parameter

def all : List Parameter :=
  [course, courseId, courseReferenceNumber, date, instructors, instructions, sections, term,
    timeLimit, title]

theorem mem_all (p : Parameter) : p ∈ all := by cases p <;> decide

def name : Parameter → String
  | course => "COURSE"
  | courseId => "COURSE_ID"
  | courseReferenceNumber => "COURSE_REFERENCE_NUMBER"
  | date => "DATE"
  | instructors => "INSTRUCTORS"
  | instructions => "INSTRUCTIONS"
  | sections => "SECTIONS"
  | term => "TERM"
  | timeLimit => "TIME_LIMIT"
  | title => "TITLE"

/-- Reads a key in any letter case, blanks around it dropped and `-` taken for `_`. -/
def ofName? (s : String) : Option Parameter :=
  let wanted := Text.replaceChar '-' '_' (Text.upper (Text.strip s))
  all.find? (·.name == wanted)

end Parameter

/-- A part of a course that receives its own variant. -/
@[ext] structure Section where
  name : String
  teachingAssistant : Option String
  studentCount : Option Nat
  deriving DecidableEq, Repr, Inhabited

inductive ParameterValue where
  | text (text : String)
  /-- Every section of the master examination. -/
  | sections (sections : List Section)
  /-- The section that a variant is bound to. -/
  | boundSection (of : Section)
  | segments (segments : List Segment)
  deriving Repr, Inhabited

/-- A value for each bound parameter. -/
abbrev Parameters := Parameter → Option ParameterValue

namespace Parameters

def empty : Parameters := fun _ => none

def bind (ps : Parameters) (p : Parameter) (v : ParameterValue) : Parameters :=
  fun q => if q = p then some v else ps q

@[simp] theorem bind_self (ps : Parameters) (p : Parameter) (v : ParameterValue) :
    ps.bind p v p = some v := by
  simp [bind]

theorem bind_of_ne (ps : Parameters) {p q : Parameter} (v : ParameterValue) (h : q ≠ p) :
    ps.bind p v q = ps q := by
  simp [bind, h]

/-- The bound parameters, in the order of the vocabulary. -/
def bound (ps : Parameters) : List Parameter :=
  Parameter.all.filter fun p => (ps p).isSome

end Parameters

end ExamVariants
