import ExamVariants.Exam.Parameter
import ExamVariants.Markup.Parse

namespace ExamVariants.Specification

/-- A node of the document: itself, a question of its list, a child of a compound question, or an
option of a closed-ended one. -/
inductive Place where
  | document
  | question (index : Nat)
  | child (of : Place) (index : Nat)
  | option (of : Place) (index : Nat)
  deriving DecidableEq, Repr, Inhabited

def Place.text : Place → String
  | document => "document"
  | question i => s!"questions[{i}]"
  | child p i => p.text ++ s!".children[{i}]"
  | option p i => p.text ++ s!".options[{i}]"

/-- The path of the list of questions that a place holds. -/
def Place.listText : Place → String
  | document => "questions"
  | p => p.text ++ ".children"

/-- The path up to its last point; that of the document if there is none. -/
def parentPath (path : String) : String :=
  match path.toList.reverse.dropWhile (· != '.') with
  | [] => Place.document.text
  | _ :: front => String.ofList front.reverse

def listKey (path : String) : String :=
  if "children".toList.isSuffixOf path.toList then "children" else "questions"

/-- A text of the document: a field of a node, or one of the instructions. -/
inductive TextPlace where
  | field (of : Place) (key : String)
  | instruction (index : Nat)
  deriving DecidableEq, Repr

def TextPlace.text : TextPlace → String
  | field p key => p.text ++ "." ++ key
  | instruction i => s!"parameters.{Parameter.instructions.name}[{i}]"

inductive Expected where
  | string
  | scalar
  | boolean
  | count
  | options
  | questions
  deriving DecidableEq, Repr

def Expected.wording : Expected → String
  | string => "a string"
  | scalar => "text"
  | boolean => "a boolean"
  | count => "a non-negative integer"
  | options => "a list of options"
  | questions => "a list of questions"

inductive ParameterFault where
  | sectionList
  | sectionShape
  | sectionName
  | studentCount
  | instructionText
  | scalars (p : Parameter)
  deriving DecidableEq, Repr

namespace ParameterFault

def parameter : ParameterFault → Parameter
  | sectionList | sectionShape | sectionName | studentCount => .sections
  | instructionText => .instructions
  | scalars p => p

def reason : ParameterFault → String
  | sectionList => "expected a list of sections"
  | sectionShape => "a section must be a name or a mapping"
  | sectionName => "a section needs a name"
  | studentCount => "students must be a non-negative integer"
  | instructionText => "instructions must be text"
  | scalars _ => "expected text or a list of text"

end ParameterFault

/-- A document, or a part of it, that should have been a mapping. -/
inductive ShapeFault where
  | document
  | parameters
  | parameterEntry
  | node (place : Place)
  deriving DecidableEq, Repr

def ShapeFault.reason : ShapeFault → String
  | document => "expected a mapping with parameters and questions"
  | parameters => "parameters must be a mapping or a list of mappings"
  | parameterEntry => "parameter list entries must be mappings"
  | node p => p.text ++ " must be a mapping"

inductive Error where
  | unknownParameter (key : String)
  | invalidParameter (fault : ParameterFault)
  | unknownQuestionType (place : Place) (found : String)
  | missingField (place : Place) (key : String)
  | invalidField (place : Place) (key : String) (expected : Expected)
  | invalidDocument (fault : ShapeFault)
  | markup (place : TextPlace) (source : Markup.UnknownStyle)
  deriving DecidableEq, Repr

namespace Error

def message : Error → String
  | unknownParameter key => s!"unknown parameter '{key}'"
  | invalidParameter f => s!"invalid value for parameter {f.parameter.name}: {f.reason}"
  | unknownQuestionType p found => s!"unknown question type '{found}' at {p.text}"
  | missingField p key => s!"missing field '{key}' at {p.text}"
  | invalidField p key expected => s!"field '{key}' at {p.text} must be {expected.wording}"
  | invalidDocument f => s!"invalid specification document: {f.reason}"
  | markup p source => s!"{p.text}: {source.message}"

/-- The message followed by its cause, if it has one of its own. -/
def chain : Error → String
  | markup p source => (markup p source).message ++ ": " ++ source.message
  | e => e.message

end Error

end ExamVariants.Specification
