import ExamVariants.Text.Quoted

namespace ExamVariants.Log

inductive Level where
  | error
  | warn
  | info
  | debug
  | trace
  deriving DecidableEq, Repr, Inhabited

namespace Level

/-- The more detail, the greater. -/
def rank : Level → Nat
  | error => 1
  | warn => 2
  | info => 3
  | debug => 4
  | trace => 5

def name : Level → String
  | error => "ERROR"
  | warn => "WARN"
  | info => "INFO"
  | debug => "DEBUG"
  | trace => "TRACE"

def all : List Level := [error, warn, info, debug, trace]

end Level

structure Field where
  name : String
  value : String
  deriving DecidableEq, Repr

namespace Field

def ofText (name s : String) : Field := ⟨name, Text.quoted s⟩

def ofNat (name : String) (n : Nat) : Field := ⟨name, toString n⟩

def ofSeed (name : String) (seed : Int64) : Field := ⟨name, toString seed.toInt⟩

end Field

structure Span where
  target : String
  level : Level
  name : String
  fields : List Field
  deriving DecidableEq, Repr

structure Event where
  level : Level
  target : String
  message : String
  fields : List Field
  deriving DecidableEq, Repr

/-- An event, or the end of the innermost span; the spans stand from the outermost. -/
inductive Record where
  | event (spans : List Span) (event : Event)
  | spanEnd (spans : List Span)
  deriving DecidableEq, Repr

end ExamVariants.Log
