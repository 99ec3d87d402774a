import ExamVariants.Latex.Document
import ExamVariants.Moodle.Bank

namespace ExamVariants

def render (e : Exam) (target : Notation) (solutions : Bool) : Except RenderError String :=
  match target with
  | .latexMidterm => Latex.render .midterm solutions e
  | .latexQuiz => Latex.render .quiz solutions e
  | .moodleXml => Moodle.render solutions e

def Notation.styleTable : Notation → StyleTable
  | .latexMidterm => Latex.styles .latexMidterm
  | .latexQuiz => Latex.styles .latexQuiz
  | .moodleXml => Moodle.styles

structure Twin where
  target : Notation
  examination : String
  solutions : String
  deriving DecidableEq, Repr

/-- Both halves, the one for learners first; either failing fails the pair. -/
def renderTwin (e : Exam) (target : Notation) : Except RenderError Twin := do
  let examination ← render e target false
  let solutions ← render e target true
  return ⟨target, examination, solutions⟩

end ExamVariants
