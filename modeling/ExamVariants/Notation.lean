import ExamVariants.Text.Blank

namespace ExamVariants

inductive Notation where
  /-- An examination paper with a title block and tables. -/
  | latexMidterm
  /-- A compact quiz sheet. -/
  | latexQuiz
  /-- A question bank for import into Moodle. -/
  | moodleXml
  deriving DecidableEq, Repr, Inhabited

namespace Notation

def all : List Notation := [latexMidterm, latexQuiz, moodleXml]

theorem mem_all (n : Notation) : n ∈ all := by cases n <;> decide

/-- The name on the command line, which is also the name of the output directory. -/
def slug : Notation → String
  | latexMidterm => "latex-midterm"
  | latexQuiz => "latex-quiz"
  | moodleXml => "moodle-xml"

def extension : Notation → String
  | latexMidterm | latexQuiz => "tex"
  | moodleXml => "xml"

def description : Notation → String
  | latexMidterm => "LaTeX exam with title page, student and course tables"
  | latexQuiz => "LaTeX quiz sheet with a single name line"
  | moodleXml => "Moodle XML question bank, one category per section"

def isLatex : Notation → Bool
  | latexMidterm | latexQuiz => true
  | moodleXml => false

/-- Reads a slug in any letter case, blanks around it dropped and `_` taken for `-`. -/
def ofName? (s : String) : Option Notation :=
  let wanted := Text.replaceChar '_' '-' (Text.lower (Text.strip s))
  all.find? (·.slug == wanted)

def unknownMessage (s : String) : String :=
  s!"unknown notation '{s}' (expected one of: " ++ ", ".intercalate (all.map slug) ++ ")"

end Notation

end ExamVariants
