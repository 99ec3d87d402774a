import ExamVariants.Text.Blank

namespace ExamVariants

inductive Style where
  /-- Bold text. -/
  | bold
  /-- Italic text. -/
  | italic
  /-- A block of code. -/
  | code
  /-- Code within a line. -/
  | inlineCode
  /-- Text of the output notation, passed through untouched. -/
  | custom
  /-- No styling beyond the escaping of the output notation. -/
  | inherit
  /-- A line break stands before the text. -/
  | newLine
  deriving DecidableEq, Repr, Inhabited

namespace Style

def all : List Style := [bold, italic, code, inlineCode, custom, inherit, newLine]

theorem mem_all (s : Style) : s ∈ all := by cases s <;> decide

def name : Style → String
  | bold => "bold"
  | italic => "italic"
  | code => "code"
  | inlineCode => "inline_code"
  | custom => "custom"
  | inherit => "inherit"
  | newLine => "new_line"

/-- Reads a name in any letter case, blanks around it dropped. -/
def ofName? (s : String) : Option Style :=
  let wanted := Text.lower (Text.strip s)
  all.find? (·.name == wanted)

end Style

end ExamVariants
