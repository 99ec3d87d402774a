import ExamVariants.Notation
import ExamVariants.Style

namespace ExamVariants

/-- The positions of a question from the top of the examination, counted from one. -/
abbrev QuestionPath := List Nat

def QuestionPath.label (path : QuestionPath) : String :=
  "Q" ++ ".".intercalate (path.map toString)

inductive RenderError where
  /-- Styles that do not nest. -/
  | unsupportedStyle (target : Notation) (style : Style)
  /-- A block of code where the text is the argument of a command. -/
  | codeInArgument (target : Notation) (path : QuestionPath)
  /-- A compound question within three others. -/
  | nestedTooDeep (target : Notation) (path : QuestionPath)
  /-- Inline code that holds every delimiter. -/
  | noInlineDelimiter (target : Notation)
  | controlCharacter (c : Char)
  deriving DecidableEq, Repr

namespace RenderError

/-- At least four hexadecimal digits, in upper case. -/
def hex4 (n : Nat) : String :=
  let digits := (Nat.toDigits 16 n).map Char.toUpper
  String.ofList (List.replicate (4 - digits.length) '0' ++ digits)

def message : RenderError → String
  | unsupportedStyle n style => s!"{n.slug} cannot render style {style.name}"
  | codeInArgument n _ => s!"{n.slug} cannot render style {Style.code.name}"
  | nestedTooDeep n path =>
    s!"{n.slug} cannot render question {path.label}: compound questions nest at most three levels"
  | noInlineDelimiter n =>
    s!"{n.slug} cannot represent text: " ++
      "inline code contains every \\lstinline delimiter (! | + @ =)"
  | controlCharacter c =>
    s!"{Notation.moodleXml.slug} cannot represent text: " ++
      s!"control character U+{hex4 c.toNat} is not allowed in XML"

end RenderError

end ExamVariants
