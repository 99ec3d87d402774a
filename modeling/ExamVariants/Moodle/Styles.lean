import ExamVariants.Style.Table

namespace ExamVariants.Moodle

def escapeChar (c : Char) : List Char :=
  match c with
  | '&' => "&amp;".toList
  | '<' => "&lt;".toList
  | '>' => "&gt;".toList
  | '"' => "&quot;".toList
  | c => [c]

def escapeHtml (s : String) : String :=
  String.ofList (s.toList.flatMap escapeChar)

/-- The control characters that XML does not allow. -/
def isForbidden (c : Char) : Bool :=
  c ≤ '\x08' || c = '\x0b' || c = '\x0c' || ('\x0e' ≤ c && c ≤ '\x1f')

/-- Refuses a text at its first forbidden character. -/
def checkText (s : String) : Except RenderError Unit :=
  match s.toList.find? isForbidden with
  | some c => .error (.controlCharacter c)
  | none => .ok ()

def escape (style : Style) (s : String) : Except RenderError String := do
  checkText s
  match style with
  | .custom => return s
  | .bold | .italic | .code | .inlineCode | .inherit | .newLine => return escapeHtml s

def wrap (style : Style) (inner : String) : String :=
  match style with
  | .bold => "<strong>" ++ inner ++ "</strong>"
  | .italic => "<em>" ++ inner ++ "</em>"
  | .code => "<pre><code>" ++ inner ++ "</code></pre>"
  | .inlineCode => "<code>" ++ inner ++ "</code>"
  | .custom | .inherit | .newLine => inner

def styles : StyleTable where
  lineBreak := "<br/>"
  escape := escape
  wrap style inner := .ok (wrap style inner)
  check _ := .ok ()

end ExamVariants.Moodle
