import ExamVariants.Style.Table

namespace ExamVariants.Latex

def braced (s : String) : String := "\x7b" ++ s ++ "\x7d"

def escapeChar (c : Char) : List Char :=
  match c with
  | '\\' => "\\textbackslash\x7b\x7d".toList
  | '~' => "\\textasciitilde\x7b\x7d".toList
  | '^' => "\\textasciicircum\x7b\x7d".toList
  | '<' => "\\textless\x7b\x7d".toList
  | '>' => "\\textgreater\x7b\x7d".toList
  | '|' => "\\textbar\x7b\x7d".toList
  | '#' | '&' | '%' | '\x7b' | '\x7d' | '$' | '_' => ['\\', c]
  | c => [c]

def escapeText (s : String) : String :=
  String.ofList (s.toList.flatMap escapeChar)

def escapeInlineChar (c : Char) : List Char :=
  match c with
  | '\\' | '&' | '%' | '\x7b' | '\x7d' => ['\\', c]
  | c => [c]

def escapeInline (s : String) : String :=
  String.ofList (s.toList.flatMap escapeInlineChar)

/-- The delimiters of inline code, in the order in which they are tried. -/
def inlineDelimiters : List Char := ['!', '|', '+', '@', '=']

def codeBlock (body : String) : String :=
  "\\vspace\x7b0.3cm\x7d\n\\begin\x7blstlisting\x7d\n" ++ body ++ "\n\\end\x7blstlisting\x7d\n"

def escape (style : Style) (s : String) : String :=
  match style with
  | .code | .custom => s
  | .inlineCode => escapeInline s
  | .bold | .italic | .inherit | .newLine => escapeText s

/-- Inline code takes the first delimiter that it does not hold. -/
def wrap (target : Notation) (style : Style) (inner : String) : Except RenderError String :=
  match style with
  | .bold => .ok ("\\textbf" ++ braced inner)
  | .italic => .ok ("\\textit" ++ braced inner)
  | .code => .ok (codeBlock inner)
  | .inlineCode =>
    match inlineDelimiters.find? fun d => !inner.toList.contains d with
    | some d => .ok ("\\lstinline" ++ String.singleton d ++ inner ++ String.singleton d)
    | none => .error (.noInlineDelimiter target)
  | .custom | .inherit | .newLine => .ok inner

/-- A listing cannot stand in the argument of a command or in another listing, and would print
markup of text as it is. -/
def check (target : Notation) (styles : List Style) : Except RenderError Unit :=
  let formatted := styles.any fun s => s = .bold || s = .italic || s = .inlineCode
  if styles.count .code > 1 || (styles.count .code = 1 && formatted) then
    .error (.unsupportedStyle target .code)
  else .ok ()

def styles (target : Notation) : StyleTable where
  lineBreak := "\n\n"
  escape style s := .ok (escape style s)
  wrap := wrap target
  check := check target

end ExamVariants.Latex
