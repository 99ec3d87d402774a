namespace ExamVariants.Xml

inductive Event where
  | start (name : String) (attributes : List (String × String))
  | text (text : String)
  | stop (name : String)
  deriving DecidableEq, Repr

def escapeChar (c : Char) : List Char :=
  match c with
  | '<' => "&lt;".toList
  | '>' => "&gt;".toList
  | '&' => "&amp;".toList
  | '\'' => "&apos;".toList
  | '"' => "&quot;".toList
  | c => [c]

def escape (s : String) : String :=
  String.ofList (s.toList.flatMap escapeChar)

def attributeText (a : String × String) : String :=
  " " ++ a.1 ++ "=\"" ++ escape a.2 ++ "\""

/-- How deep the next tag lies, and whether it starts a line of its own: all do but the first, and
those behind a text. -/
structure Cursor where
  depth : Nat
  onNewLine : Bool
  deriving DecidableEq, Repr

def lineStart (onNewLine : Bool) (depth : Nat) : String :=
  if onNewLine then "\n" ++ String.ofList (List.replicate (2 * depth) ' ') else ""

def write (c : Cursor) : Event → String × Cursor
  | .start name attributes =>
    (lineStart c.onNewLine c.depth ++ "<" ++ name ++
        String.join (attributes.map attributeText) ++ ">",
      ⟨c.depth + 1, true⟩)
  | .text s => (escape s, ⟨c.depth, false⟩)
  | .stop name =>
    (lineStart c.onNewLine (c.depth - 1) ++ "</" ++ name ++ ">", ⟨c.depth - 1, true⟩)

def writeAll (c : Cursor) : List Event → String
  | [] => ""
  | e :: es => (write c e).1 ++ writeAll (write c e).2 es

def declaration : String := "<?xml version=\"1.0\" encoding=\"UTF-8\"?>"

def document (es : List Event) : String := declaration ++ writeAll ⟨0, true⟩ es

end ExamVariants.Xml
