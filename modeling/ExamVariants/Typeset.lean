import ExamVariants.Session

namespace ExamVariants.Typeset

open Text

/-- What a pass printed: the lines that open with an exclamation mark, and the warnings. -/
structure Scan where
  errors : List String
  warnings : List String
  deriving DecidableEq, Repr

def holds (part : List Char) : List Char → Bool
  | [] => part.isEmpty
  | c :: cs => part.isPrefixOf (c :: cs) || holds part cs

def errorLine? (line : String) : Option String :=
  match line.toList with
  | '!' :: rest => some (String.ofList (stripChars rest))
  | _ => none

def warningLine? (line : String) : Option String :=
  if (errorLine? line).isNone && holds "LaTeX Warning".toList line.toList then some (strip line)
  else none

def scan (output : String) : Scan where
  errors := (lines output).filterMap errorLine?
  warnings := (lines output).filterMap warningLine?

structure Report where
  pdf : String
  errors : List String
  warnings : List String
  deriving DecidableEq, Repr

def Report.succeeded (r : Report) : Bool := r.errors.isEmpty

/-- The verdict on one pass; a failure without an error line is an error of its own. -/
def verdict (pdf : String) (run : TypesetterRun) : Report :=
  let s := scan run.output
  let silent := run.exitStatus ≠ .code 0 && s.errors.isEmpty
  { pdf
    errors := if silent then [s!"pdflatex exited with {run.exitStatus.text}"] else s.errors
    warnings := s.warnings }

def target : String := "examgen_cli::typeset"

def passEvent (tex : String) (number : Nat) (s : Scan) : Log.Event where
  level := .debug
  target := target
  message := "pdflatex pass"
  fields := [⟨"tex", tex⟩, .ofNat "pass" number, .ofNat "errors" s.errors.length,
    .ofNat "warnings" s.warnings.length]

def warningEvent (tex warning : String) : Log.Event where
  level := .warn
  target := target
  message := warning
  fields := [⟨"tex", tex⟩]

def passCount : Nat := 2

def arguments (pdfDirectory tex : String) : List String :=
  ["-interaction=nonstopmode", "-halt-on-error", "-output-directory", pdfDirectory, tex]

/-- Runs the passes from `number` on, `left` at most; a failed pass is the last, and the report is
that of the last pass. -/
def passes (spans : List Log.Span) (pdfDirectory pdf tex : String) (number : Nat) :
    Nat → Report → Session → Report × Session
  | 0, report, s => (report, s)
  | left + 1, _, s =>
    let (run, s) := s.runTypesetter (arguments pdfDirectory tex)
    let s := s.event spans (passEvent tex number (scan run.output))
    let report := verdict pdf run
    if report.succeeded then passes spans pdfDirectory pdf tex (number + 1) left report s
    else (report, s)

/-- A file of the stem that is no PDF. -/
def isByProduct (stem name : String) : Bool :=
  (Path.cutName name).1 == stem && (Path.cutName name).2 != some "pdf"

def removeByProducts (t : FileTree) (directory stem : String) : FileTree :=
  let place := Path.locate directory
  ((t.namesIn place).filter (isByProduct stem)).foldl (fun t name => t.remove (place ++ [name])) t

/-- Typesets a file into the directory `PDF` beside it; the path must have a file name. -/
def typeset (spans : List Log.Span) (tex : String) (s : Session) : Option (Report × Session) := do
  let stem ← Path.fileStem? tex
  let pdfDirectory := Path.join ((Path.parent? tex).getD ".") "PDF"
  let pdf := Path.join pdfDirectory (stem ++ ".pdf")
  let s := { s with files := s.files.createDirectories pdfDirectory }
  let (report, s) := passes spans pdfDirectory pdf tex 1 passCount ⟨pdf, [], []⟩ s
  let s := s.noteAll (report.warnings.map fun w => .event spans (warningEvent tex w))
  return (report, { s with files := removeByProducts s.files pdfDirectory stem })

end ExamVariants.Typeset
