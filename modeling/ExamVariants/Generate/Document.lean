import ExamVariants.Generate.Journal
import ExamVariants.Typeset

namespace ExamVariants.Generate

open Log

/-- The files of one variant in one notation; a dry run has none. -/
structure OutputFiles where
  target : Notation
  examination : Option String
  solutions : Option String
  pdfs : List String
  deriving DecidableEq, Repr

structure VariantSummary where
  sectionName : String
  questionCount : Nat
  points : Nat
  outputs : List OutputFiles
  deriving DecidableEq, Repr

structure DocumentSummary where
  index : Nat
  title : Option String
  /-- None for a dry run. -/
  directory : Option String
  variants : List VariantSummary
  deriving DecidableEq, Repr

/-- An action on the session that can fail; what is done before the failure stays done. -/
abbrev Action := ExceptT DocumentError (StateM Session)

def Action.event (spans : List Span) (e : Event) : Action Unit :=
  modify fun s => s.event spans e

def typesetFile (spans : List Span) (tex : String) : Action String := do
  match Typeset.typeset spans tex (← get) with
  | none => throw (.noFileName tex)
  | some (report, s) =>
    set s
    if report.succeeded then return report.pdf else throw (.typesetting tex report.errors)

/-- Writes both halves of a twin and typesets them if asked to. -/
def writeTwin (spans : List Span) (directory stem : String) (typeset : Bool) (t : Twin) :
    Action OutputFiles := do
  let examination := Output.filePath directory t.target false stem
  let solutions := Output.filePath directory t.target true stem
  modify fun s => (s.write examination t.examination).write solutions t.solutions
  Action.event spans (wrote t.target examination solutions)
  let pdfs ← if typeset && t.target.isLatex then
      [examination, solutions].mapM (typesetFile spans)
    else pure []
  return ⟨t.target, some examination, some solutions, pdfs⟩

def dryTwin (t : Twin) : OutputFiles := ⟨t.target, none, none, []⟩

def writeVariant (showContent : Bool) (document : Span) (directory : Option String)
    (typeset : Bool) (v : PlannedVariant) : Action VariantSummary := do
  let sectionName := Output.sectionName v.exam
  let spans := [document, variantSpan sectionName]
  (v.exam.questions.mapIdx (question showContent)).forM (Action.event spans)
  let written ← tryCatch
    (match directory with
      | some d => v.twins.mapM (writeTwin spans d (Output.stem v.exam) typeset)
      | none => pure (v.twins.map dryTwin))
    (fun e => do
      modify fun s => s.note (.spanEnd spans)
      throw e)
  modify fun s => s.note (.spanEnd spans)
  return ⟨sectionName, v.exam.questions.length, v.exam.totalPoints, written⟩

def Options.directoryFor (o : Options) (index : Nat) : Option String :=
  if o.dryRun then none else some (Output.documentDirectory o.outputDirectory index)

def writeDocument (o : Options) (showContent : Bool) (index : Nat) (p : Plan) :
    Action DocumentSummary := do
  let directory := o.directoryFor index
  let variants ← p.variants.mapM (writeVariant showContent (documentSpan index) directory o.typeset)
  return ⟨index, p.exam.text? .title, directory, variants⟩

def generateDocument (o : Options) (showContent : Bool) (index : Nat)
    (document : Document.Value) : Action DocumentSummary := do
  modify fun s => s.noteAll ((planning o document).map (.event [documentSpan index]))
  let p ← liftExcept (plan o document)
  writeDocument o showContent index p
where
  /-- A failed plan fails the action. -/
  liftExcept {α : Type} : Except DocumentError α → Action α
    | .ok a => pure a
    | .error e => throw e

end ExamVariants.Generate
