import ExamVariants.Generate.Document

namespace ExamVariants.Generate

open Log

structure Result where
  input : String
  seed : Int64
  documents : List DocumentSummary
  /-- The failed documents by index. -/
  failures : List (Nat × DocumentError)

namespace Result

def errors (r : Result) : List String :=
  r.failures.map fun (index, e) => s!"document {index}: {e.message}"

def hasErrors (r : Result) : Bool := !r.failures.isEmpty

end Result

/-- One document of a run; its span ends with it. -/
def runDocument (o : Options) (showContent : Bool) (index : Nat) (document : Document.Value)
    (s : Session) : Except DocumentError DocumentSummary × Session :=
  let spans := [documentSpan index]
  let (outcome, s) := (generateDocument o showContent index document).run.run s
  let s := match outcome with
    | .ok _ => s
    | .error e => s.event spans (documentFailed e)
  (outcome, s.note (.spanEnd spans))

def runDocuments (o : Options) (showContent : Bool) (index : Nat) :
    List Document.Value → Session → List (Nat × Except DocumentError DocumentSummary) × Session
  | [], s => ([], s)
  | d :: ds, s =>
    let (outcome, s) := runDocument o showContent index d s
    let (rest, s) := runDocuments o showContent (index + 1) ds s
    ((index, outcome) :: rest, s)

def summaries (outcomes : List (Nat × Except DocumentError DocumentSummary)) :
    List DocumentSummary :=
  outcomes.filterMap fun (_, outcome) => outcome.toOption

def failures (outcomes : List (Nat × Except DocumentError DocumentSummary)) :
    List (Nat × DocumentError) :=
  outcomes.filterMap fun
    | (index, .error e) => some (index, e)
    | (_, .ok _) => none

/-- Loads a file and generates its documents; a file that cannot be loaded fails the run. -/
def run (o : Options) (showContent : Bool) (input : String) (s : Session) :
    Except Specification.LoadError Result × Session :=
  match Specification.load s.files input with
  | .error e => (.error e, s)
  | .ok documents =>
    let format := (Specification.formatOf input).toOption.getD .json
    let s := s.event [] (fileLoaded input format documents.length)
    let s := s.event [] (specificationLoaded input documents.length o.seed)
    let (outcomes, s) := runDocuments o showContent 0 documents s
    (.ok ⟨input, o.seed, summaries outcomes, failures outcomes⟩, s)

def loadFailure (input : String) (e : Specification.LoadError) : String :=
  s!"load {input}: {e.chain}"

end ExamVariants.Generate
