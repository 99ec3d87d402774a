import ExamVariants.Generate.Plan
import ExamVariants.Log.Record

namespace ExamVariants.Generate

open Log

namespace Target

def commands : String := "examgen::commands"
def generate : String := "examgen_cli::generate"
def loader : String := "examgen_ingest::loader"
def specification : String := "examgen_ingest::specification"
def variant : String := "examgen_model::variant"
def latex : String := "examgen_report::latex"
def render : String := "examgen_report::render"
def writer : String := "examgen_report::writer"

end Target

def documentSpan (index : Nat) : Span :=
  ⟨Target.generate, .info, "document", [.ofNat "index" index]⟩

def variantSpan (sectionName : String) : Span :=
  ⟨Target.generate, .info, "variant", [⟨"section", sectionName⟩]⟩

def fileLoaded (path : String) (format : Specification.FileFormat) (count : Nat) : Event :=
  ⟨.debug, Target.loader, "loaded specification file",
    [⟨"path", path⟩, .ofText "format" format.name, .ofNat "document_count" count]⟩

def specificationLoaded (path : String) (count : Nat) (seed : Int64) : Event :=
  ⟨.info, Target.generate, "loaded specification",
    [⟨"input", path⟩, .ofNat "documents" count, .ofSeed "seed" seed]⟩

def randomSeed (seed : Int64) : Event :=
  ⟨.info, Target.commands, "no seed given, drew a random one", [.ofSeed "seed" seed]⟩

def parsed (e : Exam) : Event :=
  ⟨.debug, Target.specification, "parsed specification",
    [.ofNat "parameter_count" e.parameters.bound.length,
      .ofNat "question_count" e.questions.length]⟩

def building (seed : Int64) (limit index : Nat) (s : Section) : Event :=
  ⟨.debug, Target.variant, "building variant",
    [⟨"section", s.name⟩, .ofSeed "seed" (Exam.sectionSeed seed index), .ofNat "limit" limit]⟩

def built (limit : Nat) (variants : List Exam) : Event :=
  ⟨.info, Target.generate, "built variants",
    [.ofNat "variants" variants.length, .ofNat "limit" limit]⟩

def rendered (t : Twin) : Event :=
  ⟨.debug, Target.render, "rendered twin",
    [.ofText "notation" t.target.slug, .ofNat "examination_bytes" t.examination.utf8ByteSize,
      .ofNat "solutions_bytes" t.solutions.utf8ByteSize]⟩

/-- A block of code that stands in an argument is noted before the rendering fails. -/
def renderFault : RenderError → List Event
  | .codeInArgument target path =>
    [⟨.debug, Target.latex, "code block in argument position",
      [.ofText "path" path.label, .ofText "notation" target.slug]⟩]
  | _ => []

/-- The events of rendering one variant after another in each notation, up to the first failure. -/
def renderings : List (Exam × Notation) → List Event
  | [] => []
  | (variant, target) :: rest =>
    match renderTwin variant target with
    | .ok t => rendered t :: renderings rest
    | .error e => renderFault e

def planning (o : Options) (document : Document.Value) : List Event :=
  match Specification.decode document with
  | .error _ => []
  | .ok exam =>
    let limit := o.limitFor exam
    parsed exam ::
      match exam.variants o.seed limit, exam.sections with
      | .ok variants, .ok sections =>
        sections.mapIdx (building o.seed limit) ++ built limit variants ::
          match Output.checkDistinctStems variants with
          | .error _ => []
          | .ok _ => renderings (variants.flatMap fun v => o.targets.map fun t => (v, t))
      | _, _ => []

def documentFailed (e : DocumentError) : Event :=
  ⟨.error, Target.generate, s!"document failed: {e.message}", []⟩

def redacted : String := "[REDACTED]"

/-- A question of a variant, whose statement shows only when content may be logged. -/
def question (showContent : Bool) (index : Nat) (q : Question) : Event :=
  ⟨.trace, Target.generate, "question",
    [.ofNat "number" (index + 1), ⟨"kind", q.kind.name⟩, .ofNat "points" q.points,
      .ofText "statement" (if showContent then q.header.text else redacted)]⟩

def wrote (target : Notation) (examination solutions : String) : Event :=
  ⟨.info, Target.writer, "wrote variant",
    [.ofText "notation" target.slug, ⟨"examination", examination⟩, ⟨"solutions", solutions⟩]⟩

end ExamVariants.Generate
