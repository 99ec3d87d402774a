import ExamVariants.Exam.Variant
import ExamVariants.Output
import ExamVariants.Render
import ExamVariants.Specification.Load

namespace ExamVariants.Generate

structure Options where
  outputDirectory : String
  targets : List Notation
  seed : Int64
  /-- Questions per variant; every question of the document if there is none. -/
  limit : Option Nat
  typeset : Bool
  dryRun : Bool
  deriving Inhabited

def Options.standard : Options where
  outputDirectory := "output"
  targets := [.latexMidterm]
  seed := 0
  limit := none
  typeset := false
  dryRun := false

inductive DocumentError where
  | specification (source : Specification.Error)
  | variants (source : VariantError)
  | stems (clash : Output.StemClash)
  | rendering (target : Notation) (sectionName : String) (source : RenderError)
  | noFileName (tex : String)
  | typesetting (tex : String) (errors : List String)
  deriving DecidableEq, Repr

def DocumentError.message : DocumentError → String
  | specification source => s!"decode specification: {source.chain}"
  | variants source => s!"build variants: {source.message}"
  | stems clash => clash.message
  | rendering target sectionName source =>
    s!"render {target.slug} for section {sectionName}: {source.message}"
  | noFileName tex => s!"no file name in {tex}"
  | typesetting tex errors => s!"pdflatex failed on {tex}: " ++ "; ".intercalate errors

/-- A variant with its twins, one for each notation. -/
structure PlannedVariant where
  exam : Exam
  twins : List Twin

structure Plan where
  exam : Exam
  limit : Nat
  variants : List PlannedVariant

def renderTwins (variant : Exam) (targets : List Notation) : Except DocumentError (List Twin) :=
  targets.mapM fun target =>
    (renderTwin variant target).mapError (.rendering target (Output.sectionName variant))

def planVariant (targets : List Notation) (variant : Exam) : Except DocumentError PlannedVariant :=
  (fun twins => ⟨variant, twins⟩) <$> renderTwins variant targets

def Options.limitFor (o : Options) (e : Exam) : Nat := o.limit.getD e.questions.length

/-- Decodes the document, builds the variants, and renders every twin. -/
def plan (o : Options) (document : Document.Value) : Except DocumentError Plan := do
  let exam ← (Specification.decode document).mapError .specification
  let limit := o.limitFor exam
  let variants ← (exam.variants o.seed limit).mapError .variants
  (Output.checkDistinctStems variants).mapError .stems
  let planned ← variants.mapM (planVariant o.targets)
  return ⟨exam, limit, planned⟩

end ExamVariants.Generate
