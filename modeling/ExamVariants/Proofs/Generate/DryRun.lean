import ExamVariants.Proofs.Generate.Isolation

namespace ExamVariants.Generate

def OutputFiles.withoutPlaces (f : OutputFiles) : OutputFiles := ⟨f.target, none, none, []⟩

def VariantSummary.withoutPlaces (v : VariantSummary) : VariantSummary :=
  { v with outputs := v.outputs.map OutputFiles.withoutPlaces }

def DocumentSummary.withoutPlaces (d : DocumentSummary) : DocumentSummary :=
  { d with directory := none, variants := d.variants.map VariantSummary.withoutPlaces }

/-- Input, seed and failures stay, and of each document the index, the title and the variants with
their notations. -/
def Result.withoutPlaces (r : Result) : Result :=
  { r with documents := r.documents.map DocumentSummary.withoutPlaces }

def Options.dry (o : Options) : Options := { o with dryRun := true }

def Options.real (o : Options) : Options := { o with dryRun := false }

variable {o : Options}

theorem variantSummary_none (directory : String) (typeset : Bool) (v : PlannedVariant) :
    variantSummary none typeset v =
      (variantSummary (some directory) typeset v).withoutPlaces := by
  have houtput : OutputFiles.withoutPlaces ∘
      twinOutput typeset directory (Output.stem v.exam) = dryTwin := by
    funext t
    rfl
  rw [variantSummary, variantSummary, VariantSummary.withoutPlaces, variantOutputs, variantOutputs,
    List.map_map, houtput]

theorem planSummary_dry (index : Nat) (p : Plan) :
    planSummary o.dry index p = (planSummary o.real index p).withoutPlaces := by
  have hvariant : variantSummary none o.typeset = VariantSummary.withoutPlaces ∘
      variantSummary (some (Output.documentDirectory o.outputDirectory index)) o.typeset := by
    funext v
    exact variantSummary_none _ o.typeset v
  change DocumentSummary.mk index (p.exam.text? .title) none
    (p.variants.map (variantSummary none o.typeset)) = _
  rw [hvariant, ← List.map_map]
  rfl

/-- The plan of a document does not look at whether it will be carried out. -/
theorem documentOutcome_dry (index : Nat) (document : Document.Value) :
    documentOutcome o.dry index document =
      (documentOutcome o.real index document).map DocumentSummary.withoutPlaces := by
  have hplan : plan o.dry document = plan o.real document := rfl
  rw [documentOutcome, documentOutcome, hplan]
  cases plan o.real document with
  | error e => rfl
  | ok p => exact congrArg Except.ok (planSummary_dry index p)

theorem documentFiles_dry (index : Nat) (document : Document.Value) :
    documentFiles o.dry index document = [] := by
  rw [documentFiles]
  cases plan o.dry document with
  | error e => rfl
  | ok p => exact List.flatMap_eq_nil_iff.mpr fun v _ => rfl

theorem runFiles_dry (index : Nat) (documents : List Document.Value) :
    runFiles o.dry index documents = [] :=
  List.flatMap_eq_nil_iff.mpr fun p _ => documentFiles_dry p.2 p.1

theorem runOutcomes_dry (index : Nat) (documents : List Document.Value) :
    runOutcomes o.dry index documents = (runOutcomes o.real index documents).map
      (Prod.map id (Except.map DocumentSummary.withoutPlaces)) := by
  rw [runOutcomes, runOutcomes, List.map_map]
  congr 1
  funext p
  exact congrArg (Prod.mk p.2) (documentOutcome_dry p.2 p.1)

section Outcomes

variable (f : DocumentSummary → DocumentSummary)
  (outcomes : List (Nat × Except DocumentError DocumentSummary))

theorem summaries_map :
    summaries (outcomes.map (Prod.map id (Except.map f))) = (summaries outcomes).map f := by
  rw [summaries, summaries, List.filterMap_map, List.map_filterMap]
  congr 1
  funext p
  obtain ⟨index, outcome⟩ := p
  cases outcome <;> rfl

theorem failures_map :
    failures (outcomes.map (Prod.map id (Except.map f))) = failures outcomes := by
  rw [failures, failures, List.filterMap_map]
  congr 1
  funext p
  obtain ⟨index, outcome⟩ := p
  cases outcome <;> rfl

end Outcomes

/-- A dry run changes no file and gives what the real run gives, whether that is the error of a file
that cannot be loaded or a result, of which only the places of files are missing. -/
theorem dry_run_predicts (htypeset : o.typeset = false) (showContent : Bool) (input : String)
    (s : Session) :
    (run o.dry showContent input s).1 =
        (run o.real showContent input s).1.map Result.withoutPlaces ∧
      (run o.dry showContent input s).2.files = s.files := by
  cases hload : Specification.load s.files input with
  | error e =>
    rw [run, run, hload]
    exact ⟨rfl, rfl⟩
  | ok documents =>
    obtain ⟨dryEnd, hdry, hfiles⟩ := run_eq (o := o.dry) htypeset hload showContent
    obtain ⟨realEnd, hreal, -⟩ := run_eq (o := o.real) htypeset hload showContent
    rw [hdry, hreal, hfiles, runFiles_dry, runOutcomes_dry, summaries_map, failures_map]
    exact ⟨rfl, rfl⟩

/-- The file has a document that is generated and one that fails. -/
theorem dry_run_predicts_twoExams :
    Options.standard.typeset = false ∧
      ∃ d e, Specification.load twoExams "exams.yaml" = .ok [d, e] ∧
        (plan .standard d).isOk = true ∧ (plan .standard e).isOk = false ∧
          (run Options.standard.dry false "exams.yaml" (.ofFiles twoExams)).1 =
              (run Options.standard.real false "exams.yaml" (.ofFiles twoExams)).1.map
                Result.withoutPlaces ∧
            (run Options.standard.dry false "exams.yaml" (.ofFiles twoExams)).2.files =
              twoExams := by
  have htypeset : Options.standard.typeset = false := rfl
  obtain ⟨d, e, hload, hplan, hfails⟩ := exists_load_twoExams
  obtain ⟨hresult, hfiles⟩ :=
    dry_run_predicts htypeset false "exams.yaml" (.ofFiles twoExams)
  exact ⟨htypeset, d, e, hload, hplan, hfails, hresult, hfiles⟩

end ExamVariants.Generate
