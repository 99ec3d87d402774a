import ExamVariants.CommandLine.Invocation
import ExamVariants.Proofs.Generate.Documents

namespace ExamVariants.Generate

open FileTree ExamVariants.Path

variable {o : Options}

theorem nodup_places_twinFiles {stem : String} (h : '/' ∉ stem.toList) (directory : String)
    (t : Twin) : (twinFiles directory stem t).places.Nodup := by
  have hhalves : locate (Output.filePath directory t.target false stem) ≠
      locate (Output.filePath directory t.target true stem) := by
    intro hsame
    have hhalf := (Output.of_locate_filePath_eq h h hsame).2.2.1
    cases hhalf
  simpa [twinFiles, Writes.places] using hhalves

theorem nodup_places_variantFiles {v : PlannedVariant} (h : (v.twins.map Twin.target).Nodup)
    (directory : Option String) : (variantFiles directory v).places.Nodup := by
  have hstem : '/' ∉ (Output.stem v.exam).toList := Output.slash_notMem_sectionStem _
  cases directory with
  | none => exact List.nodup_nil
  | some directory =>
    refine nodup_places_flatMap h (fun t _ => nodup_places_twinFiles hstem directory t) ?_
    intro t _ u _ f hf g hg hsame
    obtain ⟨solutions, hf⟩ := exists_filePath_of_mem_twinFiles hf
    obtain ⟨solutions', hg⟩ := exists_filePath_of_mem_twinFiles hg
    rw [hf, hg] at hsame
    exact (Output.of_locate_filePath_eq hstem hstem hsame).2.1

theorem map_target_of_renderTwins {variant : Exam} {targets : List Notation} {twins : List Twin}
    (h : renderTwins variant targets = .ok twins) : twins.map Twin.target = targets := by
  rw [renderTwins_eq_ok_iff] at h
  have htargets : List.Forall₂ (fun target t => target = t.target) targets twins :=
    h.imp fun target t ht => (renderTwin_eq_ok_iff.mp ht).1.symm
  rw [← List.forall₂_map_right_iff, List.forall₂_eq_eq_eq] at htargets
  exact htargets.symm

theorem of_plan {p : Plan} {document : Document.Value} (h : plan o document = .ok p) :
    (p.variants.map fun v => Output.stem v.exam).Nodup ∧
      ∀ v ∈ p.variants, v.twins.map Twin.target = o.targets := by
  obtain ⟨-, -, variants, -, hstems, hplanned⟩ := plan_eq_ok_iff.mp h
  have hexams : List.Forall₂ (fun variant v => variant = PlannedVariant.exam v) variants
      p.variants := hplanned.imp fun variant v hv => (planVariant_eq_ok_iff.mp hv).1.symm
  rw [← List.forall₂_map_right_iff, List.forall₂_eq_eq_eq] at hexams
  have htwins := hplanned.flip.imp fun v variant hv =>
    And.intro (map_target_of_renderTwins (planVariant_eq_ok_iff.mp hv).2) hv
  rw [hexams, Output.checkDistinctStems_eq_ok_iff, List.map_map] at hstems
  exact ⟨hstems, ((List.forall₂_and_left _ _).mp htwins).1⟩

theorem nodup_places_documentFiles (htargets : o.targets.Nodup) (index : Nat)
    (document : Document.Value) : (documentFiles o index document).places.Nodup := by
  rw [documentFiles]
  cases hplan : plan o document with
  | error e => exact List.nodup_nil
  | ok p =>
    obtain ⟨hstems, htwins⟩ := of_plan hplan
    refine nodup_places_flatMap hstems (fun v hv => ?_) ?_
    · exact nodup_places_variantFiles (htwins v hv ▸ htargets) _
    · intro v _ w _ f hf g hg hsame
      obtain ⟨d, target, solutions, -, hf⟩ := exists_filePath_of_mem_variantFiles hf
      obtain ⟨d', target', solutions', -, hg⟩ := exists_filePath_of_mem_variantFiles hg
      rw [hf, hg] at hsame
      exact (Output.of_locate_filePath_eq (Output.slash_notMem_sectionStem _)
        (Output.slash_notMem_sectionStem _) hsame).2.2.2

theorem nodup_places_runFiles (htargets : o.targets.Nodup) (index : Nat)
    (documents : List Document.Value) : (runFiles o index documents).places.Nodup := by
  have hindices : ((documents.zipIdx index).map Prod.snd).Nodup := by
    rw [List.zipIdx_map_snd]
    exact List.nodup_range'
  -- Numbered directories keep documents apart; stems, notations and halves the files of each.
  refine nodup_places_flatMap hindices (fun p _ => nodup_places_documentFiles htargets _ _) ?_
  intro p _ q _ f hf g hg hsame
  exact eq_of_locate_eq hf hg hsame

theorem not_inPdf_of_mem_runFiles {index : Nat} {documents : List Document.Value}
    {w : String × String} (h : w ∈ runFiles o index documents) : ¬ InPdf (locate w.1) := by
  obtain ⟨k, document, -, hw⟩ := exists_mem_documentFiles_of_mem_runFiles h
  obtain ⟨d, target, solutions, stem, -, hstem, hpath⟩ := exists_filePath_of_mem_documentFiles hw
  rw [hpath, Output.locate_filePath hstem, InPdf]
  cases solutions <;> simp [Output.halfDirectory]

def OutputFiles.path? (f : OutputFiles) (solutions : Bool) : Option String :=
  if solutions then f.solutions else f.examination

/-- Both paths of a variant in a notation lie in the directory and hold the half rendered. -/
def Holds (t : FileTree) (directory : Option String) (variant : Exam) (target : Notation)
    (f : OutputFiles) : Prop :=
  f.target = target ∧ ∀ solutions,
    f.path? solutions =
        directory.map (Output.filePath · target solutions (Output.stem variant)) ∧
      ∀ path, f.path? solutions = some path →
        ∃ text, render variant target solutions = .ok text ∧
          t.find? (locate path) = some (.text text)

/-- The summary records the outputs of every variant of the document in every notation. -/
def Recorded (o : Options) (document : Document.Value) (t : FileTree) (summary : DocumentSummary) :
    Prop :=
  summary.directory = o.directoryFor summary.index ∧
    ∃ exam variants, Specification.decode document = .ok exam ∧
      exam.variants o.seed (o.limitFor exam) = .ok variants ∧
        List.Forall₂ (fun variant v => v.sectionName = Output.sectionName variant ∧
          List.Forall₂ (Holds t summary.directory variant) o.targets v.outputs)
          variants summary.variants

theorem forall₂_and_right {α β : Type} {R : α → β → Prop} {p : β → Prop} {xs : List α}
    {ys : List β} (h : List.Forall₂ R xs ys) (hp : ∀ y ∈ ys, p y) :
    List.Forall₂ (fun x y => p y ∧ R x y) xs ys :=
  ((List.forall₂_and_left _ _).mpr ⟨hp, h.flip⟩).flip

theorem holds_twinOutput {t : FileTree} {directory : String} {variant : Exam} {target : Notation}
    {twin : Twin} (hrender : renderTwin variant target = .ok twin)
    (hfiles : ∀ w ∈ twinFiles directory (Output.stem variant) twin,
      t.find? (locate w.1) = some (.text w.2)) (typeset : Bool) :
    Holds t (some directory) variant target
      (twinOutput typeset directory (Output.stem variant) twin) := by
  obtain ⟨rfl, hexamination, hsolutions⟩ := renderTwin_eq_ok_iff.mp hrender
  simp only [twinFiles, List.forall_mem_cons] at hfiles
  obtain ⟨hexaminationFile, hsolutionsFile, -⟩ := hfiles
  refine ⟨rfl, fun solutions => ⟨by cases solutions <;> rfl, fun path hpath => ?_⟩⟩
  cases solutions with
  | false =>
    simp only [OutputFiles.path?, twinOutput, Bool.false_eq_true, if_false,
      Option.some.injEq] at hpath
    exact ⟨twin.examination, hexamination, hpath ▸ hexaminationFile⟩
  | true =>
    simp only [OutputFiles.path?, twinOutput, if_true, Option.some.injEq] at hpath
    exact ⟨twin.solutions, hsolutions, hpath ▸ hsolutionsFile⟩

theorem holds_dryTwin {variant : Exam} {target : Notation} {twin : Twin}
    (hrender : renderTwin variant target = .ok twin) (t : FileTree) :
    Holds t none variant target (dryTwin twin) := by
  refine ⟨(renderTwin_eq_ok_iff.mp hrender).1, fun solutions => ?_⟩
  cases solutions with
  | false => exact ⟨rfl, fun path hpath => nomatch hpath⟩
  | true => exact ⟨rfl, fun path hpath => nomatch hpath⟩

theorem holds_variantOutputs {t : FileTree} {directory : Option String} {v : PlannedVariant}
    (hrender : renderTwins v.exam o.targets = .ok v.twins)
    (hfiles : ∀ w ∈ variantFiles directory v, t.find? (locate w.1) = some (.text w.2))
    (typeset : Bool) :
    List.Forall₂ (Holds t directory v.exam) o.targets (variantOutputs directory typeset v) := by
  rw [renderTwins_eq_ok_iff] at hrender
  cases directory with
  | none =>
    rw [variantOutputs, List.forall₂_map_right_iff]
    exact hrender.imp fun target twin htwin => holds_dryTwin htwin t
  | some d =>
    have hmem : ∀ twin ∈ v.twins, ∀ w ∈ twinFiles d (Output.stem v.exam) twin,
        t.find? (locate w.1) = some (.text w.2) :=
      fun twin htwin w hw => hfiles w (List.mem_flatMap.mpr ⟨twin, htwin, hw⟩)
    rw [variantOutputs, List.forall₂_map_right_iff]
    exact (forall₂_and_right hrender hmem).imp fun target twin htwin =>
      holds_twinOutput htwin.2 htwin.1 typeset

theorem recorded_documentOutcome {index : Nat} {document : Document.Value} {t : FileTree}
    {summary : DocumentSummary} (hsummary : documentOutcome o index document = .ok summary)
    (hfiles : ∀ w ∈ documentFiles o index document, t.find? (locate w.1) = some (.text w.2)) :
    summary.index = index ∧ Recorded o document t summary := by
  rw [documentOutcome] at hsummary
  cases hplan : plan o document with
  | error e =>
    rw [hplan] at hsummary
    cases hsummary
  | ok p =>
    rw [hplan] at hsummary
    obtain rfl := Except.ok.inj hsummary
    obtain ⟨hdecode, hlimit, variants, hvariants, -, hplanned⟩ := plan_eq_ok_iff.mp hplan
    rw [documentFiles, hplan] at hfiles
    -- The files of each variant are among those of the document.
    have hmem : ∀ v ∈ p.variants, ∀ w ∈ variantFiles (o.directoryFor index) v,
        t.find? (locate w.1) = some (.text w.2) :=
      fun v hv w hw => hfiles w (List.mem_flatMap.mpr ⟨v, hv, hw⟩)
    refine ⟨rfl, rfl, p.exam, variants, hdecode, hlimit ▸ hvariants, ?_⟩
    rw [planSummary, List.forall₂_map_right_iff]
    refine (forall₂_and_right hplanned hmem).imp fun variant v hv => ?_
    obtain ⟨rfl, htwins⟩ := planVariant_eq_ok_iff.mp hv.2
    exact ⟨rfl, holds_variantOutputs htwins hv.1 o.typeset⟩

theorem nodup_eraseDups : ∀ targets : List Notation, targets.eraseDups.Nodup
  | [] => List.nodup_nil
  | target :: targets => by
    have hrest := nodup_eraseDups (targets.filter fun t => !t == target)
    rw [List.eraseDups_cons, List.nodup_cons]
    exact ⟨by simp, hrest⟩
termination_by targets => targets.length
decreasing_by exact Nat.lt_succ_of_le (List.length_filter_le _ _)

theorem nodup_targetsOf (names : List String) : (CommandLine.targetsOf names).Nodup := by
  have hgiven := nodup_eraseDups (names.filterMap Notation.ofName?)
  rw [CommandLine.targetsOf]
  split
  · exact List.nodup_singleton _
  · exact hgiven

/-- No file of a run is written over by another: all that is written goes to different places, and
every recorded path holds what was rendered for it. Two variants of a document with one stem would
share their files, and the check of the stems refuses exactly these. -/
theorem run_overwrites_nothing (htargets : o.targets.Nodup) {input : String} {s : Session}
    {documents : List Document.Value} (hload : Specification.load s.files input = .ok documents)
    (htidy : o.typeset = true → s.Tidy) (showContent : Bool) :
    (∃ r s' written, run o showContent input s = (.ok r, s') ∧
      Agree o.typeset s'.files (s.files.writeAll written) ∧
      written.Sublist (runFiles o 0 documents) ∧
      (o.typeset = false → written = runFiles o 0 documents) ∧ written.places.Nodup ∧
      ∀ summary ∈ r.documents, ∃ document, documents[summary.index]? = some document ∧
        Recorded o document s'.files summary) ∧
    (∀ names, (CommandLine.targetsOf names).Nodup) ∧
    (∀ variants, Output.checkDistinctStems variants = .ok () ↔
      (variants.map Output.stem).Nodup) ∧
    ∀ variants clash, Output.checkDistinctStems variants = .error clash ↔
      ∃ before v after u, variants = before ++ v :: after ∧ (before.map Output.stem).Nodup ∧
        u ∈ before ∧ Output.stem u = Output.stem v ∧
          clash = ⟨Output.sectionName u, Output.sectionName v⟩ := by
  refine ⟨?_, nodup_targetsOf, fun _ => Output.checkDistinctStems_eq_ok_iff,
    fun _ _ => Output.checkDistinctStems_eq_error_iff⟩
  obtain ⟨outcomes, s', written, hrun, hshares, hfiles⟩ := run_shares o showContent hload htidy
  have hplaces : written.places.Nodup :=
    (nodup_places_runFiles htargets 0 documents).sublist (hshares.sublist.map _)
  have hholds : ∀ w ∈ written, s'.files.find? (locate w.1) = some (.text w.2) := by
    -- What the typesetter leaves behind lies in directories of its own.
    intro w hw
    have hpdf := not_inPdf_of_mem_runFiles (hshares.sublist.subset hw)
    rw [hfiles.find?_eq _ hpdf, find?_writeAll_of_mem s.files hplaces hw]
  refine ⟨_, s', written, hrun, hfiles, hshares.sublist, fun h => (hshares.whole h).2, hplaces, ?_⟩
  intro summary hsummary
  obtain ⟨k, document, hmem, houtcome, hwritten⟩ := hshares.of_mem_summaries hsummary
  obtain ⟨rfl, hrecorded⟩ :=
    recorded_documentOutcome houtcome fun w hw => hholds w (hwritten hw)
  exact ⟨document, List.mem_zipIdx_iff_getElem?.mp hmem, hrecorded⟩

/-- Two notations, typeset, beside a directory without a name. -/
def besideParent : Options :=
  { Options.standard with
    outputDirectory := ".."
    targets := [.moodleXml, .latexQuiz]
    typeset := true }

theorem run_overwrites_nothing_besideParent :
    besideParent.targets.Nodup ∧ (Session.ofFiles twoExams).Tidy ∧
      ∃ d e, Specification.load twoExams "exams.yaml" = .ok [d, e] ∧ ∃ r s' written,
        run besideParent false "exams.yaml" (.ofFiles twoExams) = (.ok r, s') ∧
          Agree true s'.files (twoExams.writeAll written) ∧ written.places.Nodup ∧
            ∀ summary ∈ r.documents, ∃ document, [d, e][summary.index]? = some document ∧
              Recorded besideParent document s'.files summary := by
  have htargets : besideParent.targets.Nodup := by decide
  have htidy : (Session.ofFiles twoExams).Tidy := nofun
  obtain ⟨d, e, hload, -⟩ := exists_load_twoExams
  obtain ⟨⟨r, s', written, hrun, hfiles, -, -, hplaces, hrecorded⟩, -⟩ :=
    run_overwrites_nothing (s := .ofFiles twoExams) htargets hload (fun _ => htidy) false
  exact ⟨htargets, htidy, d, e, hload, r, s', written, hrun, hfiles, hplaces, hrecorded⟩

end ExamVariants.Generate
