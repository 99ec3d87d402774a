import ExamVariants.Generate.Run
import ExamVariants.Proofs.Document.Comparison
import ExamVariants.Proofs.Generate.Writing
import ExamVariants.Proofs.Output.Places

namespace ExamVariants.Generate

open FileTree ExamVariants.Path

variable {o : Options}

/-- The files of a document; one without a plan has none. -/
def documentFiles (o : Options) (index : Nat) (document : Document.Value) : Writes :=
  match plan o document with
  | .ok p => planFiles o index p
  | .error _ => []

def documentOutcome (o : Options) (index : Nat) (document : Document.Value) :
    Except DocumentError DocumentSummary :=
  (plan o document).map (planSummary o index)

/-- The outcome of a document and the files written for it. Only where the typesetter may run can it
stop the document on its way. -/
inductive Share (o : Options) (index : Nat) (document : Document.Value) :
    Except DocumentError DocumentSummary → Writes → Prop
  | whole : Share o index document (documentOutcome o index document)
      (documentFiles o index document)
  | stopped {e : DocumentError} {written : Writes} (htypeset : o.typeset = true)
      (hwritten : written <+: documentFiles o index document) :
      Share o index document (.error e) written

theorem Share.of_ok {index : Nat} {document : Document.Value} {summary : DocumentSummary}
    {written : Writes} (h : Share o index document (.ok summary) written) :
    documentOutcome o index document = .ok summary ∧ written = documentFiles o index document := by
  generalize houtcome : Except.ok summary = outcome at h
  cases h with
  | whole => exact ⟨rfl, rfl⟩
  | stopped => cases houtcome

theorem generateDocument_share (o : Options) (showContent : Bool) (index : Nat)
    (document : Document.Value) {s : Session} (htidy : o.typeset = true → s.Tidy) :
    ∃ outcome s' written,
      (generateDocument o showContent index document).run.run s = (outcome, s') ∧
        Share o index document outcome written ∧ (o.typeset = true → s'.Tidy) ∧
          Agree o.typeset s'.files (s.files.writeAll written) := by
  have hwhole : Share o index document _ _ := .whole
  cases hplan : plan o document with
  | error e =>
    rw [documentOutcome, documentFiles, hplan] at hwhole
    exact ⟨.error e, _, [], generateDocument_of_error hplan showContent index s, hwhole, htidy,
      .refl o.typeset s.files⟩
  | ok p =>
    rw [documentOutcome, documentFiles, hplan] at hwhole
    have hperforms := performs_generateDocument hplan showContent index s htidy
    generalize (generateDocument o showContent index document).run.run s = result at hperforms
    cases hperforms with
    | done htidy' hfiles => exact ⟨_, _, _, rfl, hwhole, htidy', hfiles⟩
    | @stopped _ _ written htypeset htidy' hwritten hfiles =>
      have hprefix : written <+: documentFiles o index document := by
        rw [documentFiles, hplan]
        exact hwritten
      exact ⟨_, _, _, rfl, .stopped htypeset hprefix, htidy', hfiles⟩

theorem runDocument_share (o : Options) (showContent : Bool) (index : Nat)
    (document : Document.Value) {s : Session} (htidy : o.typeset = true → s.Tidy) :
    ∃ outcome s' written, runDocument o showContent index document s = (outcome, s') ∧
      Share o index document outcome written ∧ (o.typeset = true → s'.Tidy) ∧
        Agree o.typeset s'.files (s.files.writeAll written) := by
  obtain ⟨outcome, s', written, hrun, hshare, htidy', hfiles⟩ :=
    generateDocument_share o showContent index document htidy
  rw [runDocument, hrun]
  cases outcome with
  | ok summary => exact ⟨_, _, written, rfl, hshare, htidy', hfiles⟩
  | error e => exact ⟨_, _, written, rfl, hshare, htidy', hfiles⟩

/-- The outcomes of the documents from `index` on, and the files written for them. -/
inductive Shares (o : Options) : Nat → List Document.Value →
    List (Nat × Except DocumentError DocumentSummary) → Writes → Prop
  | nil {index : Nat} : Shares o index [] [] []
  | cons {index : Nat} {document : Document.Value} {documents : List Document.Value}
      {outcome : Except DocumentError DocumentSummary}
      {outcomes : List (Nat × Except DocumentError DocumentSummary)} {written rest : Writes}
      (hshare : Share o index document outcome written)
      (hrest : Shares o (index + 1) documents outcomes rest) :
      Shares o index (document :: documents) ((index, outcome) :: outcomes) (written ++ rest)

theorem runDocuments_shares (o : Options) (showContent : Bool) (index : Nat)
    (documents : List Document.Value) {s : Session} (htidy : o.typeset = true → s.Tidy) :
    ∃ outcomes s' written, runDocuments o showContent index documents s = (outcomes, s') ∧
      Shares o index documents outcomes written ∧
        Agree o.typeset s'.files (s.files.writeAll written) := by
  induction documents generalizing index s with
  | nil => exact ⟨[], s, [], rfl, .nil, .refl o.typeset s.files⟩
  | cons document documents ih =>
    obtain ⟨outcome, s₁, written, hrun, hshare, htidy₁, hfiles⟩ :=
      runDocument_share o showContent index document htidy
    obtain ⟨outcomes, s₂, rest, hrunRest, hrest, hfilesRest⟩ := ih (index + 1) htidy₁
    rw [runDocuments, hrun]
    dsimp only
    rw [hrunRest]
    exact ⟨_, s₂, written ++ rest, rfl, .cons hshare hrest, hfiles.append hfilesRest⟩

theorem run_shares (o : Options) (showContent : Bool) {input : String} {s : Session}
    {documents : List Document.Value} (hload : Specification.load s.files input = .ok documents)
    (htidy : o.typeset = true → s.Tidy) :
    ∃ outcomes s' written, run o showContent input s =
        (.ok ⟨input, o.seed, summaries outcomes, failures outcomes⟩, s') ∧
      Shares o 0 documents outcomes written ∧
        Agree o.typeset s'.files (s.files.writeAll written) := by
  rw [run, hload]
  dsimp only
  generalize hlogged : Session.event _ [] _ = logged
  have hfiles : logged.files = s.files := by
    rw [← hlogged]
    rfl
  have htidy' (htypeset : o.typeset = true) : logged.Tidy := by
    rw [← hlogged]
    exact htidy htypeset
  obtain ⟨outcomes, s', written, hrun, hshares, hagree⟩ :=
    runDocuments_shares o showContent 0 documents htidy'
  rw [hfiles] at hagree
  rw [hrun]
  exact ⟨outcomes, s', written, rfl, hshares, hagree⟩

def runFiles (o : Options) (index : Nat) (documents : List Document.Value) : Writes :=
  (documents.zipIdx index).flatMap fun (document, k) => documentFiles o k document

def runOutcomes (o : Options) (index : Nat) (documents : List Document.Value) :
    List (Nat × Except DocumentError DocumentSummary) :=
  (documents.zipIdx index).map fun (document, k) => (k, documentOutcome o k document)

section Shares

variable {index : Nat} {documents : List Document.Value}
  {outcomes : List (Nat × Except DocumentError DocumentSummary)} {written : Writes}

theorem Shares.whole (h : Shares o index documents outcomes written) (htypeset : o.typeset = false) :
    outcomes = runOutcomes o index documents ∧ written = runFiles o index documents := by
  induction h with
  | nil => exact ⟨rfl, rfl⟩
  | cons hshare hrest ih =>
    obtain ⟨rfl, rfl⟩ := ih
    cases hshare with
    | whole => exact ⟨rfl, rfl⟩
    | stopped htypeset' => simp [htypeset] at htypeset'

theorem Shares.sublist (h : Shares o index documents outcomes written) :
    written.Sublist (runFiles o index documents) := by
  induction h with
  | nil => exact List.nil_sublist _
  | cons hshare hrest ih =>
    cases hshare with
    | whole => exact ih.append_left _
    | stopped htypeset hwritten => exact hwritten.sublist.append ih

theorem Shares.of_mem_summaries (h : Shares o index documents outcomes written)
    {summary : DocumentSummary} (hsummary : summary ∈ summaries outcomes) :
    ∃ k document, (document, k) ∈ documents.zipIdx index ∧
      documentOutcome o k document = .ok summary ∧ documentFiles o k document ⊆ written := by
  induction h with
  | nil => simp [summaries] at hsummary
  | @cons index document documents outcome outcomes written rest hshare hrest ih =>
    have hlater (hmem : summary ∈ summaries outcomes) :
        ∃ k d, (d, k) ∈ (document :: documents).zipIdx index ∧
          documentOutcome o k d = .ok summary ∧ documentFiles o k d ⊆ written ++ rest := by
      obtain ⟨k, d, hmem, houtcome, hfiles⟩ := ih hmem
      exact ⟨k, d, List.mem_cons_of_mem _ hmem, houtcome,
        List.subset_append_of_subset_right _ hfiles⟩
    cases outcome with
    | error e => exact hlater hsummary
    | ok first =>
      rcases List.mem_cons.mp hsummary with rfl | hmem
      · obtain ⟨houtcome, rfl⟩ := hshare.of_ok
        exact ⟨index, document, List.mem_cons_self, houtcome, List.subset_append_left _ _⟩
      · exact hlater hmem

end Shares

theorem exists_filePath_of_mem_twinFiles {directory stem : String} {t : Twin} {w : String × String}
    (h : w ∈ twinFiles directory stem t) :
    ∃ solutions, w.1 = Output.filePath directory t.target solutions stem := by
  rcases List.mem_pair.mp h with hw | hw
  · exact ⟨false, by rw [hw]⟩
  · exact ⟨true, by rw [hw]⟩

theorem exists_filePath_of_mem_variantFiles {directory : Option String} {v : PlannedVariant}
    {w : String × String} (h : w ∈ variantFiles directory v) :
    ∃ d target solutions, directory = some d ∧
      w.1 = Output.filePath d target solutions (Output.stem v.exam) := by
  cases directory with
  | none => simp [variantFiles] at h
  | some d =>
    obtain ⟨t, -, ht⟩ := List.mem_flatMap.mp h
    obtain ⟨solutions, hpath⟩ := exists_filePath_of_mem_twinFiles ht
    exact ⟨d, t.target, solutions, rfl, hpath⟩

theorem exists_filePath_of_mem_documentFiles {index : Nat} {document : Document.Value}
    {w : String × String} (h : w ∈ documentFiles o index document) :
    ∃ d target solutions stem, o.directoryFor index = some d ∧ '/' ∉ stem.toList ∧
      w.1 = Output.filePath d target solutions stem := by
  rw [documentFiles] at h
  cases hplan : plan o document with
  | error e => simp [hplan] at h
  | ok p =>
    simp only [hplan, planFiles] at h
    obtain ⟨v, -, hv⟩ := List.mem_flatMap.mp h
    obtain ⟨d, target, solutions, hdirectory, hpath⟩ := exists_filePath_of_mem_variantFiles hv
    exact ⟨d, target, solutions, Output.stem v.exam, hdirectory,
      Output.slash_notMem_sectionStem _, hpath⟩

/-- No two documents write to one place. -/
theorem eq_of_locate_eq {j k : Nat} {d e : Document.Value} {w w' : String × String}
    (hw : w ∈ documentFiles o j d) (hw' : w' ∈ documentFiles o k e)
    (h : locate w.1 = locate w'.1) : j = k := by
  obtain ⟨directory, target, solutions, stem, hdirectory, hstem, hpath⟩ :=
    exists_filePath_of_mem_documentFiles hw
  obtain ⟨directory', target', solutions', stem', hdirectory', hstem', hpath'⟩ :=
    exists_filePath_of_mem_documentFiles hw'
  rw [hpath, hpath'] at h
  have hsame := (Output.of_locate_filePath_eq hstem hstem' h).1
  rw [Options.directoryFor] at hdirectory hdirectory'
  split at hdirectory
  · cases hdirectory
  · next hdry =>
    rw [if_neg hdry] at hdirectory'
    cases hdirectory
    cases hdirectory'
    exact Output.locate_documentDirectory_injective o.outputDirectory hsame

theorem runFiles_append (o : Options) (index : Nat) (before after : List Document.Value) :
    runFiles o index (before ++ after) =
      runFiles o index before ++ runFiles o (index + before.length) after := by
  rw [runFiles, List.zipIdx_append, List.flatMap_append, runFiles, runFiles]

theorem runFiles_cons (o : Options) (index : Nat) (document : Document.Value)
    (documents : List Document.Value) :
    runFiles o index (document :: documents) =
      documentFiles o index document ++ runFiles o (index + 1) documents := rfl

theorem exists_mem_documentFiles_of_mem_runFiles {index : Nat} {documents : List Document.Value}
    {w : String × String} (h : w ∈ runFiles o index documents) :
    ∃ k document, index ≤ k ∧ w ∈ documentFiles o k document := by
  obtain ⟨⟨document, k⟩, hmem, hw⟩ := List.mem_flatMap.mp h
  exact ⟨k, document, (List.mem_zipIdx hmem).1, hw⟩

/-- The files of a document are in the end as it wrote them, whatever the other documents write. -/
theorem find?_writeAll_runFiles {documents : List Document.Value} {k : Nat}
    {document : Document.Value} (hdocument : documents[k]? = some document) {place : Location}
    (hplace : place ∈ (documentFiles o k document).places) (t u : FileTree) :
    (t.writeAll (runFiles o 0 documents)).find? place =
      (u.writeAll (documentFiles o k document)).find? place := by
  obtain ⟨hk, rfl⟩ := List.getElem?_eq_some_iff.mp hdocument
  have hfiles : runFiles o 0 documents = runFiles o 0 (documents.take k) ++
      (documentFiles o k documents[k] ++ runFiles o (k + 1) (documents.drop (k + 1))) := by
    have hlength : 0 + (documents.take k).length = k := by simp [Nat.le_of_lt hk]
    rw [← runFiles_cons, List.getElem_cons_drop]
    conv_lhs => rw [← List.take_append_drop k documents, runFiles_append, hlength]
  -- Earlier files do not matter, as this document writes over them; later ones lie elsewhere.
  have hlater : place ∉ (runFiles o (k + 1) (documents.drop (k + 1))).places := by
    intro hmem
    obtain ⟨w, hw, rfl⟩ := List.mem_map.mp hplace
    obtain ⟨w', hw', hsame⟩ := List.mem_map.mp hmem
    obtain ⟨j, d, hj, hw'⟩ := exists_mem_documentFiles_of_mem_runFiles hw'
    have hjk := eq_of_locate_eq hw' hw hsame
    omega
  rw [hfiles, writeAll_append, writeAll_append, find?_writeAll_of_notMem _ hlater]
  exact find?_writeAll_congr _ u hplace

def twoExams : FileTree :=
  FileTree.empty.write "exams.yaml" (.text ("- parameters:\n    SECTIONS: [A01]\n" ++
    "  questions:\n  - type: true-false\n    statement: Snow\n    answer: true\n    points: 1\n" ++
    "- none\n"))

theorem exists_load_twoExams :
    ∃ d e, Specification.load twoExams "exams.yaml" = .ok [d, e] ∧
      (plan .standard d).isOk = true ∧ (plan .standard e).isOk = false := by
  have hplans : (Specification.load twoExams "exams.yaml").map
      (List.map fun document => (plan .standard document).isOk) = .ok [true, false] := by
    decide +kernel
  cases hload : Specification.load twoExams "exams.yaml" with
  | error e =>
    rw [hload] at hplans
    cases hplans
  | ok documents =>
    rw [hload] at hplans
    obtain ⟨d, rest, rfl, hd, hrest⟩ := List.map_eq_cons_iff.mp (Except.ok.inj hplans)
    obtain ⟨e, rest, rfl, he, hrest⟩ := List.map_eq_cons_iff.mp hrest
    obtain rfl := List.map_eq_nil_iff.mp hrest
    exact ⟨d, e, rfl, hd, he⟩

/-- The first of the two by itself, in another format. -/
def oneExam : FileTree :=
  FileTree.empty.write "exam.json" (.text ("\x7b\"parameters\": \x7b\"SECTIONS\": [\"A01\"]\x7d, " ++
    "\"questions\": [\x7b\"type\": \"true-false\", \"statement\": \"Snow\", \"answer\": true, " ++
    "\"points\": 1\x7d]\x7d"))

theorem load_oneExam {d e : Document.Value}
    (h : Specification.load twoExams "exams.yaml" = .ok [d, e]) :
    Specification.load oneExam "exam.json" = .ok [d] := by
  have hsame : ((Specification.load twoExams "exams.yaml").bind fun ds =>
      (Specification.load oneExam "exam.json").map (Document.Value.sameEach (ds.take 1))) =
        .ok true := by
    decide +kernel
  rw [h] at hsame
  cases hload : Specification.load oneExam "exam.json" with
  | error e =>
    rw [hload] at hsame
    cases hsame
  | ok documents =>
    rw [hload] at hsame
    rw [← Document.Value.eq_of_sameEach (Except.ok.inj hsame)]
    rfl

end ExamVariants.Generate
