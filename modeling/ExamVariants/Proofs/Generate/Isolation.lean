import ExamVariants.Proofs.Generate.Documents
import Mathlib.Data.List.TakeWhile

namespace ExamVariants.Generate

open FileTree ExamVariants.Path

variable {o : Options}

section Indices

variable {α : Type}

theorem filter_zipIdx_of_lt (xs : List α) {index k : Nat} (h : k < index) :
    (xs.zipIdx index).filter (fun p => p.2 == k) = [] := by
  rw [List.filter_eq_nil_iff]
  intro p hp
  have hindex := (List.mem_zipIdx (x := p.1) (i := p.2) hp).1
  rw [beq_iff_eq]
  omega

theorem filter_zipIdx (xs : List α) (index k : Nat) :
    (xs.zipIdx index).filter (fun p => p.2 == index + k) =
      (xs[k]?.map fun x => (x, index + k)).toList := by
  induction xs generalizing index k with
  | nil => rfl
  | cons x xs ih =>
    rw [List.zipIdx_cons]
    cases k with
    | zero => simp [filter_zipIdx_of_lt]
    | succ k =>
      have hrest := ih (index + 1) k
      rw [Nat.add_right_comm, Nat.add_assoc] at hrest
      rw [List.filter_cons_of_neg (by simp), hrest, List.getElem?_cons_succ]

theorem filter_filterMap_zipIdx {β : Type} (xs : List α) {f : α × Nat → Option β} {q : β → Bool}
    {k : Nat} (hq : ∀ p b, f p = some b → q b = (p.2 == k)) :
    (xs.zipIdx.filterMap f).filter q = (xs[k]?.bind fun x => f (x, k)).toList := by
  have hfilter : (xs.zipIdx.filterMap f).filter q = (xs.zipIdx.filter (·.2 == k)).filterMap f := by
    rw [List.filter_filterMap, List.filterMap_filter]
    congr 1
    funext p
    cases hf : f p with
    | none => simp
    | some b =>
      rw [Option.filter_some, hq p b hf]
  have hitem := filter_zipIdx xs 0 k
  rw [Nat.zero_add] at hitem
  rw [hfilter, hitem]
  cases xs[k]? with
  | none => rfl
  | some x => cases hf : f (x, k) <;> simp [hf]

theorem pairwise_zipIdx (xs : List α) (index : Nat) :
    (xs.zipIdx index).Pairwise fun p q => p.2 < q.2 := by
  have hindices : ((xs.zipIdx index).map Prod.snd).Pairwise (· < ·) := by
    rw [List.zipIdx_map_snd]
    exact List.pairwise_lt_range'
  exact List.pairwise_map.mp hindices

end Indices

/-- What an error of the document with an index starts with. -/
def opening (index : Nat) : String := "document " ++ toString index ++ ": "

def errorText (index : Nat) (e : DocumentError) : String := opening index ++ e.message

def tells (index : Nat) (text : String) : Bool := (opening index).toList.isPrefixOf text.toList

theorem tells_iff {index : Nat} {text : String} :
    tells index text = true ↔ ∃ rest, text.toList = (opening index).toList ++ rest := by
  rw [tells, List.isPrefixOf_iff_prefix]
  exact ⟨fun ⟨rest, hrest⟩ => ⟨rest, hrest.symm⟩, fun ⟨rest, hrest⟩ => ⟨rest, hrest.symm⟩⟩

theorem tells_errorText (index : Nat) (e : DocumentError) :
    tells index (errorText index e) = true :=
  tells_iff.mpr ⟨e.message.toList, String.toList_append⟩

theorem eq_of_tells {j k : Nat} {text : String} (hj : tells j text = true)
    (hk : tells k text = true) : j = k := by
  -- A text has the index before its first colon, as digits are no colons.
  have hnumber {index : Nat} (h : tells index text = true) :
      text.toList.takeWhile (· ≠ ':') = "document ".toList ++ (toString index).toList := by
    obtain ⟨rest, hrest⟩ := tells_iff.mp h
    have hchars : ∀ c ∈ "document ".toList ++ (toString index).toList, decide (c ≠ ':') = true := by
      intro c hc
      rw [decide_eq_true_eq]
      rintro rfl
      rcases List.mem_append.mp hc with hword | hdigit
      · exact absurd hword (by decide)
      · exact Decimal.notMem_toString (by decide) index hdigit
    have hcolon : ": ".toList = [':', ' '] := by decide
    rw [hrest, opening, String.toList_append, String.toList_append, List.append_assoc, hcolon,
      List.takeWhile_append_of_pos hchars, List.cons_append,
      List.takeWhile_cons_of_neg (by simp), List.append_nil]
  have hnumbers := (hnumber hj).symm.trans (hnumber hk)
  rw [List.append_right_inj] at hnumbers
  exact Decimal.toString_injective (String.toList_inj.mp hnumbers)

theorem index_of_toOption {index : Nat} {document : Document.Value} {summary : DocumentSummary}
    (h : (documentOutcome o index document).toOption = some summary) : summary.index = index := by
  rw [documentOutcome] at h
  cases hplan : plan o document with
  | error e =>
    rw [hplan] at h
    cases h
  | ok p =>
    rw [hplan] at h
    cases h
    rfl

def outcomeError? (index : Nat) : Except DocumentError DocumentSummary → Option String
  | .error e => some (errorText index e)
  | .ok _ => none

theorem tells_of_outcomeError? {index : Nat} {outcome : Except DocumentError DocumentSummary}
    {text : String} (h : outcomeError? index outcome = some text) : tells index text = true := by
  cases outcome with
  | error e =>
    obtain rfl := Option.some.inj h
    exact tells_errorText index e
  | ok summary => cases h

theorem summaries_runOutcomes (o : Options) (index : Nat) (documents : List Document.Value) :
    summaries (runOutcomes o index documents) =
      (documents.zipIdx index).filterMap fun p => (documentOutcome o p.2 p.1).toOption := by
  rw [summaries, runOutcomes, List.filterMap_map]
  rfl

theorem errors_runOutcomes (o : Options) (index : Nat) (documents : List Document.Value)
    (input : String) (ds : List DocumentSummary) :
    (Result.mk input o.seed ds (failures (runOutcomes o index documents))).errors =
      (documents.zipIdx index).filterMap fun p => outcomeError? p.2 (documentOutcome o p.2 p.1) := by
  rw [Result.errors, failures, runOutcomes, List.filterMap_map, List.map_filterMap]
  congr 1
  funext p
  obtain ⟨document, k⟩ := p
  rw [Function.comp_apply]
  dsimp only
  cases documentOutcome o k document <;> rfl

theorem filter_summaries (o : Options) (documents : List Document.Value) (k : Nat) :
    (summaries (runOutcomes o 0 documents)).filter (·.index == k) =
      (documents[k]?.bind fun document => (documentOutcome o k document).toOption).toList := by
  rw [summaries_runOutcomes]
  apply filter_filterMap_zipIdx
  intro p summary hsummary
  rw [index_of_toOption hsummary]

theorem filter_errors (o : Options) (documents : List Document.Value) (input : String)
    (ds : List DocumentSummary) (k : Nat) :
    (Result.mk input o.seed ds (failures (runOutcomes o 0 documents))).errors.filter (tells k) =
      (documents[k]?.bind fun document => outcomeError? k (documentOutcome o k document)).toList := by
  rw [errors_runOutcomes]
  apply filter_filterMap_zipIdx
  intro p text htext
  have htells := tells_of_outcomeError? htext
  rw [Bool.eq_iff_iff, beq_iff_eq]
  constructor
  · exact fun hk => eq_of_tells htells hk
  · rintro rfl
    exact htells

theorem hasErrors_iff_exists_mem (r : Result) : r.hasErrors = true ↔ ∃ text, text ∈ r.errors := by
  rw [Result.hasErrors, Result.errors]
  cases r.failures with
  | nil => simp
  | cons f fs => exact iff_of_true rfl ⟨_, List.mem_cons_self⟩

/-- The document fails, in any session. -/
def Fails (o : Options) (index : Nat) (document : Document.Value) : Prop :=
  ∃ e, ∀ showContent s, ((generateDocument o showContent index document).run.run s).1 = .error e

/-- Every document is told about once, in the order of the file. -/
structure Reports (o : Options) (documents : List Document.Value) (r : Result) : Prop where
  once (k : Nat) : r.documents.countP (·.index == k) + r.errors.countP (tells k) =
    if k < documents.length then 1 else 0
  documents_increasing : r.documents.Pairwise fun d e => d.index < e.index
  errors_increasing : r.errors.Pairwise fun t u => ∃ j k, j < k ∧ tells j t ∧ tells k u
  hasErrors_iff : r.hasErrors = true ↔ ∃ k d, documents[k]? = some d ∧ Fails o k d

/-- Without the typesetter a document gives the same outcome in any session, and changes no files
but its own. -/
theorem run_generateDocument (htypeset : o.typeset = false) (showContent : Bool) (index : Nat)
    (document : Document.Value) (s : Session) :
    ∃ s', (generateDocument o showContent index document).run.run s =
        (documentOutcome o index document, s') ∧
      s'.files = s.files.writeAll (documentFiles o index document) := by
  have htidy (h : o.typeset = true) : s.Tidy := by simp [htypeset] at h
  obtain ⟨outcome, s', written, hrun, hshare, -, hfiles⟩ :=
    generateDocument_share o showContent index document htidy
  cases hshare with
  | whole => exact ⟨s', hrun, hfiles.eq htypeset⟩
  | stopped htypeset' => simp [htypeset] at htypeset'

theorem fails_iff (htypeset : o.typeset = false) {index : Nat} {document : Document.Value} :
    Fails o index document ↔ ∃ e, documentOutcome o index document = .error e := by
  constructor
  · rintro ⟨e, he⟩
    obtain ⟨s', hrun, -⟩ := run_generateDocument htypeset false index document default
    have hfails := he false default
    rw [hrun] at hfails
    exact ⟨e, hfails⟩
  · rintro ⟨e, he⟩
    refine ⟨e, fun showContent s => ?_⟩
    obtain ⟨s', hrun, -⟩ := run_generateDocument htypeset showContent index document s
    rw [hrun, he]

theorem reports_runOutcomes (htypeset : o.typeset = false) (documents : List Document.Value)
    (input : String) : Reports o documents ⟨input, o.seed, summaries (runOutcomes o 0 documents),
      failures (runOutcomes o 0 documents)⟩ where
  once k := by
    rw [List.countP_eq_length_filter, List.countP_eq_length_filter, filter_summaries, filter_errors]
    cases hdocument : documents[k]? with
    | none =>
      have hk : ¬ k < documents.length := by simpa using hdocument
      simp [hk]
    | some document =>
      obtain ⟨hk, -⟩ := List.getElem?_eq_some_iff.mp hdocument
      rw [if_pos hk, Option.bind_some, Option.bind_some]
      cases documentOutcome o k document <;> rfl
  documents_increasing := by
    dsimp only
    rw [summaries_runOutcomes]
    refine (pairwise_zipIdx documents 0).filterMap _ fun p q hpq d hd e he => ?_
    rwa [index_of_toOption hd, index_of_toOption he]
  errors_increasing := by
    rw [errors_runOutcomes]
    refine (pairwise_zipIdx documents 0).filterMap _ fun p q hpq t ht u hu => ?_
    exact ⟨p.2, q.2, hpq, tells_of_outcomeError? ht, tells_of_outcomeError? hu⟩
  hasErrors_iff := by
    simp only [hasErrors_iff_exists_mem, errors_runOutcomes, fails_iff htypeset,
      List.mem_filterMap, List.mem_zipIdx_iff_getElem?]
    constructor
    · rintro ⟨text, ⟨document, k⟩, hdocument, htext⟩
      refine ⟨k, document, hdocument, ?_⟩
      dsimp only at htext
      cases houtcome : documentOutcome o k document with
      | error e => exact ⟨e, rfl⟩
      | ok summary =>
        rw [houtcome] at htext
        cases htext
    · rintro ⟨k, document, hdocument, e, he⟩
      exact ⟨errorText k e, (document, k), hdocument, by rw [he]; rfl⟩

/-- What two runs tell about a document and what they write for it are the same. -/
structure SameShare (o : Options) (index : Nat) (document : Document.Value) (r r' : Result)
    (t t' : FileTree) : Prop where
  summary_eq : r.documents.filter (·.index == index) = r'.documents.filter (·.index == index)
  error_eq : r.errors.filter (tells index) = r'.errors.filter (tells index)
  contents_eq : ∀ place ∈ (documentFiles o index document).places, t.find? place = t'.find? place

/-- The files are all that the document changes, in any session, and lie in its directory. -/
structure OwnFiles (o : Options) (index : Nat) (document : Document.Value) (files : Writes) :
    Prop where
  written (showContent : Bool) (s : Session) :
    ((generateDocument o showContent index document).run.run s).2.files = s.files.writeAll files
  within : ∀ w ∈ files, ∃ directory, o.directoryFor index = some directory ∧
    locate directory <+: locate w.1

theorem ownFiles_documentFiles (htypeset : o.typeset = false) (index : Nat)
    (document : Document.Value) :
    OwnFiles o index document (documentFiles o index document) where
  written showContent s := by
    obtain ⟨s', hrun, hfiles⟩ := run_generateDocument htypeset showContent index document s
    rw [hrun, hfiles]
  within w hw := by
    obtain ⟨directory, target, solutions, stem, hdirectory, hstem, hpath⟩ :=
      exists_filePath_of_mem_documentFiles hw
    refine ⟨directory, hdirectory, ?_⟩
    rw [hpath, Output.locate_filePath hstem]
    exact List.prefix_append _ _

theorem run_eq (htypeset : o.typeset = false) {input : String} {s : Session}
    {documents : List Document.Value} (hload : Specification.load s.files input = .ok documents)
    (showContent : Bool) :
    ∃ s', run o showContent input s = (.ok ⟨input, o.seed, summaries (runOutcomes o 0 documents),
        failures (runOutcomes o 0 documents)⟩, s') ∧
      s'.files = s.files.writeAll (runFiles o 0 documents) := by
  have htidy (h : o.typeset = true) : s.Tidy := by simp [htypeset] at h
  obtain ⟨outcomes, s', written, hrun, hshares, hfiles⟩ := run_shares o showContent hload htidy
  obtain ⟨rfl, rfl⟩ := hshares.whole htypeset
  exact ⟨s', hrun, hfiles.eq htypeset⟩

/-- A run tells about every document once, as a summary or as an error, and writes the files of each
into its directory; whatever another run loads, a document that both have at one index gets the same
share of both. -/
theorem run_isolates_documents (htypeset : o.typeset = false) {input : String} {s : Session}
    {documents : List Document.Value} (hload : Specification.load s.files input = .ok documents)
    (showContent : Bool) :
    ∃ r s', run o showContent input s = (.ok r, s') ∧ Reports o documents r ∧
      s'.files = s.files.writeAll (runFiles o 0 documents) ∧
      (∀ k d, documents[k]? = some d → OwnFiles o k d (documentFiles o k d)) ∧
      ∀ showContent₂ input₂ s₂ documents₂ r₂ s₂',
        Specification.load s₂.files input₂ = .ok documents₂ →
        run o showContent₂ input₂ s₂ = (.ok r₂, s₂') →
        ∀ k d, documents[k]? = some d → documents₂[k]? = some d →
          SameShare o k d r r₂ s'.files s₂'.files := by
  obtain ⟨s', hrun, hfiles⟩ := run_eq htypeset hload showContent
  refine ⟨_, s', hrun, reports_runOutcomes htypeset documents input, hfiles,
    fun k d _ => ownFiles_documentFiles htypeset k d, ?_⟩
  intro showContent₂ input₂ s₂ documents₂ r₂ s₂' hload₂ hrun₂ k d hd hd₂
  obtain ⟨u, hrun', hfiles₂⟩ := run_eq htypeset hload₂ showContent₂
  cases hrun₂.symm.trans hrun'
  constructor
  · rw [filter_summaries, filter_summaries, hd, hd₂]
  · rw [filter_errors, filter_errors, hd, hd₂]
  -- A place of the document holds what the document wrote, whatever tree was there before.
  · intro place hplace
    rw [hfiles, hfiles₂, find?_writeAll_runFiles hd hplace s.files s.files,
      find?_writeAll_runFiles hd₂ hplace s₂.files s.files]

/-- The second document fails beside the first, which gets the same share as by itself. -/
theorem run_isolates_documents_twoExams :
    ∃ d e, Specification.load twoExams "exams.yaml" = .ok [d, e] ∧
      Specification.load oneExam "exam.json" = .ok [d] ∧
      (plan .standard d).isOk = true ∧ (plan .standard e).isOk = false ∧
        ∃ r s' r₂ s₂', run .standard false "exams.yaml" (.ofFiles twoExams) = (.ok r, s') ∧
          run .standard true "exam.json" (.ofFiles oneExam) = (.ok r₂, s₂') ∧
          Reports .standard [d, e] r ∧
            s'.files = twoExams.writeAll (runFiles .standard 0 [d, e]) ∧
              SameShare .standard 0 d r r₂ s'.files s₂'.files := by
  obtain ⟨d, e, hload, hplan, hfails⟩ := exists_load_twoExams
  have hload₂ : Specification.load oneExam "exam.json" = .ok [d] := load_oneExam hload
  obtain ⟨r, s', hrun, hreports, hfiles, -, hsame⟩ :=
    run_isolates_documents (o := .standard) (s := .ofFiles twoExams) rfl hload false
  obtain ⟨s₂', hrun₂, -⟩ := run_eq (o := .standard) (s := .ofFiles oneExam) rfl hload₂ true
  exact ⟨d, e, hload, hload₂, hplan, hfails, r, s', _, s₂', hrun, hrun₂, hreports, hfiles,
    hsame true "exam.json" (.ofFiles oneExam) [d] _ s₂' hload₂ hrun₂ 0 d rfl rfl⟩

end ExamVariants.Generate
