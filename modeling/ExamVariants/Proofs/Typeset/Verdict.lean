import ExamVariants.Proofs.Path.Names
import ExamVariants.Proofs.Text.Lines
import ExamVariants.Proofs.Typeset.Traces

namespace ExamVariants

open ExamVariants.Path Text

/-- The run exits with success, and no line that it prints opens with an exclamation mark. -/
structure TypesetterRun.Clean (run : TypesetterRun) : Prop where
  exitStatus : run.exitStatus = .code 0
  noErrorLine : ¬ OpensLine '!' run.output.toList

instance (run : TypesetterRun) : Decidable run.Clean :=
  decidable_of_iff (run.exitStatus = .code 0 ∧ ¬ OpensLine '!' run.output.toList)
    ⟨fun h => ⟨h.1, h.2⟩, fun h => ⟨h.exitStatus, h.noErrorLine⟩⟩

namespace Typeset

theorem errorLine?_eq_none_iff (line : String) :
    errorLine? line = none ↔ ¬ line.toList.head? = some '!' := by
  rw [errorLine?]
  split
  · next rest hline => simp [hline]
  · next hline =>
    refine iff_of_true rfl fun hhead => ?_
    obtain ⟨rest, hrest⟩ := List.head?_eq_some_iff.mp hhead
    exact hline rest hrest

theorem errors_scan_eq_nil_iff (output : String) :
    (scan output).errors = [] ↔ ¬ OpensLine '!' output.toList := by
  rw [← exists_mem_lineChars_iff (by decide) (by decide), scan, List.filterMap_eq_nil_iff, lines]
  simp [errorLine?_eq_none_iff]

theorem errors_verdict (pdf : String) (run : TypesetterRun) :
    (verdict pdf run).errors =
      if run.exitStatus ≠ .code 0 ∧ ¬ OpensLine '!' run.output.toList then
        [s!"pdflatex exited with {run.exitStatus.text}"]
      else (scan run.output).errors := by
  simp only [← errors_scan_eq_nil_iff, verdict, Bool.and_eq_true, decide_eq_true_eq,
    List.isEmpty_iff]

theorem succeeded_verdict_iff (pdf : String) (run : TypesetterRun) :
    (verdict pdf run).succeeded = true ↔ run.Clean := by
  rw [Report.succeeded, List.isEmpty_iff, errors_verdict]
  split
  · next hsilent => exact iff_of_false (List.cons_ne_nil _ _) fun h => hsilent.1 h.exitStatus
  · next hsilent =>
    rw [errors_scan_eq_nil_iff]
    constructor
    · intro hclean
      exact ⟨by_contra fun hstatus => hsilent ⟨hstatus, hclean⟩, hclean⟩
    · exact fun h => h.noErrorLine

/-- The outcomes of the passes that run, `left` at most: one that is not clean is the last. -/
inductive PassesRun : Nat → List TypesetterRun → List TypesetterRun → Prop
  | none {upcoming : List TypesetterRun} : PassesRun 0 upcoming []
  | last {left : Nat} {upcoming : List TypesetterRun} (h : ¬ (upcoming.headD .silent).Clean) :
      PassesRun (left + 1) upcoming [upcoming.headD .silent]
  | clean {left : Nat} {upcoming ran : List TypesetterRun} (h : (upcoming.headD .silent).Clean)
      (hrest : PassesRun left upcoming.tail ran) :
      PassesRun (left + 1) upcoming (upcoming.headD .silent :: ran)

def leave (t : FileTree) (run : TypesetterRun) : FileTree :=
  run.left.foldl (fun t (path, c) => t.write path c) t

theorem exists_passesRun (spans : List Log.Span) (pdfDirectory pdf tex : String)
    (number left : Nat) (report : Report) (s : Session) :
    ∃ ran, PassesRun left s.upcoming ran ∧
      (passes spans pdfDirectory pdf tex number left report s).1 =
        (ran.getLast?.map (verdict pdf)).getD report ∧
      (passes spans pdfDirectory pdf tex number left report s).2.calls =
        List.replicate ran.length (arguments pdfDirectory tex) ++ s.calls ∧
      (passes spans pdfDirectory pdf tex number left report s).2.files = ran.foldl leave s.files := by
  induction left generalizing number report s with
  | zero => exact ⟨[], .none, rfl, rfl, rfl⟩
  | succ left ih =>
    rw [passes]
    dsimp only
    split
    · next hclean =>
      rw [succeeded_verdict_iff] at hclean
      -- What the first pass leaves is where the others start.
      obtain ⟨ran, hran, hreport, hcalls, hfiles⟩ := ih (number + 1)
        (verdict pdf (s.upcoming.headD .silent))
        ((s.runTypesetter (arguments pdfDirectory tex)).2.event spans
          (passEvent tex number (scan (s.upcoming.headD .silent).output)))
      refine ⟨_, .clean hclean hran, hreport.trans ?_, hcalls.trans ?_, hfiles⟩
      · rw [List.getLast?_cons]
        cases ran.getLast? <;> rfl
      · rw [List.length_cons, List.replicate_succ', List.append_assoc]
        rfl
    · next hclean =>
      rw [succeeded_verdict_iff] at hclean
      exact ⟨_, .last hclean, rfl, rfl, rfl⟩

theorem passesRun_two_iff {upcoming ran : List TypesetterRun} :
    PassesRun 2 upcoming ran ↔
      (upcoming.headD .silent).Clean ∧
          ran = [upcoming.headD .silent, upcoming.tail.headD .silent] ∨
        ¬ (upcoming.headD .silent).Clean ∧ ran = [upcoming.headD .silent] := by
  constructor
  · rintro (_ | hlast | ⟨hfirst, hrest⟩)
    · exact .inr ⟨hlast, rfl⟩
    · refine .inl ⟨hfirst, ?_⟩
      rcases hrest with _ | _ | ⟨_, ⟨⟩⟩ <;> rfl
  · rintro (⟨hfirst, rfl⟩ | ⟨hlast, rfl⟩)
    · refine .clean hfirst ?_
      by_cases hsecond : (upcoming.tail.headD .silent).Clean
      · exact .clean hsecond .none
      · exact .last hsecond
    · exact .last hlast

/-- The path leads to an entry of the directory with this stem that is no PDF. -/
structure LeadsToByProduct (directory stem path : String) : Prop where
  parent : locate ((parent? path).getD "") = locate directory
  fileStem : fileStem? path = some stem
  extension : extension? path ≠ some "pdf"

variable {directory stem path name : String}

theorem leadsToByProduct_iff (h : fileName? path = some name) :
    LeadsToByProduct directory stem path ↔
      locate ((parent? path).getD "") = locate directory ∧ isByProduct stem name = true := by
  have hstem : fileStem? path = some (cutName name).1 := by rw [fileStem?, h, Option.map_some]
  have hextension : extension? path = (cutName name).2 := by rw [extension?, h, Option.bind_some]
  constructor
  · rintro ⟨hparent, hfileStem, hpdf⟩
    rw [hstem, Option.some.injEq] at hfileStem
    rw [hextension] at hpdf
    exact ⟨hparent, by simp [isByProduct, hfileStem, hpdf]⟩
  · rintro ⟨hparent, hproduct⟩
    obtain ⟨hfileStem, hpdf⟩ : (cutName name).1 = stem ∧ (cutName name).2 ≠ some "pdf" := by
      simpa [isByProduct] using hproduct
    exact ⟨hparent, by rw [hstem, hfileStem], by rwa [hextension]⟩

theorem find?_removeByProducts_of_leads (h : LeadsToByProduct directory stem path)
    (t : FileTree) : (removeByProducts t directory stem).find? (locate path) = none := by
  obtain ⟨name, hname, -⟩ := Option.map_eq_some_iff.mp h.fileStem
  obtain ⟨hparent, hproduct⟩ := (leadsToByProduct_iff hname).mp h
  rw [(locate_of_fileName? hname).2, hparent]
  exact find?_removeByProducts_of_isByProduct hproduct t directory

theorem find?_removeByProducts_of_not_leads (hname : fileName? path = some name)
    (h : ¬ LeadsToByProduct directory stem path) (t : FileTree) :
    (removeByProducts t directory stem).find? (locate path) = t.find? (locate path) := by
  refine find?_removeByProducts_of_forall (fun other hother => ?_) t
  rw [(locate_of_fileName? hname).2] at hother
  obtain ⟨hparent, hlast⟩ := List.append_inj' hother rfl
  obtain rfl : name = other := by simpa using hlast
  rw [Bool.eq_false_iff]
  exact fun hproduct => h ((leadsToByProduct_iff hname).mpr ⟨hparent, hproduct⟩)

/-- A clean pass, then one that fails without a word; each leaves files. -/
def silentFailure : Session where
  files := FileTree.empty.write "out/PDF/A02.aux" (.text "")
  upcoming :=
    [⟨.code 0, "LaTeX Warning: Label(s) may have changed.\r\n", [("out/PDF/A01.aux", .text "")]⟩,
      ⟨.code 3, "No pages of output.\n", [("out/PDF/A01.pdf", .text "")]⟩]
  calls := []
  log := []

end Typeset

end ExamVariants
