import ExamVariants.Proofs.FileTree.Writes
import ExamVariants.Proofs.Path.Location
import ExamVariants.Typeset

namespace ExamVariants

open FileTree ExamVariants.Path

/-- The runs of the typesetter to come leave files only directly in directories named `PDF`. -/
def Session.Tidy (s : Session) : Prop :=
  ∀ run ∈ s.upcoming, ∀ left ∈ run.left, InPdf (locate left.1)

namespace Typeset

theorem inPdf_append (directory : Location) (name : String) :
    InPdf (directory ++ ["PDF"] ++ [name]) := by
  simp [InPdf]

theorem isName_pdf : IsName "PDF" := ⟨by decide, by decide, by decide, by decide⟩

def pdfPath (tex : String) : String :=
  join (join ((parent? tex).getD ".") "PDF") ((fileStem? tex).getD "" ++ ".pdf")

theorem agree_foldl_write {left : List (String × Content)}
    (h : ∀ f ∈ left, InPdf (locate f.1)) (t : FileTree) :
    Agree true (left.foldl (fun t (path, c) => t.write path c) t) t := by
  induction left generalizing t with
  | nil => exact .refl true t
  | cons f left ih =>
    have hrest := ih (fun g hg => h g (List.mem_cons_of_mem f hg)) (t.write f.1 f.2)
    have hwrite : Agree true (t.write f.1 f.2) t := by
      refine .of_typeset fun place hplace => ?_
      have hne : place ≠ locate f.1 := fun hf => hplace (hf ▸ h f List.mem_cons_self)
      rw [find?_write, if_neg hne]
    rw [List.foldl_cons]
    exact hrest.trans hwrite

theorem runTypesetter_agree {s : Session} (h : s.Tidy) (arguments : List String) :
    Agree true (s.runTypesetter arguments).2.files s.files ∧
      (s.runTypesetter arguments).2.Tidy := by
  have hleft : ∀ f ∈ (s.upcoming.headD .silent).left, InPdf (locate f.1) := by
    cases hupcoming : s.upcoming with
    | nil => simp [TypesetterRun.silent]
    | cons run runs => exact h run (by simp [hupcoming])
  exact ⟨agree_foldl_write hleft s.files, fun run hrun => h run (List.mem_of_mem_tail hrun)⟩

theorem tidy_event {s : Session} (h : s.Tidy) (spans : List Log.Span) (e : Log.Event) :
    (s.event spans e).Tidy := h

theorem tidy_createDirectories {s : Session} (h : s.Tidy) (path : String) :
    Session.Tidy { s with files := s.files.createDirectories path } := h

theorem createDirectories_agree (t : FileTree) (path : String) :
    Agree true (t.createDirectories path) t := .of_typeset fun _ _ => rfl

theorem verdict_pdf (pdf : String) (run : TypesetterRun) : (verdict pdf run).pdf = pdf := rfl

theorem passes_agree (spans : List Log.Span) (pdfDirectory pdf tex : String) (number left : Nat)
    {report : Report} (hpdf : report.pdf = pdf) {s : Session} (h : s.Tidy) :
    (passes spans pdfDirectory pdf tex number left report s).1.pdf = pdf ∧
      Agree true (passes spans pdfDirectory pdf tex number left report s).2.files s.files ∧
        (passes spans pdfDirectory pdf tex number left report s).2.Tidy := by
  induction left generalizing number report s with
  | zero => exact ⟨hpdf, .refl true s.files, h⟩
  | succ left ih =>
    obtain ⟨hagree, htidy⟩ := runTypesetter_agree h (arguments pdfDirectory tex)
    rw [passes]
    dsimp only
    split
    · -- The event between two passes leaves the files and the runs to come as they are.
      obtain ⟨hrestPdf, hrest, hrestTidy⟩ := ih (number + 1) (verdict_pdf pdf _)
        (tidy_event htidy spans (passEvent tex number _))
      exact ⟨hrestPdf, hrest.trans hagree, hrestTidy⟩
    · exact ⟨rfl, hagree, htidy⟩

theorem find?_removeByProducts_of_isByProduct {stem name : String} (h : isByProduct stem name = true)
    (t : FileTree) (directory : String) :
    (removeByProducts t directory stem).find? (locate directory ++ [name]) = none := by
  rw [removeByProducts, find?_removeNames]
  split
  · rfl
  · next hkept =>
    by_contra hheld
    have hlisted := List.mem_filter.mpr ⟨mem_namesIn hheld, h⟩
    exact hkept (List.mem_map.mpr ⟨name, hlisted, rfl⟩)

theorem find?_removeByProducts_of_forall {directory stem : String} {place : Location}
    (h : ∀ name, place = locate directory ++ [name] → isByProduct stem name = false)
    (t : FileTree) : (removeByProducts t directory stem).find? place = t.find? place := by
  rw [removeByProducts, find?_removeNames, if_neg]
  intro hremoved
  obtain ⟨name, hname, rfl⟩ := List.mem_map.mp hremoved
  have hproduct := (List.mem_filter.mp hname).2
  rw [h name rfl] at hproduct
  cases hproduct

theorem removeByProducts_agree (t : FileTree) (directory stem : String) :
    Agree true (removeByProducts t (join directory "PDF") stem) t := by
  refine .of_typeset fun place hplace => find?_removeByProducts_of_forall ?_ t
  rintro name rfl
  rw [locate_join isName_pdf] at hplace
  exact absurd (inPdf_append _ name) hplace

def pdfDirectory (tex : String) : String := join ((parent? tex).getD ".") "PDF"

/-- What the passes make of a session in which that directory is there. -/
def passed (spans : List Log.Span) (tex : String) (s : Session) : Report × Session :=
  passes spans (pdfDirectory tex) (pdfPath tex) tex 1 passCount ⟨pdfPath tex, [], []⟩
    { s with files := s.files.createDirectories (pdfDirectory tex) }

theorem exists_typeset_eq {tex stem : String} (h : fileStem? tex = some stem)
    (spans : List Log.Span) (s : Session) :
    ∃ s', typeset spans tex s = some ((passed spans tex s).1, s') ∧
      s'.files = removeByProducts (passed spans tex s).2.files (pdfDirectory tex) stem ∧
      s'.upcoming = (passed spans tex s).2.upcoming ∧ s'.calls = (passed spans tex s).2.calls := by
  have hpdf : join (pdfDirectory tex) (stem ++ ".pdf") = pdfPath tex := by
    rw [pdfPath, h, Option.getD_some, pdfDirectory]
  simp only [typeset, h, Option.bind_eq_bind, Option.bind_some, Option.pure_def]
  rw [← pdfDirectory, hpdf]
  exact ⟨_, rfl, rfl, rfl, rfl⟩

/-- Typesetting keeps to the directories of the typesetter. -/
theorem typeset_agree {spans : List Log.Span} {tex : String} {s s' : Session} {report : Report}
    (h : typeset spans tex s = some (report, s')) (htidy : s.Tidy) :
    report.pdf = pdfPath tex ∧ Agree true s'.files s.files ∧ s'.Tidy := by
  cases hstem : fileStem? tex with
  | none => simp [typeset, hstem] at h
  | some stem =>
    obtain ⟨s'', hrun, hfiles, hupcoming, -⟩ := exists_typeset_eq hstem spans s
    obtain ⟨rfl, rfl⟩ := Prod.mk.inj (Option.some.inj (h.symm.trans hrun))
    have hreport : (Report.mk (pdfPath tex) [] []).pdf = pdfPath tex := rfl
    obtain ⟨hpdf, hagree, htidy'⟩ := passes_agree spans (pdfDirectory tex) (pdfPath tex) tex 1
      passCount hreport (tidy_createDirectories htidy (pdfDirectory tex))
    have hcreate := createDirectories_agree s.files (pdfDirectory tex)
    have hremove := removeByProducts_agree (passed spans tex s).2.files
      ((parent? tex).getD ".") stem
    refine ⟨hpdf, hfiles ▸ hremove.trans (hagree.trans hcreate), ?_⟩
    rw [Session.Tidy, hupcoming]
    exact htidy'

end Typeset

end ExamVariants
