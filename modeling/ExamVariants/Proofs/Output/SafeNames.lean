import ExamVariants.Proofs.Output.Places
import ExamVariants.Proofs.Path.Names
import ExamVariants.Proofs.Typeset.Traces

namespace ExamVariants.Output

open Text ExamVariants.Path

variable {s : String}

theorem dot_notMem_extension (target : Notation) : '.' ∉ target.extension.toList := by
  cases target <;> decide

theorem components_filePath (h : SafeName s) (directory : String) (target : Notation)
    (solutions : Bool) :
    components (filePath directory target solutions s) =
      components directory ++
        [target.slug, halfDirectory solutions, s ++ "." ++ target.extension] := by
  rw [filePath, components_join (isName_file h.slash_notMem target),
    components_join (isName_halfDirectory solutions), components_join (isName_slug target)]
  simp

theorem fileStem?_filePath (h : SafeName s) (directory : String) (target : Notation)
    (solutions : Bool) : fileStem? (filePath directory target solutions s) = some s := by
  have hfile : fileName? (filePath directory target solutions s) =
      some (s ++ "." ++ target.extension) :=
    fileName?_join (isName_file h.slash_notMem target) _
  rw [fileStem?, hfile, Option.map_some, cutName_append s (dot_notMem_extension target),
    if_neg h.ne_empty]

theorem find?_removeByProducts_of_other {name directory : String} {place : Location}
    (h : SafeName s) (hother : place ≠ locate directory ∨
      ∃ other, SafeName other ∧ other ≠ s ∧ NamedAfter other name) (t : FileTree) :
    (Typeset.removeByProducts t directory s).find? (place ++ [name]) =
      t.find? (place ++ [name]) := by
  refine Typeset.find?_removeByProducts_of_forall (fun product hproduct => ?_) t
  obtain ⟨hplace, hproduct⟩ := List.append_inj' hproduct rfl
  obtain rfl : name = product := by simpa using hproduct
  obtain ⟨other, hsafe, hne, hname⟩ := hother.resolve_left (not_not_intro hplace)
  have hcut : (cutName name).1 ≠ s := by
    intro hcut
    have hname' : NamedAfter s name := hcut ▸ namedAfter_cutName name
    exact hne (hname.unique hname' hsafe.dot_notMem h.dot_notMem)
  rw [Typeset.isByProduct, beq_false_of_ne hcut, Bool.false_and]

/-- The stem of any section is a safe file name and its own stem. So a file of a variant lies just
where its directory, notation and half say, under the name that the stem gives, from which the stem
is read back; and the clean-up that follows its typesetting removes no file that is named after
another section, where no two variants of a document share a stem. -/
theorem stems_are_safe_file_names :
    (∀ name, SafeName (sectionStem name) ∧
      (∀ c ∈ (sectionStem name).toList, c ≠ '/' ∧ c ≠ '.' ∧ c ≠ '\x00' ∧ isBlank c = false) ∧
      sectionStem (sectionStem name) = sectionStem name) ∧
    (∀ (variant : Exam) (directory : String) (target : Notation) (solutions : Bool),
      let path := filePath directory target solutions (stem variant)
      components path = components directory ++
          [target.slug, halfDirectory solutions, stem variant ++ "." ++ target.extension] ∧
        fileStem? path = some (stem variant) ∧
        ∀ spans s, ∃ report s', Typeset.typeset spans path s = some (report, s') ∧
          s'.files = Typeset.removeByProducts (Typeset.passed spans path s).2.files
            (Typeset.pdfDirectory path) (stem variant) ∧
          ∀ place name, (place ≠ locate (Typeset.pdfDirectory path) ∨ ∃ other,
              sectionStem other ≠ stem variant ∧ NamedAfter (sectionStem other) name) →
            s'.files.find? (place ++ [name]) =
              (Typeset.passed spans path s).2.files.find? (place ++ [name])) ∧
    ∀ variants, checkDistinctStems variants = .ok () →
      variants.Pairwise fun v w => stem v ≠ stem w := by
  refine ⟨fun name => ?_, fun variant directory target solutions => ?_, fun variants h => ?_⟩
  · have hsafe := safeName_sectionStem name
    refine ⟨hsafe, fun c hc => ⟨?_, ?_, ?_, hsafe.isBlank_of_mem hc⟩, hsafe.sectionStem_eq⟩
    · exact fun hslash => hsafe.slash_notMem (hslash ▸ hc)
    · exact fun hdot => hsafe.dot_notMem (hdot ▸ hc)
    · exact fun hzero => hsafe.notMem (by decide) (by decide) (hzero ▸ hc)
  · have hsafe : SafeName (stem variant) := safeName_sectionStem _
    have hstem := fileStem?_filePath hsafe directory target solutions
    refine ⟨components_filePath hsafe directory target solutions, hstem, fun spans s => ?_⟩
    obtain ⟨s', htypeset, hfiles, -⟩ := Typeset.exists_typeset_eq hstem spans s
    refine ⟨_, s', htypeset, hfiles, fun place name hother => ?_⟩
    rw [hfiles]
    refine find?_removeByProducts_of_other hsafe (hother.imp_right ?_) _
    rintro ⟨other, hne, hname⟩
    exact ⟨sectionStem other, safeName_sectionStem other, hne, hname⟩
  · exact List.pairwise_map.mp (checkDistinctStems_eq_ok_iff.mp h)

def sectionVariant (name : String) : Exam := Exam.forSection ⟨.empty, []⟩ ⟨name, none, none⟩ []

def byProducts : FileTree :=
  (FileTree.empty.write "out/latex-quiz/solutions/PDF/Lab_2_B.aux" (.text "b")).write
    "out/latex-quiz/solutions/PDF/Sección_A.synctex.gz" (.text "a")

theorem stems_are_safe_file_names_byProducts :
    let variant := sectionVariant " Lab 2/B\n"
    let path := "out/latex-quiz/solutions/Lab_2_B.tex"
    let place := ["out", "latex-quiz", "solutions", "PDF"]
    filePath "out" .latexQuiz true (stem variant) = path ∧ fileStem? path = some "Lab_2_B" ∧
      checkDistinctStems [variant, sectionVariant "Sección A"] = .ok () ∧
      stem variant ≠ stem (sectionVariant "Sección A") ∧
      ∃ report s', Typeset.typeset [] path (.ofFiles byProducts) = some (report, s') ∧
        s'.files.find? (place ++ ["Lab_2_B.aux"]) = none ∧
        (s'.files.find? (place ++ ["Sección_A.synctex.gz"])).isSome = true := by
  intro variant path place
  obtain ⟨-, hpaths, hdistinct⟩ := stems_are_safe_file_names
  have hstem : stem variant = "Lab_2_B" := by decide +kernel
  have hother : sectionStem "Sección A" = "Sección_A" := by decide +kernel
  have hpath : filePath "out" .latexQuiz true (stem variant) = path := by decide +kernel
  have hcheck : checkDistinctStems [variant, sectionVariant "Sección A"] = .ok () := by
    decide +kernel
  have hvariant := hpaths variant "out" .latexQuiz true
  rw [hpath, hstem] at hvariant
  obtain ⟨-, hfileStem, htypeset⟩ := hvariant
  obtain ⟨report, s', hrun, hfiles, hspared⟩ := htypeset [] (.ofFiles byProducts)
  have hkept := hspared place "Sección_A.synctex.gz"
    (.inr ⟨"Sección A", by rw [hother]; decide, .inr ⟨"synctex.gz", by rw [hother]; decide⟩⟩)
  refine ⟨hpath, hfileStem, hcheck, by simpa using hdistinct _ hcheck, report, s', hrun, ?_, ?_⟩
  · rw [hfiles]
    exact Option.isNone_iff_eq_none.mp (by decide +kernel)
  · rw [hkept]
    decide +kernel

end ExamVariants.Output
