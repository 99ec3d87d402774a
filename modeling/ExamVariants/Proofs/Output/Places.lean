import ExamVariants.Proofs.Decimal.Numerals
import ExamVariants.Proofs.Output.Stems
import ExamVariants.Proofs.Path.Location

namespace ExamVariants.Output

open Decimal ExamVariants.Path

theorem isName_append_toString {front : String} (h : '/' ∉ front.toList) (k : Nat) :
    IsName (front ++ toString k) := by
  obtain ⟨c, hc⟩ := exists_mem_toString k
  have hdigit := isDigit_of_mem_toString hc
  have hmem : c ∈ (front ++ toString k).toList := by
    rw [String.toList_append]
    exact List.mem_append_right _ hc
  refine isName_of_mem hmem ?_ ?_
  · rintro rfl
    exact absurd hdigit (by decide)
  · rw [String.toList_append, List.mem_append, not_or]
    exact ⟨h, notMem_toString (by decide) k⟩

theorem documentDirectory_of_pos {index : Nat} (h : index ≠ 0) (base : String) :
    documentDirectory base index =
      withFileName base ((fileName? base).getD "" ++ toString index) := if_neg h

/-- Beside a base with a name lie the directories with that name and a number; in one without lie
those with the number alone. -/
theorem locate_documentDirectory (base : String) (index : Nat) :
    locate (documentDirectory base index) =
      match fileName? base with
      | some name => locate ((parent? base).getD "") ++
          [name ++ if index = 0 then "" else toString index]
      | none => locate base ++ if index = 0 then [] else [toString index] := by
  by_cases hindex : index = 0
  · subst hindex
    cases hname : fileName? base with
    | none => simp [documentDirectory]
    | some name => simpa [documentDirectory] using (locate_of_fileName? hname).2
  · rw [documentDirectory_of_pos hindex]
    cases hname : fileName? base with
    | none =>
      have hnumber : IsName ("" ++ toString index) := isName_append_toString (by simp) index
      rw [String.empty_append] at hnumber
      simpa [hindex] using locate_withFileName_of_none hname hnumber
    | some name =>
      have hnumber := isName_append_toString (locate_of_fileName? hname).1.noSlash index
      simpa [hindex] using locate_withFileName_of_some hname hnumber

theorem locate_documentDirectory_injective (base : String) :
    Function.Injective fun index => locate (documentDirectory base index) := by
  have hempty (k : Nat) : toString k ≠ "" := by
    obtain ⟨c, hc⟩ := exists_mem_toString k
    intro h
    simp [h] at hc
  intro j k h
  simp only [locate_documentDirectory] at h
  cases hname : fileName? base with
  | none =>
    rw [hname, List.append_right_inj] at h
    by_cases hj : j = 0
    · by_cases hk : k = 0
      · rw [hj, hk]
      · simp [hj, hk] at h
    · by_cases hk : k = 0
      · simp [hj, hk] at h
      · exact toString_injective (by simpa [hj, hk] using h)
  | some name =>
    rw [hname, List.append_right_inj, List.cons.injEq, String.append_right_inj] at h
    by_cases hj : j = 0
    · by_cases hk : k = 0
      · rw [hj, hk]
      · exact absurd (by simpa [hj, hk] using h.1) (hempty k)
    · by_cases hk : k = 0
      · exact absurd (by simpa [hj, hk] using h.1) (hempty j)
      · exact toString_injective (by simpa [hj, hk] using h.1)

theorem isName_slug (target : Notation) : IsName target.slug := by
  cases target <;> exact ⟨by decide, by decide, by decide, by decide⟩

theorem slug_injective : Function.Injective Notation.slug := by
  intro s t h
  revert h
  cases s <;> cases t <;> decide

theorem isName_halfDirectory (solutions : Bool) : IsName (halfDirectory solutions) := by
  cases solutions <;> exact ⟨by decide, by decide, by decide, by decide⟩

theorem isName_file {stem : String} (h : '/' ∉ stem.toList) (target : Notation) :
    IsName (stem ++ "." ++ target.extension) := by
  have hletter : 'x' ∈ target.extension.toList := by cases target <;> decide
  have hslash : '/' ∉ target.extension.toList := by cases target <;> decide
  have hmem : 'x' ∈ (stem ++ "." ++ target.extension).toList := by
    rw [String.toList_append]
    exact List.mem_append_right _ hletter
  exact isName_of_mem hmem (by decide) (by simp [String.toList_append, h, hslash])

theorem locate_filePath {stem : String} (h : '/' ∉ stem.toList) (directory : String)
    (target : Notation) (solutions : Bool) :
    locate (filePath directory target solutions stem) =
      locate directory ++
        [target.slug, halfDirectory solutions, stem ++ "." ++ target.extension] := by
  rw [filePath, locate_join (isName_file h target), locate_join (isName_halfDirectory solutions),
    locate_join (isName_slug target)]
  simp

/-- The place of a file tells the directory, the notation, the half and the stem. -/
theorem of_locate_filePath_eq {stem stem' directory directory' : String} {target target' : Notation}
    {solutions solutions' : Bool} (hstem : '/' ∉ stem.toList) (hstem' : '/' ∉ stem'.toList)
    (h : locate (filePath directory target solutions stem) =
      locate (filePath directory' target' solutions' stem')) :
    locate directory = locate directory' ∧ target = target' ∧ solutions = solutions' ∧
      stem = stem' := by
  rw [locate_filePath hstem, locate_filePath hstem'] at h
  obtain ⟨hdirectory, hnames⟩ := List.append_inj' h rfl
  simp only [List.cons.injEq, and_true] at hnames
  obtain ⟨hslug, hhalf, hfile⟩ := hnames
  obtain rfl := slug_injective hslug
  have hsolutions : solutions = solutions' := by
    revert hhalf
    cases solutions <;> cases solutions' <;> decide
  refine ⟨hdirectory, rfl, hsolutions, ?_⟩
  rwa [String.append_left_inj, String.append_left_inj] at hfile

end ExamVariants.Output
