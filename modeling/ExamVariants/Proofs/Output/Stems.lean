import ExamVariants.Output
import ExamVariants.Proofs.Text.Blanks
import Mathlib.Data.List.Nodup

namespace ExamVariants.Output

open Text

/-- A text that is safe as a name in any directory. -/
structure SafeName (s : String) : Prop where
  ne_empty : s ≠ ""
  char_of_mem : ∀ c ∈ s.toList, isAlphanumeric c = true ∨ c = '-' ∨ c = '_'

theorem stemChar_eq_self {c : Char} (h : isAlphanumeric c = true ∨ c = '-' ∨ c = '_') :
    stemChar c = c := by
  rw [stemChar, if_pos (by simpa [or_assoc] using h)]

theorem stemChar_mem (c : Char) :
    isAlphanumeric (stemChar c) = true ∨ stemChar c = '-' ∨ stemChar c = '_' := by
  by_cases h : isAlphanumeric c = true ∨ c = '-' ∨ c = '_'
  · rwa [stemChar_eq_self h]
  · rw [stemChar, if_neg (by simpa [or_assoc] using h)]
    exact .inr (.inr rfl)

namespace SafeName

variable {s : String}

theorem notMem (h : SafeName s) {c : Char} (hc : isAlphanumeric c = false)
    (hmarks : c ≠ '-' ∧ c ≠ '_') : c ∉ s.toList := by
  intro hmem
  rcases h.char_of_mem c hmem with hletter | hhyphen | hlow
  · rw [hc] at hletter
    cases hletter
  · exact hmarks.1 hhyphen
  · exact hmarks.2 hlow

theorem slash_notMem (h : SafeName s) : '/' ∉ s.toList := h.notMem (by decide) (by decide)

theorem dot_notMem (h : SafeName s) : '.' ∉ s.toList := h.notMem (by decide) (by decide)

theorem isBlank_of_mem (h : SafeName s) {c : Char} (hmem : c ∈ s.toList) : isBlank c = false := by
  rcases h.char_of_mem c hmem with hletter | rfl | rfl
  · rw [Bool.eq_false_iff]
    intro hblank
    rw [isAlphanumeric_of_isBlank hblank] at hletter
    cases hletter
  · decide
  · decide

theorem sectionStem_eq (h : SafeName s) : sectionStem s = s := by
  have htrimmed : Trimmed s.toList := trimmed_of_forall fun c hc => h.isBlank_of_mem hc
  have hkept : (stripChars s.toList).map stemChar = s.toList := by
    rw [htrimmed.stripChars_eq, List.map_congr_left fun c hc =>
      stemChar_eq_self (h.char_of_mem c hc), List.map_id']
  rw [sectionStem, hkept]
  split
  · next hnil => exact absurd (by simpa using hnil) h.ne_empty
  · exact String.ofList_toList

end SafeName

theorem safeName_sectionStem (name : String) : SafeName (sectionStem name) := by
  rw [sectionStem]
  split
  · have hletters : "examination".toList.all isAlphanumeric = true := by decide
    exact ⟨by decide, fun c hc => .inl (List.all_eq_true.mp hletters c hc)⟩
  · next cs hne =>
    refine ⟨by simpa using hne, fun c hc => ?_⟩
    rw [String.toList_ofList] at hc
    obtain ⟨d, -, rfl⟩ := List.mem_map.mp hc
    exact stemChar_mem d

theorem slash_notMem_sectionStem (name : String) : '/' ∉ (sectionStem name).toList :=
  (safeName_sectionStem name).slash_notMem

def stemEntry (e : Exam) : String × String := (stem e, sectionName e)

theorem lookup_stemEntry (seen : List Exam) (key : String) :
    (seen.map stemEntry).lookup key = (seen.find? fun e => stem e == key).map sectionName := by
  induction seen with
  | nil => rfl
  | cons e seen ih =>
    rw [List.map_cons, stemEntry, List.lookup_cons, ih, List.find?_cons, Bool.beq_comm]
    cases stem e == key <;> rfl

variable {seen variants : List Exam}

theorem nodup_stem_cons {e : Exam} (hseen : (seen.map stem).Nodup)
    (hfind : seen.find? (fun u => stem u == stem e) = none) : ((e :: seen).map stem).Nodup := by
  refine List.nodup_cons.mpr ⟨fun hmem => ?_, hseen⟩
  obtain ⟨u, hu, hstem⟩ := List.mem_map.mp hmem
  exact List.find?_eq_none.mp hfind u hu (by simpa using hstem)

theorem not_nodup_stem {u e : Exam} {es : List Exam} (hu : u ∈ seen) (hstem : stem u = stem e) :
    ¬ ((seen.reverse ++ e :: es).map stem).Nodup := by
  rw [List.map_append, List.nodup_append]
  rintro ⟨-, -, hne⟩
  exact hne (stem u) (List.mem_map_of_mem (by simpa using hu)) (stem e) (by simp) hstem

theorem clashAfter?_eq_none_iff (hseen : (seen.map stem).Nodup) :
    clashAfter? (seen.map stemEntry) variants = none ↔
      ((seen.reverse ++ variants).map stem).Nodup := by
  induction variants generalizing seen with
  | nil => simpa [clashAfter?] using hseen
  | cons e es ih =>
    rw [clashAfter?, lookup_stemEntry]
    cases hfind : seen.find? fun u => stem u == stem e with
    | some u =>
      have hstem : stem u = stem e := by simpa using List.find?_some hfind
      simpa using not_nodup_stem (List.mem_of_find?_eq_some hfind) hstem
    | none =>
      have hrest := ih (nodup_stem_cons hseen hfind)
      rwa [List.reverse_cons, List.append_assoc, List.singleton_append] at hrest

theorem clashAfter?_eq_some_iff (hseen : (seen.map stem).Nodup) {clash : StemClash} :
    clashAfter? (seen.map stemEntry) variants = some clash ↔
      ∃ before v after u, variants = before ++ v :: after ∧
        ((seen.reverse ++ before).map stem).Nodup ∧ u ∈ seen.reverse ++ before ∧
          stem u = stem v ∧ clash = ⟨sectionName u, sectionName v⟩ := by
  induction variants generalizing seen with
  | nil => simp [clashAfter?]
  | cons e es ih =>
    rw [clashAfter?, lookup_stemEntry]
    cases hfind : seen.find? fun u => stem u == stem e with
    | some u =>
      have hstem : stem u = stem e := by simpa using List.find?_some hfind
      have hu := List.mem_of_find?_eq_some hfind
      simp only [Option.map_some, Option.some.injEq]
      constructor
      · rintro rfl
        exact ⟨[], e, es, u, rfl, by simpa using hseen, by simpa using hu, hstem, rfl⟩
      · rintro ⟨before, v, after, w, hvariants, hnodup, hw, hstem', rfl⟩
        cases before with
        -- The stems seen so far are different, so `u` is the only one that clashes.
        | nil =>
          obtain ⟨rfl, rfl⟩ := List.cons.inj hvariants
          have hwu : w = u := List.inj_on_of_nodup_map hseen (by simpa using hw) hu
            (hstem'.trans hstem.symm)
          rw [hwu]
        | cons x before =>
          obtain ⟨rfl, -⟩ := List.cons.inj hvariants
          exact absurd hnodup (not_nodup_stem hu hstem)
    | none =>
      have hrest := ih (nodup_stem_cons hseen hfind)
      simp only [List.reverse_cons, List.append_assoc, List.singleton_append] at hrest
      refine hrest.trans ⟨?_, ?_⟩
      · rintro ⟨before, v, after, u, rfl, hnodup, hu, hstem, hclash⟩
        exact ⟨e :: before, v, after, u, rfl, hnodup, hu, hstem, hclash⟩
      · rintro ⟨before, v, after, u, hvariants, hnodup, hu, hstem, hclash⟩
        cases before with
        | nil =>
          obtain ⟨rfl, -⟩ := List.cons.inj hvariants
          exact absurd (by simpa using hstem)
            (List.find?_eq_none.mp hfind u (by simpa using hu))
        | cons x before =>
          obtain ⟨rfl, rfl⟩ := List.cons.inj hvariants
          exact ⟨before, v, after, u, rfl, hnodup, hu, hstem, hclash⟩

theorem checkDistinctStems_eq_ok_iff :
    checkDistinctStems variants = .ok () ↔ (variants.map stem).Nodup := by
  have hnone := @clashAfter?_eq_none_iff [] variants List.nodup_nil
  rw [List.map_nil, List.reverse_nil, List.nil_append] at hnone
  rw [← hnone, checkDistinctStems]
  cases clashAfter? [] variants <;> simp

theorem checkDistinctStems_eq_error_iff {clash : StemClash} :
    checkDistinctStems variants = .error clash ↔ ∃ before v after u,
      variants = before ++ v :: after ∧ (before.map stem).Nodup ∧ u ∈ before ∧ stem u = stem v ∧
        clash = ⟨sectionName u, sectionName v⟩ := by
  have hsome := @clashAfter?_eq_some_iff [] variants List.nodup_nil clash
  simp only [List.map_nil, List.reverse_nil, List.nil_append] at hsome
  rw [← hsome, checkDistinctStems]
  cases clashAfter? [] variants <;> simp

end ExamVariants.Output
