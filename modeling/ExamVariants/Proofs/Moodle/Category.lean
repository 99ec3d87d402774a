import ExamVariants.Moodle.Bank
import ExamVariants.Proofs.Exam.Draw
import ExamVariants.Proofs.Output.Stems
import ExamVariants.Proofs.Path.Location

namespace ExamVariants.Moodle

open Output

/-- The name that a section has in its category. -/
def categoryName (name : String) : String := Text.replaceChar '/' '-' name

theorem slash_notMem_categoryName (name : String) : '/' ∉ (categoryName name).toList := by
  intro hmem
  rw [categoryName, Text.replaceChar, String.toList_ofList] at hmem
  obtain ⟨c, -, hc⟩ := List.mem_map.mp hmem
  split at hc
  · exact absurd hc (by decide)
  · contradiction

theorem categoryName_of_notMem {name : String} (h : '/' ∉ name.toList) :
    categoryName name = name := by
  have hmap : name.toList.map (fun c => if c = '/' then '-' else c) = name.toList.map id := by
    refine List.map_congr_left fun c hc => if_neg ?_
    rintro rfl
    exact h hc
  rw [categoryName, Text.replaceChar, hmap, List.map_id, String.ofList_toList]

def courseParts (e : Exam) : List String :=
  ((e.text? .courseId).orElse fun _ => e.text? .course).toList ++ (e.text? .title).toList

def sectionPath (e : Exam) (name : String) : String :=
  "/".intercalate ("$course$" :: (courseParts e ++ [name]).map categoryName)

theorem text?_variant (e : Exam) (seed : Int64) (limit : Nat) (s : Section) {p : Parameter}
    (h : p ≠ .sections) : (e.variant seed limit s).text? p = e.text? p := by
  rw [Exam.text?, Exam.parameters_variant, Parameters.bind_of_ne _ _ h, Exam.text?]

theorem section?_variant (e : Exam) (seed : Int64) (limit : Nat) (s : Section) :
    (e.variant seed limit s).section? = some s := by
  rw [Exam.section?, Exam.parameters_variant, Parameters.bind_self]

theorem categoryPath_variant (e : Exam) (seed : Int64) (limit : Nat) (s : Section) :
    categoryPath (e.variant seed limit s) = sectionPath e s.name := by
  rw [categoryPath, categoryParts, section?_variant, text?_variant e seed limit s (by decide),
    text?_variant e seed limit s (by decide), text?_variant e seed limit s (by decide)]
  rfl

theorem stem_variant (e : Exam) (seed : Int64) (limit : Nat) (s : Section) :
    stem (e.variant seed limit s) = sectionStem s.name := by
  rw [stem, sectionName, section?_variant, Option.map_some, Option.getD_some]

/-- A category path can be cut at its slashes, so it holds all there is of the name in it. -/
theorem sectionPath_eq_iff (e : Exam) (name name' : String) :
    sectionPath e name = sectionPath e name' ↔ categoryName name = categoryName name' := by
  have hpieces (name : String) : Path.pieces (sectionPath e name) =
      "$course$" :: (courseParts e ++ [name]).map categoryName := by
    refine Path.pieces_intercalate (List.cons_ne_nil _ _) ?_
    rw [List.forall_mem_cons, List.forall_mem_map]
    exact ⟨by decide, fun part _ => slash_notMem_categoryName part⟩
  constructor
  · intro h
    have hlists := congrArg Path.pieces h
    simpa [hpieces] using hlists
  · intro h
    simp [sectionPath, h]

theorem exists_sections_of_variants {e : Exam} {seed : Int64} {limit : Nat} {vs : List Exam}
    (h : e.variants seed limit = .ok vs) :
    ∃ ss, e.sections = .ok ss ∧ ∀ {α : Type} (f : Exam → α) (g : Section → α),
      (∀ seed s, f (e.variant seed limit s) = g s) → vs.map f = ss.map g := by
  obtain ⟨-, ss, hss, rfl⟩ := Exam.variants_eq_ok_iff.mp h
  refine ⟨ss, hss, fun f g hfg => List.ext_getElem? fun i => ?_⟩
  rw [List.getElem?_map, List.getElem?_mapIdx, List.getElem?_map, Option.map_map]
  exact congrArg (ss[i]?.map ·) (funext fun s => hfg _ s)

/-- Variants with stems of their own have categories of their own iff no two sections have names
that differ only in that one has a hyphen where the other has a slash. -/
theorem nodup_categoryPath_iff {e : Exam} {seed : Int64} {limit : Nat} {vs : List Exam}
    (hvs : e.variants seed limit = .ok vs) (hstems : checkDistinctStems vs = .ok ()) :
    ∃ ss, e.sections = .ok ss ∧
      ((vs.map categoryPath).Nodup ↔
        ∀ s ∈ ss, ∀ s' ∈ ss, categoryName s.name = categoryName s'.name → s.name = s'.name) ∧
      ((∀ s ∈ ss, '/' ∉ s.name.toList) → (vs.map categoryPath).Nodup) := by
  obtain ⟨ss, hss, hmap⟩ := exists_sections_of_variants hvs
  -- Equal names have equal stems, so the check leaves no name twice.
  have hnames : (ss.map Section.name).Nodup := by
    have hnodup := checkDistinctStems_eq_ok_iff.mp hstems
    rw [hmap stem (fun s => sectionStem s.name) fun seed s => stem_variant e seed limit s] at hnodup
    exact List.Nodup.of_map sectionStem (by rwa [List.map_map])
  have hiff : (vs.map categoryPath).Nodup ↔
      ∀ s ∈ ss, ∀ s' ∈ ss, categoryName s.name = categoryName s'.name → s.name = s'.name := by
    have hpaths : vs.map categoryPath = (ss.map Section.name).map (sectionPath e) := by
      rw [List.map_map]
      exact hmap _ _ fun seed s => categoryPath_variant e seed limit s
    rw [hpaths, List.nodup_map_iff_inj_on hnames]
    simp only [List.forall_mem_map, sectionPath_eq_iff]
  refine ⟨ss, hss, hiff, fun hslash => hiff.mpr fun s hs s' hs' h => ?_⟩
  rwa [categoryName_of_notMem (hslash s hs), categoryName_of_notMem (hslash s' hs')] at h

def examFor (names : List String) : Exam where
  parameters := Parameters.empty.bind .sections (.sections (names.map (⟨·, none, none⟩)))
  questions := [.trueFalse (.plain "q") true 1]

theorem nodup_categoryPath_iff_apart :
    ∃ vs ss, (examFor ["A-1", "A/2"]).variants 7 1 = .ok vs ∧ checkDistinctStems vs = .ok () ∧
      (examFor ["A-1", "A/2"]).sections = .ok ss ∧ (vs.map categoryPath).Nodup := by
  obtain ⟨vs, hvs, hstems⟩ : ∃ vs, (examFor ["A-1", "A/2"]).variants 7 1 = .ok vs ∧
      checkDistinctStems vs = .ok () :=
    ⟨_, rfl, checkDistinctStems_eq_ok_iff.mpr (by decide)⟩
  obtain ⟨ss, hss, hiff, -⟩ := nodup_categoryPath_iff hvs hstems
  refine ⟨vs, ss, hvs, hstems, hss, hiff.mpr ?_⟩
  obtain rfl := Except.ok.inj hss
  decide

/-- The stems keep the sections apart, and the category does not. -/
theorem slash_and_hyphen_share_category :
    ∃ vs, (examFor ["A/B", "A-B"]).variants 1 1 = .ok vs ∧ checkDistinctStems vs = .ok () ∧
      vs.map categoryPath = ["$course$/A-B", "$course$/A-B"] := by
  exact ⟨_, rfl, checkDistinctStems_eq_ok_iff.mpr (by decide), by decide⟩

end ExamVariants.Moodle
