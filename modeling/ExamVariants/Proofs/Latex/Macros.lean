import ExamVariants.Proofs.Latex.Points
import Mathlib.Data.List.Count
import Mathlib.Data.List.Nodup

namespace ExamVariants.Latex

theorem boundMacros_eq_map_filter (e : Exam) :
    boundMacros e = ((macroTexts e).filter fun m => m.2.isSome).map Prod.fst := by
  rw [boundMacros]
  induction macroTexts e with
  | nil => rfl
  | cons m ms ih =>
    obtain ⟨name, text⟩ := m
    cases text <;> simp [ih]

theorem nodup_boundMacros (e : Exam) : (boundMacros e).Nodup := by
  have hnames : ((macroTexts e).map Prod.fst).Nodup := by
    rw [map_fst_macroTexts]
    decide
  rw [boundMacros_eq_map_filter]
  exact hnames.sublist (List.filter_sublist.map _)

theorem fst_mem_boundMacros_iff {e : Exam} {m : String × Option String} (hm : m ∈ macroTexts e) :
    m.1 ∈ boundMacros e ↔ m.2.isSome = true := by
  have hnames : ((macroTexts e).map Prod.fst).Nodup := by
    rw [map_fst_macroTexts]
    decide
  rw [boundMacros_eq_map_filter]
  constructor
  · intro h
    obtain ⟨m', hm', heq⟩ := List.mem_map.mp h
    obtain ⟨hmem, hsome⟩ := List.mem_filter.mp hm'
    rwa [List.inj_on_of_nodup_map hnames hmem hm heq] at hsome
  · exact fun h => List.mem_map_of_mem (List.mem_filter.mpr ⟨hm, h⟩)

theorem definition_injective : Function.Injective definition := by
  intro name name' h
  have hargument := Option.some.inj (ControlWord.mk.inj h).2
  exact String.append_right_inj "\\" |>.mp hargument

/-- The word defines nothing, and of the macros it uses none but those bound. -/
def OnlyUses (bound : List String) (w : ControlWord) : Prop :=
  (w.name ∈ macroWords → w.name ∈ bound) ∧ ∀ name, w ≠ definition name

theorem Fits.onlyUses {bound : List String} {w : ControlWord} (h : Fits bound w) :
    OnlyUses bound w := by
  obtain ⟨huse, hdefine, -⟩ := h
  refine ⟨huse, fun name heq => ?_⟩
  subst heq
  cases hdefine rfl

theorem onlyUses_of_name {bound : List String} {w : ControlWord} (h : w.name ∉ macroWords)
    (hdefine : w.name ≠ "newcommand") : OnlyUses bound w :=
  ⟨fun hname => absurd hname h, fun _ heq => hdefine (congrArg ControlWord.name heq)⟩

theorem onlyUses_questionWords {bound : List String} {solutions : Bool} {qs : List Question} :
    ∀ w ∈ questionWords solutions qs, OnlyUses bound w := by
  have hnames : ∀ name ∈ ["begin", "end"] ++ pointWords ++ switchWords.map ControlWord.name,
      name ∉ macroWords ∧ name ≠ "newcommand" := by decide
  intro w hw
  have hname : w.name ∈ ["begin", "end"] ++ pointWords ++ switchWords.map ControlWord.name := by
    rcases isInner_questionWords w hw with hinner | hswitch
    · exact List.mem_append_left _ hinner.name_mem
    · exact List.mem_append_right _ (List.mem_map_of_mem hswitch)
  exact onlyUses_of_name (hnames _ hname).1 (hnames _ hname).2

theorem prefix_of_append_eq {front rest before after : List ControlWord} {w : ControlWord}
    (h : front ++ rest = before ++ w :: after) (hw : w ∉ front) : front <+: before := by
  rcases List.append_eq_append_iff.mp h with ⟨between, rfl, -⟩ | ⟨between, rfl, hrest⟩
  · exact List.prefix_append front between
  · cases between with
    | nil => simp
    | cons v between =>
      obtain ⟨rfl, -⟩ := List.cons.inj hrest
      exact absurd (by simp) hw

theorem use_notMem_front {bound : List String} {fixed : List ControlWord}
    (hfixed : ∀ w ∈ fixed, OnlyUses [] w) {w : ControlWord} (hname : w.name ∈ macroWords) :
    w ∉ fixed ++ bound.map definition := by
  intro hmem
  rcases List.mem_append.mp hmem with hw | hw
  · exact absurd ((hfixed w hw).1 hname) List.not_mem_nil
  · obtain ⟨_, -, rfl⟩ := List.mem_map.mp hw
    exact absurd hname (by decide : "newcommand" ∉ macroWords)

section Scope

variable {bound : List String} {fixed rest : List ControlWord}
  (hfixed : ∀ w ∈ fixed, OnlyUses [] w) (hrest : ∀ w ∈ rest, OnlyUses bound w)

include hfixed hrest

theorem count_definition (name : String) :
    (fixed ++ bound.map definition ++ rest).count (definition name) = bound.count name := by
  have hfixed : fixed.count (definition name) = 0 :=
    List.count_eq_zero.mpr fun hmem => (hfixed _ hmem).2 name rfl
  have hrest : rest.count (definition name) = 0 :=
    List.count_eq_zero.mpr fun hmem => (hrest _ hmem).2 name rfl
  rw [List.count_append, List.count_append, hfixed, hrest, Nat.zero_add, Nat.add_zero]
  exact List.count_map_of_injective bound definition definition_injective name

theorem name_mem_bound {w : ControlWord} (hw : w ∈ fixed ++ bound.map definition ++ rest)
    (hname : w.name ∈ macroWords) : w.name ∈ bound :=
  (List.mem_append.mp hw).elim (fun hw => absurd hw (use_notMem_front hfixed hname))
    fun hw => (hrest w hw).1 hname

theorem definition_mem_before {before after : List ControlWord} {w : ControlWord}
    (h : fixed ++ bound.map definition ++ rest = before ++ w :: after)
    (hname : w.name ∈ macroWords) : definition w.name ∈ before := by
  have hbound := name_mem_bound hfixed hrest (h ▸ by simp) hname
  have hnot : w ∉ fixed ++ bound.map definition := use_notMem_front hfixed hname
  have hfront := List.mem_append_right fixed (List.mem_map_of_mem (f := definition) hbound)
  exact (prefix_of_append_eq h hnot).subset hfront

end Scope

/-- Each macro that holds a text is defined once, in front of all its uses; one that holds none is
neither defined nor used. -/
theorem macros_defined_before_use {layout : Layout} {solutions : Bool} {e : Exam} {out : String}
    (hprose : ∀ s ∈ printed solutions e, IsProse s) (h : render layout solutions e = .ok out) :
    ∃ ws, controlWords? out = some ws ∧ ∀ m ∈ macroTexts e,
      ws.count (definition m.1) = (if m.2.isSome then 1 else 0) ∧
      (∀ before w after, ws = before ++ w :: after → w.name = m.1 → definition m.1 ∈ before) ∧
      (m.2 = none → definition m.1 ∉ ws ∧ ∀ w ∈ ws, w.name ≠ m.1) := by
  obtain ⟨fixed, uses, hgives, hfits, hfits'⟩ := render_gives hprose h
  have hfixed : ∀ w ∈ fixed, OnlyUses [] w := fun w hw => (hfits w hw).onlyUses
  have hquestions : ∀ w ∈ environmentWords "questions" (questionWords solutions e.questions),
      OnlyUses (boundMacros e) w := by
    refine List.forall_mem_cons.mpr ⟨onlyUses_of_name (by decide) (by decide), ?_⟩
    refine List.forall_mem_append.mpr ⟨onlyUses_questionWords, List.forall_mem_singleton.mpr ?_⟩
    exact onlyUses_of_name (by decide) (by decide)
  have hrest : ∀ w ∈ uses ++ (environmentWords "questions" (questionWords solutions e.questions) ++
      [⟨"end", some "document"⟩]), OnlyUses (boundMacros e) w := by
    refine List.forall_mem_append.mpr ⟨fun w hw => (hfits' w hw).onlyUses, ?_⟩
    refine List.forall_mem_append.mpr ⟨hquestions, List.forall_mem_singleton.mpr ?_⟩
    exact onlyUses_of_name (by decide) (by decide)
  -- The words are fixed ones, then the definitions, then words that define nothing.
  rw [List.append_assoc, List.append_assoc _ uses] at hgives
  refine ⟨_, controlWords?_eq_some_iff.mpr hgives, fun m hm => ?_⟩
  have hname : m.1 ∈ macroWords := map_fst_macroTexts e ▸ List.mem_map_of_mem hm
  have hbound := fst_mem_boundMacros_iff hm
  have hcount := count_definition hfixed hrest m.1
  refine ⟨?_, ?_, fun hnone => ⟨?_, fun w hw heq => ?_⟩⟩
  · rw [hcount, (nodup_boundMacros e).count]
    simp only [hbound]
  · intro before w after hsplit heq
    rw [← heq] at hname ⊢
    exact definition_mem_before hfixed hrest hsplit hname
  · rw [← List.count_eq_zero, hcount, List.count_eq_zero, hbound, hnone]
    decide
  · have hmem := name_mem_bound hfixed hrest hw (heq ▸ hname)
    rw [heq, hbound, hnone] at hmem
    cases hmem

/-- A course by its number, a title that is no text, and a section with an assistant. -/
def courseSheet : Exam where
  parameters := ((Parameters.empty.bind .courseId (.text "CS 1")).bind .title (.segments [])).bind
    .sections (.boundSection ⟨"A", some "Kim", none⟩)
  questions := [.trueFalse (.plain "true or false") true 1]

theorem macros_defined_before_use_courseSheet :
    ∃ out ws, render .midterm false courseSheet = .ok out ∧ controlWords? out = some ws ∧
      ws.count (definition "coursenumber") = 1 ∧ ws.count (definition "sectionta") = 1 ∧
      ∀ w ∈ ws, w.name ≠ "examtitle" := by
  have hprose : ∀ s ∈ printed false courseSheet, IsProse s :=
    List.forall_mem_singleton.mpr (isProse_plain "true or false")
  obtain ⟨out, hout⟩ : ∃ out, render .midterm false courseSheet = .ok out := by
    refine exists_render_eq_ok_iff.mpr ⟨?_, ?_, ?_⟩
    · exact List.forall_mem_singleton.mpr (Nat.zero_le 3)
    · exact List.forall_mem_singleton.mpr rfl
    · exact List.forall_mem_singleton.mpr ⟨escapeText "true or false", rfl⟩
  obtain ⟨ws, hws, hmacros⟩ := macros_defined_before_use hprose hout
  have hentries : [("coursenumber", some "CS 1"), ("sectionta", some "Kim"), ("examtitle", none)] ⊆
      macroTexts courseSheet := by decide
  refine ⟨out, ws, hout, hws, ?_, ?_, ?_⟩
  · exact (hmacros ("coursenumber", some "CS 1") (hentries (by decide))).1
  · exact (hmacros ("sectionta", some "Kim") (hentries (by decide))).1
  · exact ((hmacros ("examtitle", none) (hentries (by decide))).2.2 rfl).2

end ExamVariants.Latex
