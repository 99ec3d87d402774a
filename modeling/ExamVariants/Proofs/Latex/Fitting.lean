import ExamVariants.Proofs.Latex.QuestionWords

namespace ExamVariants.Latex

/-- The macros of a document in the order of their definitions, with the texts that they hold. -/
def macroTexts (e : Exam) : List (String × Option String) :=
  parameterCommands.map (fun (p, name) => (name, e.text? p)) ++
    [("examsection", e.section?.map Section.name),
      ("sectionta", e.section?.bind Section.teachingAssistant)]

theorem map_fst_macroTexts (e : Exam) : (macroTexts e).map Prod.fst = macroWords := rfl

def boundMacros (e : Exam) : List String :=
  (macroTexts e).filterMap fun (name, text) => text.map fun _ => name

def definition (name : String) : ControlWord := ⟨"newcommand", some ("\\" ++ name)⟩

theorem mem_boundMacros_iff {e : Exam} {name : String} :
    name ∈ boundMacros e ↔ ∃ text, (name, some text) ∈ macroTexts e := by
  simp only [boundMacros, List.mem_filterMap, Option.map_eq_some_iff]
  constructor
  · rintro ⟨⟨_, _⟩, hm, text, rfl, rfl⟩
    exact ⟨text, hm⟩
  · rintro ⟨text, hm⟩
    exact ⟨_, hm, text, rfl, rfl⟩

theorem mem_boundMacros_of_hasText {e : Exam} {p : Parameter} {name : String}
    (hp : (p, name) ∈ parameterCommands) (h : hasText e p = true) : name ∈ boundMacros e := by
  obtain ⟨text, htext⟩ := Option.isSome_iff_exists.mp h
  refine mem_boundMacros_iff.mpr ⟨text, List.mem_append_left _ ?_⟩
  exact List.mem_map.mpr ⟨_, hp, by simp [htext]⟩

theorem examsection_mem_boundMacros {e : Exam} (h : e.section?.isSome = true) :
    "examsection" ∈ boundMacros e := by
  obtain ⟨s, hs⟩ := Option.isSome_iff_exists.mp h
  exact mem_boundMacros_iff.mpr ⟨s.name, by simp [macroTexts, hs]⟩

theorem sectionta_mem_boundMacros {e : Exam} (h : hasAssistant e = true) :
    "sectionta" ∈ boundMacros e := by
  obtain ⟨ta, hta⟩ := Option.isSome_iff_exists.mp h
  exact mem_boundMacros_iff.mpr ⟨ta, by simp [macroTexts, hta]⟩

/-- The word uses none but the bound macros, defines none, and does not begin the questions. -/
def Fits (bound : List String) (w : ControlWord) : Prop :=
  (w.name ∈ macroWords → w.name ∈ bound) ∧ (w.name = "newcommand" → w.argument = none) ∧
    w ≠ ⟨"begin", some "questions"⟩

instance (bound : List String) : DecidablePred (Fits bound) := fun w =>
  inferInstanceAs (Decidable ((w.name ∈ macroWords → w.name ∈ bound) ∧
    (w.name = "newcommand" → w.argument = none) ∧ w ≠ ⟨"begin", some "questions"⟩))

def Keeps (bound : List String) (s : String) : Prop := ∃ ws, Gives s ws ∧ ∀ w ∈ ws, Fits bound w

def fitting (bound : List String) (cs : List Char) : Bool :=
  (readFrom Scan.step .text cs).any fun (t, ws) => decide (t = .text ∧ ∀ w ∈ ws, Fits bound w)

theorem fitting_toList_iff {bound : List String} {s : String} :
    fitting bound s.toList = true ↔ Keeps bound s := by
  simp only [fitting, Option.any_eq_true, decide_eq_true_eq, Prod.exists]
  constructor
  · rintro ⟨t, ws, hread, rfl, hfits⟩
    exact ⟨ws, hread, hfits⟩
  · rintro ⟨ws, hread, hfits⟩
    exact ⟨.text, ws, hread, rfl, hfits⟩

section Keeping

variable {bound : List String}

theorem Gives.keeps {s : String} (h : Gives s []) : Keeps bound s := ⟨[], h, List.forall_mem_nil _⟩

theorem Keeps.of_nil {s : String} (h : Keeps [] s) : Keeps bound s := by
  obtain ⟨ws, hws, hfits⟩ := h
  refine ⟨ws, hws, fun w hw => ?_⟩
  obtain ⟨huse, hdefine, hbegin⟩ := hfits w hw
  exact ⟨fun hname => absurd (huse hname) List.not_mem_nil, hdefine, hbegin⟩

theorem keeps_fixed {s : String} (h : fitting [] s.toList = true) : Keeps bound s :=
  (fitting_toList_iff.mp h).of_nil

theorem keeps_use {name s : String} (h : name ∈ bound) (hs : Gives s [⟨name, none⟩]) :
    Keeps bound s := by
  refine ⟨_, hs, List.forall_mem_singleton.mpr ⟨fun _ => h, fun _ => rfl, fun heq => ?_⟩⟩
  cases (ControlWord.mk.inj heq).2

theorem Keeps.append {s t : String} (h : Keeps bound s) (h' : Keeps bound t) :
    Keeps bound (s ++ t) := by
  obtain ⟨ws, hws, hfits⟩ := h
  obtain ⟨vs, hvs, hfits'⟩ := h'
  exact ⟨ws ++ vs, hws.append hvs, List.forall_mem_append.mpr ⟨hfits, hfits'⟩⟩

theorem keeps_join {ss : List String} (h : ∀ s ∈ ss, Keeps bound s) :
    Keeps bound (String.join ss) := by
  induction ss with
  | nil => exact gives_nil.keeps
  | cons s ss ih =>
    obtain ⟨hs, hss⟩ := List.forall_mem_cons.mp h
    rw [String.join_cons]
    exact hs.append (ih hss)

theorem keeps_braced {command inner : String} (hcommand : Keeps bound (command ++ "\x7b"))
    (h : Keeps bound (inner ++ "\x7d")) : Keeps bound (command ++ braced inner) := by
  have hall := hcommand.append h
  simpa only [braced, String.append_assoc] using hall

end Keeping

theorem closeLines_append (ls ls' : List String) :
    closeLines (ls ++ ls') = closeLines ls ++ closeLines ls' := by
  rw [closeLines, List.map_append, String.join_append, closeLines, closeLines]

theorem line_keeps {cs : List Char} (h : fitting [] (cs ++ ['\n']) = true) :
    Keeps [] (String.ofList cs ++ "\n") := by
  rw [← fitting_toList_iff, String.toList_append, String.toList_ofList]
  exact h

set_option maxRecDepth 2000 in
/-- The lines are read one by one as characters; as a text, each would first be taken apart. -/
theorem fixedLines_keep :
    ∀ ls ∈ [packageLines, choiceLines, trueFalseLines, listingLines], Keeps [] (closeLines ls) := by
  have hlines : ∀ ls ∈ [packageLines, choiceLines, trueFalseLines, listingLines],
      ∀ l ∈ ls, Keeps [] (l ++ "\n") := by
    simp only [packageLines, choiceLines, trueFalseLines, listingLines]
    repeat' first
      | exact List.forall_mem_nil _
      | refine List.forall_mem_cons.mpr ⟨line_keeps rfl, ?_⟩
      | refine List.forall_mem_cons.mpr ⟨?_, ?_⟩
  exact fun ls hls => keeps_join (List.forall_mem_map.mpr (hlines ls hls))

theorem documentClass_keeps (layout : Layout) (solutions : Bool) :
    Keeps [] (documentClass layout solutions) := by
  cases layout <;> cases solutions <;> exact keeps_fixed rfl

theorem packages_keep (layout : Layout) : Keeps [] (packages layout) := by
  have hlines (quotes : List String) (hquotes : Keeps [] (closeLines quotes)) :
      Keeps [] (closeLines (packageLines ++ quotes)) := by
    rw [closeLines_append]
    exact (fixedLines_keep packageLines List.mem_cons_self).append hquotes
  cases layout with
  | midterm =>
    have hfront : Keeps [] "% packages\n\\usepackage[margin=1in]\x7bgeometry\x7d\n" :=
      keeps_fixed rfl
    exact hfront.append (hlines [] gives_nil.keeps)
  | quiz =>
    have hfront : Keeps [] "% packages\n\\usepackage[margin=0.5in]\x7bgeometry\x7d\n" :=
      keeps_fixed rfl
    exact hfront.append (hlines ["\\usepackage" ++ braced "upquote"] (keeps_fixed rfl))

theorem fixedPreamble_keeps : Keeps [] fixedPreamble := by
  have hchoices : Keeps [] "\n% choices\n" := keeps_fixed rfl
  have htrueFalse : Keeps [] "\n% true/false\n" := keeps_fixed rfl
  have hlistings : Keeps [] "\n% listings\n" := keeps_fixed rfl
  have hfirst := hchoices.append (fixedLines_keep choiceLines (by simp))
  have hsecond := (hfirst.append htrueFalse).append (fixedLines_keep trueFalseLines (by simp))
  exact (hsecond.append hlistings).append (fixedLines_keep listingLines (by simp))

end ExamVariants.Latex
