import ExamVariants.Proofs.Latex.Fitting

namespace ExamVariants.Latex

def macroLine : String × Option String → String
  | (name, some text) => newCommand name text
  | (_, none) => ""

theorem definitions_eq_join (e : Exam) :
    parameterDefinitions e ++ sectionDefinitions e =
      String.join ((macroTexts e).map macroLine) := by
  have hsection : sectionDefinitions e = String.join ([("examsection", e.section?.map Section.name),
      ("sectionta", e.section?.bind Section.teachingAssistant)].map macroLine) := by
    rw [sectionDefinitions]
    cases e.section? with
    | none => rfl
    | some s =>
      simp only [List.map_cons, List.map_nil, String.join_cons, String.join_nil, Option.map_some,
        Option.bind_some, String.append_empty]
      cases s.teachingAssistant <;> rfl
  have hparameters : parameterDefinitions e =
      String.join ((parameterCommands.map fun c => (c.2, e.text? c.1)).map macroLine) := by
    rw [parameterDefinitions, List.map_map]
    congr 1
    refine List.map_congr_left fun c _ => ?_
    simp only [Function.comp_apply]
    cases e.text? c.1 <;> rfl
  rw [hparameters, hsection, macroTexts, List.map_append, String.join_append]

theorem newCommand_gives {name : String} (hname : name ∈ macroWords) (value : String) :
    Gives (newCommand name value) [definition name] := by
  have hbrace : '\x7d' ∉ ("\\" ++ name).toList := by
    revert name
    decide
  have hopening : readFrom Scan.step .text ("\\newcommand" ++ "\x7b").toList =
      some (.argument "newcommand" '\x7d' [], []) := by decide
  have hvalue := braced_gives (by decide : Gives ("" ++ "\x7b") []) (escapeText_gives value)
  have hall := ((gives_argument hopening hbrace).append hvalue).append newLine_gives
  have hclosing : String.singleton '\x7d' = "\x7d" := rfl
  simpa only [newCommand, braced, definition, hclosing, String.append_assoc, String.empty_append,
    List.append_nil] using hall

theorem join_gives {α : Type} {f : α → String} {words : α → List ControlWord} {xs : List α}
    (h : ∀ x ∈ xs, Gives (f x) (words x)) :
    Gives (String.join (xs.map f)) (xs.flatMap words) := by
  induction xs with
  | nil => exact gives_nil
  | cons x xs ih =>
    obtain ⟨hx, hxs⟩ := List.forall_mem_cons.mp h
    rw [List.map_cons, String.join_cons, List.flatMap_cons]
    exact hx.append (ih hxs)

theorem definitions_give (e : Exam) :
    Gives (parameterDefinitions e ++ sectionDefinitions e) ((boundMacros e).map definition) := by
  have hwords : (boundMacros e).map definition =
      (macroTexts e).flatMap fun m => (m.2.map fun _ => definition m.1).toList := by
    rw [boundMacros, List.map_filterMap, List.filterMap_eq_flatMap_toList]
    simp only [Option.map_map, Function.comp_def]
  rw [definitions_eq_join, hwords]
  refine join_gives fun m hm => ?_
  have hname : m.1 ∈ macroWords := map_fst_macroTexts e ▸ List.mem_map_of_mem hm
  obtain ⟨name, text⟩ := m
  cases text with
  | none => exact gives_nil
  | some text => exact newCommand_gives hname text

section Pages

variable {e : Exam}

theorem keeps_parameter {p : Parameter} (name : String) (hp : (p, name) ∈ parameterCommands)
    (h : hasText e p = true) {s : String} (hs : Gives s [⟨name, none⟩]) :
    Keeps (boundMacros e) s :=
  keeps_use (mem_boundMacros_of_hasText hp h) hs

theorem headerParts_keep (e : Exam) {command : String}
    (hcommand : Keeps (boundMacros e) (command ++ "\x7b")) :
    Keeps (boundMacros e) (command ++ headerParts e) := by
  have hleft : Keeps (boundMacros e)
      ((if hasText e .courseId then "\\scriptsize \\coursenumber" ++ braced "" else "") ++
        "\x7d") := by
    cases h : hasText e .courseId with
    | false => exact keeps_fixed rfl
    | true => exact keeps_parameter "coursenumber" (by decide) h rfl
  have hpage : Keeps (boundMacros e)
      ((if e.section?.isSome then "Page \\examsection" ++ braced "" ++ "-\\thepage\\ of \\numpages"
        else "Page \\thepage\\ of \\numpages") ++ "\x7d") := by
    cases h : e.section?.isSome with
    | false => exact keeps_fixed rfl
    | true => exact keeps_use (examsection_mem_boundMacros h) rfl
  have hcenter (page : String) (hpage : Keeps (boundMacros e) (page ++ "\x7d")) :
      Keeps (boundMacros e)
        ((if hasText e .title then "\\scriptsize \\examtitle\\ - " ++ page
          else "\\scriptsize " ++ page) ++ "\x7d") := by
    cases h : hasText e .title with
    | false =>
      have hfront : Keeps (boundMacros e) "\\scriptsize " := keeps_fixed rfl
      have hall := hfront.append hpage
      rwa [← String.append_assoc] at hall
    | true =>
      have hfront : Keeps (boundMacros e) "\\scriptsize \\examtitle\\ - " :=
        keeps_parameter "examtitle" (by decide) h rfl
      have hall := hfront.append hpage
      rwa [← String.append_assoc] at hall
  have hright : Keeps (boundMacros e)
      ((if hasText e .date then "\\scriptsize \\examdate" else "") ++ "\x7d") := by
    cases h : hasText e .date with
    | false => exact keeps_fixed rfl
    | true => exact keeps_parameter "examdate" (by decide) h rfl
  have hbrace : Keeps (boundMacros e) "\x7b" := keeps_fixed rfl
  have hfirst := keeps_braced hcommand hleft
  have hsecond := keeps_braced (hfirst.append hbrace) (hcenter _ hpage)
  have hall := keeps_braced (hsecond.append hbrace) hright
  simpa only [headerParts, String.append_assoc] using hall

theorem pageStyle_keeps (layout : Layout) (e : Exam) :
    Keeps (boundMacros e) (pageStyle layout e) := by
  have hfront : Keeps (boundMacros e) ("\n% page\n\\pagestyle" ++ braced "head" ++ "\n") :=
    keeps_fixed rfl
  cases layout with
  | midterm =>
    have hcommand : Keeps (boundMacros e) ("\\firstpageheader" ++ braced "" ++ braced "" ++
        braced "" ++ "\n\\runningheader" ++ "\x7b") := keeps_fixed rfl
    have hrule : Keeps (boundMacros e) "\n\\runningheadrule\n" := keeps_fixed rfl
    exact hfront.append ((headerParts_keep e hcommand).append hrule)
  | quiz =>
    have hcommand : Keeps (boundMacros e) ("\\header" ++ "\x7b") := keeps_fixed rfl
    have hrule : Keeps (boundMacros e) "\n\\headrule\n" := keeps_fixed rfl
    exact hfront.append ((headerParts_keep e hcommand).append hrule)

theorem titleBlock_keeps (e : Exam) : Keeps (boundMacros e) (titleBlock e) := by
  -- Each macro stands behind the test that its parameter holds a text.
  have hlines : ∀ l ∈ [(Parameter.term, "\\term"), (Parameter.title, "\\examtitle")].filterMap
      (fun c => if hasText e c.1 then some c.2 else none),
      Keeps (boundMacros e) ("        " ++ l ++ "\\\\\n") := by
    intro l hl
    obtain ⟨⟨p, command⟩, hp, hl⟩ := List.mem_filterMap.mp hl
    simp only [Option.ite_none_right_eq_some, Option.some.injEq] at hl
    obtain ⟨h, rfl⟩ := hl
    simp only [List.mem_cons, List.not_mem_nil, or_false] at hp
    rcases hp with hp | hp
    · obtain ⟨rfl, rfl⟩ := Prod.mk.inj hp
      exact keeps_parameter "term" (by decide) h rfl
    · obtain ⟨rfl, rfl⟩ := Prod.mk.inj hp
      exact keeps_parameter "examtitle" (by decide) h rfl
  have hheading (lines : List String)
      (h : ∀ l ∈ lines, Keeps (boundMacros e) ("        " ++ l ++ "\\\\\n")) :
      Keeps (boundMacros e) (if lines.isEmpty then "" else "    \x7b\\LARGE\\bfseries\n" ++
        String.join (lines.map fun l => "        " ++ l ++ "\\\\\n") ++ "    \x7d\n") := by
    have hopen : Keeps (boundMacros e) "    \x7b\\LARGE\\bfseries\n" :=
      keeps_fixed rfl
    have hclose : Keeps (boundMacros e) "    \x7d\n" := keeps_fixed rfl
    split
    · exact gives_nil.keeps
    · exact (hopen.append (keeps_join (List.forall_mem_map.mpr h))).append hclose
  have hdate : Keeps (boundMacros e) (if hasText e .date then
        "    \\vspace" ++ braced "0.2cm" ++ "\n    " ++ braced "\\large \\examdate" ++ "\n"
      else "") := by
    cases h : hasText e .date with
    | false => exact gives_nil.keeps
    | true => exact keeps_parameter "examdate" (by decide) h rfl
  have hbegin : Keeps (boundMacros e) ("% title\n" ++ beginEnvironment "center") :=
    keeps_fixed rfl
  have hend : Keeps (boundMacros e) (endEnvironment "center") := keeps_fixed rfl
  unfold titleBlock
  dsimp only
  split
  · exact gives_nil.keeps
  · exact ((hbegin.append (hheading _ hlines)).append hdate).append hend

/-- A row with a label and a value that keep within their cells. -/
def RowKeeps (bound : List String) (row : String × String) : Prop :=
  Keeps [] (row.1 ++ "\x7d") ∧ Keeps bound row.2

theorem table_keeps {bound : List String} {comment stretch : String}
    (hcomment : Keeps [] s!"\n% {comment}\n") (hstretch : Keeps [] (stretch ++ "\x7d"))
    {rows : List (String × String)}
    (hrows : ∀ row ∈ rows, RowKeeps bound row) :
    Keeps bound (table comment stretch rows) := by
  have hspace : Keeps bound ("\\vspace" ++ braced "0.5cm" ++ "\n\\noindent\n\\renewcommand" ++
      braced "\\arraystretch" ++ "\x7b") := keeps_fixed rfl
  have hbegin : Keeps bound ("\n\\begin" ++ braced "tabularx" ++ braced "\\textwidth" ++
      braced "|l|X|" ++ "\n    \\hline\n") := keeps_fixed rfl
  have hlabel : Keeps bound ("    \\textbf" ++ "\x7b") := keeps_fixed rfl
  have hgap : Keeps bound " & " := keeps_fixed rfl
  have hline : Keeps bound "\\\\\n    \\hline\n" := keeps_fixed rfl
  have hend : Keeps bound (endEnvironment "tabularx") := keeps_fixed rfl
  have hjoin : Keeps bound (String.join (rows.map fun row =>
      "    \\textbf" ++ braced row.1 ++ " & " ++ row.2 ++ "\\\\\n    \\hline\n")) := by
    refine keeps_join (List.forall_mem_map.mpr fun row hrow => ?_)
    obtain ⟨hname, hvalue⟩ := hrows row hrow
    exact (((keeps_braced hlabel hname.of_nil).append hgap).append hvalue).append hline
  have hcomment : Keeps bound s!"\n% {comment}\n" := hcomment.of_nil
  have hstretch := keeps_braced hspace hstretch.of_nil
  have hall := (((hcomment.append hstretch).append hbegin).append hjoin).append hend
  unfold table
  simp only [String.append_assoc] at hall ⊢
  exact hall

theorem rows_keep_if {bound : List String} {b : Bool} {label value : String}
    (hlabel : Keeps [] (label ++ "\x7d")) (hvalue : b = true → Keeps bound value) :
    ∀ row ∈ if b then [(label, value)] else [], RowKeeps bound row := by
  cases b with
  | false => exact List.forall_mem_nil _
  | true => exact List.forall_mem_singleton.mpr ⟨hlabel, hvalue rfl⟩

theorem studentTable_keeps (e : Exam) : Keeps (boundMacros e) (studentTable e) := by
  have hempty (label : String) (h : Keeps [] (label ++ "\x7d")) :
      RowKeeps (boundMacros e) (label, "") := ⟨h, gives_nil.keeps⟩
  have hnames : ∀ row ∈ [("Last Name", ""), ("First Name", "")], RowKeeps (boundMacros e) row :=
    List.forall_mem_cons.mpr ⟨hempty _ (keeps_fixed rfl),
      List.forall_mem_singleton.mpr (hempty _ (keeps_fixed rfl))⟩
  have hsection : ∀ row ∈ if e.section?.isSome then [("Section", "\\examsection ")] else [],
      RowKeeps (boundMacros e) row :=
    rows_keep_if (keeps_fixed rfl) fun h =>
      keeps_use (examsection_mem_boundMacros h) rfl
  have hnumber : ∀ row ∈ [("Student Number", "")], RowKeeps (boundMacros e) row :=
    List.forall_mem_singleton.mpr (hempty _ (keeps_fixed rfl))
  refine table_keeps (keeps_fixed rfl) (keeps_fixed rfl) ?_
  exact List.forall_mem_append.mpr ⟨List.forall_mem_append.mpr ⟨hnames, hsection⟩, hnumber⟩

theorem courseRows_keep (e : Exam) : ∀ row ∈ courseRows e, RowKeeps (boundMacros e) row := by
  have hlabel : Keeps [] ("Course" ++ "\x7d") := keeps_fixed rfl
  have hcrn := rows_keep_if (b := hasText e .courseReferenceNumber)
    (keeps_fixed rfl : Keeps [] ("CRN" ++ "\x7d")) fun h =>
      keeps_parameter "crn" (by decide) h (rfl : Gives "\\crn " _)
  have hinstructors := rows_keep_if (b := hasText e .instructors)
    (keeps_fixed rfl : Keeps [] ("Instructors" ++ "\x7d")) fun h =>
      keeps_parameter "instructors" (by decide) h (rfl : Gives "\\instructors " _)
  have hassistant := rows_keep_if (b := hasAssistant e)
    (keeps_fixed rfl : Keeps [] ("Teaching Assistant" ++ "\x7d")) fun h =>
      keeps_use (sectionta_mem_boundMacros h) (rfl : Gives "\\sectionta " _)
  have hduration := rows_keep_if (b := hasText e .timeLimit)
    (keeps_fixed rfl : Keeps [] ("Duration" ++ "\x7d")) fun h =>
      keeps_parameter "timelimit" (by decide) h (rfl : Gives "\\timelimit " _)
  unfold courseRows
  simp only [List.forall_mem_append]
  refine ⟨⟨⟨⟨?_, hcrn⟩, hinstructors⟩, hassistant⟩, hduration⟩
  cases hnumber : hasText e .courseId <;> cases hname : hasText e .course
  case true.true =>
    have hfront : Keeps (boundMacros e) ("\\coursenumber" ++ braced "") :=
      keeps_parameter "coursenumber" (by decide) hnumber rfl
    have hend : Keeps (boundMacros e) " - \\course " :=
      keeps_parameter "course" (by decide) hname rfl
    exact List.forall_mem_singleton.mpr ⟨hlabel, hfront.append hend⟩
  case true.false =>
    exact List.forall_mem_singleton.mpr
      ⟨hlabel, keeps_parameter "coursenumber" (by decide) hnumber rfl⟩
  case false.true =>
    exact List.forall_mem_singleton.mpr
      ⟨hlabel, keeps_parameter "course" (by decide) hname rfl⟩
  case false.false => exact List.forall_mem_nil _

theorem courseTable_keeps (e : Exam) : Keeps (boundMacros e) (courseTable e) := by
  have hrows := courseRows_keep e
  have hend : Keeps (boundMacros e)
      ("\\renewcommand" ++ braced "\\arraystretch" ++ braced "1" ++ "\n") :=
    keeps_fixed rfl
  rw [courseTable]
  cases heq : courseRows e with
  | nil => exact gives_nil.keeps
  | cons row rows =>
    rw [heq] at hrows
    have htable : Keeps (boundMacros e) (table "course information" "1.2" (row :: rows)) :=
      table_keeps (keeps_fixed rfl) (keeps_fixed rfl) hrows
    have hall := htable.append hend
    simp only [← String.append_assoc] at hall
    exact hall

theorem titlePage_keeps (layout : Layout) (e : Exam) :
    Keeps (boundMacros e) (titlePage layout e) := by
  cases layout with
  | midterm =>
    exact ((titleBlock_keeps e).append (studentTable_keeps e)).append (courseTable_keeps e)
  | quiz =>
    have hfront : Keeps (boundMacros e) "\\noindent\n" := keeps_fixed rfl
    have htitle : Keeps (boundMacros e)
        (if hasText e .title then braced "\\large\\bfseries \\examtitle" else "") := by
      cases h : hasText e .title with
      | false => exact gives_nil.keeps
      | true => exact keeps_parameter "examtitle" (by decide) h rfl
    have hname : Keeps (boundMacros e) ("\\hfill Name:\\enspace\\makebox[6cm]" ++
        braced "\\hrulefill" ++ "\n") := keeps_fixed rfl
    have hall := (hfront.append htitle).append hname
    simpa only [titlePage, String.append_assoc] using hall

end Pages

/-- What stands in front of the instructions: the fixed lines, which use no macro, the definitions,
and the page style and title page. -/
theorem opening_gives (layout : Layout) (solutions : Bool) (e : Exam) :
    ∃ fixed uses, Gives (opening layout solutions e)
        (fixed ++ (boundMacros e).map definition ++ uses) ∧
      (∀ w ∈ fixed, Fits [] w) ∧ ∀ w ∈ uses, Fits (boundMacros e) w := by
  have hparameters : Keeps [] "\n% parameters\n" := keeps_fixed rfl
  have hdocument : Keeps (boundMacros e) ("\n" ++ beginEnvironment "document") :=
    keeps_fixed rfl
  obtain ⟨fixed, hfixed, hfits⟩ := (((documentClass_keeps layout solutions).append
    (packages_keep layout)).append fixedPreamble_keeps).append hparameters
  obtain ⟨uses, huses, hfits'⟩ := ((pageStyle_keeps layout e).append hdocument).append
    (titlePage_keeps layout e)
  refine ⟨fixed, uses, ?_, hfits, hfits'⟩
  have hall := (hfixed.append (definitions_give e)).append huses
  simpa only [opening, String.append_assoc] using hall

theorem instructionItems_give {m : Mode} {ss : List Segment} (hprose : ∀ s ∈ ss, IsProse s)
    {out : String} (h : instructionItems m ss = .ok out) : Gives out [] := by
  induction ss generalizing out with
  | nil =>
    obtain rfl := Except.ok.inj h
    exact gives_nil
  | cons s ss ih =>
    obtain ⟨hs, hss⟩ := List.forall_mem_cons.mp hprose
    rw [instructionItems] at h
    obtain ⟨first, hfirst, h⟩ := bind_eq_ok_iff.mp h
    obtain ⟨rest, hrest, h⟩ := bind_eq_ok_iff.mp h
    obtain rfl := pure_eq_ok_iff.mp h
    have hitem : Gives "    \\item " [] := rfl
    exact ((hitem.append (text_gives hs hfirst)).append newLine_gives).append (ih hss hrest)

theorem instructions_keep {bound : List String} {m : Mode} {e : Exam}
    (hprose : ∀ s ∈ e.instructions, IsProse s) {out : String}
    (h : instructions m e = .ok out) : Keeps bound out := by
  rw [instructions] at h
  split at h
  · obtain rfl := Except.ok.inj h
    exact gives_nil.keeps
  · obtain ⟨items, hitems, h⟩ := bind_eq_ok_iff.mp h
    obtain rfl := pure_eq_ok_iff.mp h
    have hbegin : Keeps bound ("\n% instructions\n\\vspace" ++ braced "0.5cm" ++ "\n\\noindent\n" ++
        braced "\\large\\bfseries Instructions" ++ "\n\\begin" ++ braced "itemize" ++
        "[noitemsep]\n") := keeps_fixed (by decide +kernel)
    have hend : Keeps bound (endEnvironment "itemize") := keeps_fixed rfl
    exact (hbegin.append (instructionItems_give hprose hitems).keeps).append hend

/-- A document by its control words. In front of the questions, fixed words that use no macro, one
definition for each macro that holds a text, and words that use those macros only; then the words of
the questions. -/
theorem render_gives {layout : Layout} {solutions : Bool} {e : Exam} {out : String}
    (hprose : ∀ s ∈ printed solutions e, IsProse s) (h : render layout solutions e = .ok out) :
    ∃ fixed uses, Gives out (fixed ++ (boundMacros e).map definition ++ uses ++
        environmentWords "questions" (questionWords solutions e.questions) ++
        [⟨"end", some "document"⟩]) ∧
      (∀ w ∈ fixed, Fits [] w) ∧ ∀ w ∈ uses, Fits (boundMacros e) w := by
  obtain ⟨hinstructions, hquestions⟩ := List.forall_mem_append.mp hprose
  rw [render] at h
  obtain ⟨front, hfront, h⟩ := bind_eq_ok_iff.mp h
  obtain ⟨text, htext, h⟩ := bind_eq_ok_iff.mp h
  obtain rfl := pure_eq_ok_iff.mp h
  obtain ⟨fixed, opened, hopening, hfits, hopened⟩ := opening_gives layout solutions e
  have hheading : Keeps (boundMacros e) (questionsHeading layout) := by
    cases layout <;> exact keeps_fixed (by decide +kernel)
  obtain ⟨uses, huses, hfits'⟩ := (instructions_keep hinstructions hfront).append hheading
  have hformat : Gives "\\bracketedpoints\n\\marksnotpoints\n" [] := rfl
  have hbody := hformat.append (questions_gives (List.forall_mem_flatMap.mp hquestions) htext)
  have hquestions := environment_gives (by decide : '\x7d' ∉ "questions".toList) hbody
  have hall := ((hopening.append huses).append hquestions).append
    (endEnvironment_gives (by decide : '\x7d' ∉ "document".toList))
  refine ⟨fixed, opened ++ uses, ?_, hfits, List.forall_mem_append.mpr ⟨hopened, hfits'⟩⟩
  simpa only [String.append_assoc, List.append_assoc, List.nil_append] using hall

end ExamVariants.Latex
