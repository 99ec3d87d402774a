import ExamVariants.Proofs.Latex.Demands
import ExamVariants.Proofs.Style.Leaves

namespace ExamVariants

namespace RenderError

def target : RenderError → Notation
  | unsupportedStyle n _ => n
  | codeInArgument n _ => n
  | nestedTooDeep n _ => n
  | noInlineDelimiter n => n
  | controlCharacter _ => .moodleXml

/-- The same error of another notation; control characters are an error of XML only. -/
def retarget (n : Notation) : RenderError → RenderError
  | unsupportedStyle _ style => unsupportedStyle n style
  | codeInArgument _ path => codeInArgument n path
  | nestedTooDeep _ path => nestedTooDeep n path
  | noInlineDelimiter _ => noInlineDelimiter n
  | controlCharacter c => controlCharacter c

/-- The message of an error is the name of its notation and a text that does not depend on it. -/
theorem exists_message_eq {err : RenderError} (h : err.target ≠ .moodleXml) :
    ∃ rest, err.message = err.target.slug ++ rest ∧
      ∀ n, (err.retarget n).message = n.slug ++ rest := by
  cases err with
  | unsupportedStyle n style => exact ⟨_, String.append_assoc, fun _ => String.append_assoc⟩
  | codeInArgument n path => exact ⟨_, String.append_assoc, fun _ => String.append_assoc⟩
  | nestedTooDeep n path =>
    refine ⟨" cannot render question " ++ (path.label ++
      ": compound questions nest at most three levels"), ?_, fun n => ?_⟩
    · exact String.append_assoc.trans String.append_assoc
    · exact String.append_assoc.trans String.append_assoc
  | noInlineDelimiter n => exact ⟨_, String.append_assoc, fun _ => String.append_assoc⟩
  | controlCharacter c => exact absurd rfl h

end RenderError

namespace Latex

def Retargeted (n n' : Notation) (err err' : RenderError) : Prop :=
  err.target = n ∧ err' = err.retarget n'

section Texts

variable {n n' : Notation}

theorem check_alike (ss : List Style) : Alike (Retargeted n n') (check n ss) (check n' ss) := by
  rw [check, check]
  split
  · exact .error ⟨rfl, rfl⟩
  · exact .ok ()

theorem wrap_alike (style : Style) (inner : String) :
    Alike (Retargeted n n') (wrap n style inner) (wrap n' style inner) := by
  cases style with
  | inlineCode =>
    rw [wrap, wrap]
    split
    · exact .ok _
    · exact .error ⟨rfl, rfl⟩
  | _ => exact .ok _

theorem foldlM_wrap_alike (ss : List Style) (inner : String) :
    Alike (Retargeted n n') (ss.foldlM (fun inner style => wrap n style inner) inner)
      (ss.foldlM (fun inner style => wrap n' style inner) inner) := by
  induction ss generalizing inner with
  | nil => exact .ok inner
  | cons style ss ih => exact (wrap_alike style inner).bind ih

theorem renderLeaf_alike (l : Leaf) :
    Alike (Retargeted n n') ((styles n).renderLeaf l) ((styles n').renderLeaf l) :=
  (check_alike l.styles).bind fun _ =>
    (Alike.ok _).bind fun _ => (foldlM_wrap_alike l.styles _).map _

theorem render_alike (s : Segment) :
    Alike (Retargeted n n') ((styles n).render s) ((styles n').render s) := by
  rw [StyleTable.render_eq_renderLeaves, StyleTable.render_eq_renderLeaves]
  induction s.leaves with
  | nil => exact .ok ""
  | cons l ls ih => exact (renderLeaf_alike l).bind fun _ => ih.map _

end Texts

section Questions

variable {n n' : Notation} {solutions : Bool}

theorem rejectCode_alike (path : QuestionPath) (s : Segment) :
    Alike (Retargeted n n') (Mode.rejectCode ⟨n, solutions⟩ path s)
      (Mode.rejectCode ⟨n', solutions⟩ path s) := by
  rw [Mode.rejectCode, Mode.rejectCode]
  split
  · exact .error ⟨rfl, rfl⟩
  · exact .ok ()

theorem answerSpace_alike (modelAnswer : Segment) (answerLength : String) :
    Alike (Retargeted n n') (Mode.answerSpace ⟨n, solutions⟩ modelAnswer answerLength)
      (Mode.answerSpace ⟨n', solutions⟩ modelAnswer answerLength) := by
  cases solutions with
  | false => exact .ok _
  | true => exact (render_alike modelAnswer).map _

theorem choices_alike (path : QuestionPath) (cs : List Choice) :
    Alike (Retargeted n n') (Mode.choices ⟨n, solutions⟩ path cs)
      (Mode.choices ⟨n', solutions⟩ path cs) := by
  induction cs with
  | nil => exact .ok ""
  | cons c cs ih =>
    have hchoice : Alike (Retargeted n n') (Mode.choice ⟨n, solutions⟩ path c)
        (Mode.choice ⟨n', solutions⟩ path c) :=
      (rejectCode_alike path c.statement).bind fun _ => (render_alike c.statement).map _
    exact hchoice.bind fun _ => ih.map _

theorem children_alike {qs : List Question}
    (hqs : ∀ q ∈ qs, ∀ path depth, Alike (Retargeted n n') (Mode.body ⟨n, solutions⟩ path depth q)
      (Mode.body ⟨n', solutions⟩ path depth q)) (path : QuestionPath) (depth : Nat)
    (command : String) (index : Nat) :
    Alike (Retargeted n n') (Mode.children ⟨n, solutions⟩ path depth command index qs)
      (Mode.children ⟨n', solutions⟩ path depth command index qs) := by
  induction qs generalizing index with
  | nil => exact .ok ""
  | cons q qs ih =>
    obtain ⟨hq, hqs⟩ := List.forall_mem_cons.mp hqs
    exact (hq _ _).bind fun _ => (ih hqs _).map _

theorem body_alike (q : Question) (path : QuestionPath) (depth : Nat) :
    Alike (Retargeted n n') (Mode.body ⟨n, solutions⟩ path depth q)
      (Mode.body ⟨n', solutions⟩ path depth q) := by
  induction q generalizing path depth with
  | openEnded statement modelAnswer points answerLength =>
    exact (render_alike statement).bind fun _ => (answerSpace_alike modelAnswer answerLength).map _
  | closedEnded statement points choices =>
    exact (render_alike statement).bind fun _ => (choices_alike path choices).map _
  | trueFalse statement answer points =>
    exact (rejectCode_alike path statement).bind fun _ => (render_alike statement).map _
  | compound statement points children ih =>
    rw [Mode.body, Mode.body]
    cases level? depth with
    | none => exact .error ⟨rfl, rfl⟩
    | some level =>
      exact (render_alike statement).bind fun _ =>
        (children_alike ih path depth level.command 0).map _

theorem renderQuestion_alike (layout layout' : Layout) (solutions : Bool) (number : Nat)
    (q : Question) :
    Alike (Retargeted layout.target layout'.target) (renderQuestion layout solutions number q)
      (renderQuestion layout' solutions number q) :=
  (body_alike q [number] 0).map _

end Questions

/-- The end of a document: two lines that set the format of points, and the texts of the questions
with a new line between two. -/
def questionPart (texts : List String) : String :=
  beginEnvironment "questions" ++ "\\bracketedpoints\n\\marksnotpoints\n" ++
    "\n".intercalate texts ++ endEnvironment "questions" ++ endEnvironment "document"

/-- The texts of numbered questions, each rendered by itself. -/
def AreTexts (layout : Layout) (solutions : Bool) :
    List (Question × Nat) → List String → Prop :=
  List.Forall₂ fun n text => renderQuestion layout solutions n.2 n.1 = .ok text

theorem intercalate_cons (sep text : String) (texts : List String) :
    sep.intercalate (text :: texts) = text ++ String.join (texts.map (sep ++ ·)) := by
  induction texts generalizing text with
  | nil => rw [String.intercalate_singleton, List.map_nil, String.join_nil, String.append_empty]
  | cons next texts ih =>
    rw [String.intercalate_cons_cons, ih, List.map_cons, String.join_cons, String.append_assoc,
      String.append_assoc]

section Documents

variable {layout : Layout} {solutions : Bool} {index : Nat} {qs : List Question} {out : String}

theorem exists_texts_of_questions_succ
    (h : questions ⟨layout.target, solutions⟩ (index + 1) qs = .ok out) :
    ∃ texts, AreTexts layout solutions (qs.zipIdx (index + 2)) texts ∧
      out = String.join (texts.map ("\n" ++ ·)) := by
  induction qs generalizing index out with
  | nil => exact ⟨[], .nil, (Except.ok.inj h).symm⟩
  | cons q qs ih =>
    rw [questions] at h
    obtain ⟨first, hfirst, h⟩ := bind_eq_ok_iff.mp h
    obtain ⟨rest, hrest, h⟩ := bind_eq_ok_iff.mp h
    obtain ⟨texts, htexts, rfl⟩ := ih hrest
    refine ⟨first :: texts, .cons hfirst htexts, ?_⟩
    rw [← pure_eq_ok_iff.mp h, List.map_cons, String.join_cons, if_neg (Nat.succ_ne_zero index)]

theorem exists_texts_of_questions (h : questions ⟨layout.target, solutions⟩ 0 qs = .ok out) :
    ∃ texts, AreTexts layout solutions (qs.zipIdx 1) texts ∧ out = "\n".intercalate texts := by
  cases qs with
  | nil => exact ⟨[], .nil, (Except.ok.inj h).symm⟩
  | cons q qs =>
    rw [questions] at h
    obtain ⟨first, hfirst, h⟩ := bind_eq_ok_iff.mp h
    obtain ⟨rest, hrest, h⟩ := bind_eq_ok_iff.mp h
    obtain ⟨texts, htexts, rfl⟩ := exists_texts_of_questions_succ hrest
    refine ⟨first :: texts, .cons hfirst htexts, ?_⟩
    rw [← pure_eq_ok_iff.mp h, intercalate_cons, if_pos rfl, String.empty_append]

theorem AreTexts.of_layout {numbered : List (Question × Nat)} {texts : List String}
    (h : AreTexts layout solutions numbered texts) (layout' : Layout) :
    AreTexts layout' solutions numbered texts := by
  refine List.Forall₂.imp (fun n text htext => ?_) h
  have halike := renderQuestion_alike layout layout' solutions n.2 n.1
  rw [htext] at halike
  generalize renderQuestion layout' solutions n.2 n.1 = text' at halike ⊢
  cases halike
  rfl

end Documents

/-- A document ends with the texts of its questions, and both layouts print the same. On any
question the layouts agree: both render the same text, or both fail, with errors whose messages
differ in the name of the notation only. -/
theorem layouts_share_questions (solutions : Bool) :
    (∀ layout e out, render layout solutions e = .ok out → ∃ front texts,
      (∀ layout', AreTexts layout' solutions (e.questions.zipIdx 1) texts) ∧
        out = front ++ questionPart texts) ∧
    ∀ number q,
      (∃ text, renderQuestion .midterm solutions number q = .ok text ∧
        renderQuestion .quiz solutions number q = .ok text) ∨
      ∃ err rest, renderQuestion .midterm solutions number q = .error err ∧
        renderQuestion .quiz solutions number q = .error (err.retarget .latexQuiz) ∧
        err.message = Notation.latexMidterm.slug ++ rest ∧
        (err.retarget .latexQuiz).message = Notation.latexQuiz.slug ++ rest := by
  constructor
  · intro layout e out h
    rw [render] at h
    obtain ⟨front, -, h⟩ := bind_eq_ok_iff.mp h
    obtain ⟨text, htext, h⟩ := bind_eq_ok_iff.mp h
    obtain rfl := pure_eq_ok_iff.mp h
    obtain ⟨texts, htexts, rfl⟩ := exists_texts_of_questions htext
    refine ⟨opening layout solutions e ++ front ++ questionsHeading layout, texts,
      htexts.of_layout, ?_⟩
    simp only [questionPart, String.append_assoc]
  · intro number q
    -- Nothing is needed of the two results but that they are alike.
    have halike := renderQuestion_alike .midterm .quiz solutions number q
    generalize renderQuestion .midterm solutions number q = x at halike ⊢
    generalize renderQuestion .quiz solutions number q = y at halike ⊢
    cases halike with
    | ok text => exact .inl ⟨text, rfl, rfl⟩
    | error hretargeted =>
      obtain ⟨htarget, rfl⟩ := hretargeted
      obtain ⟨rest, hmessage, hmessage'⟩ :=
        RenderError.exists_message_eq (fun h => by rw [h] at htarget; cases htarget)
      rw [htarget] at hmessage
      exact .inr ⟨_, rest, rfl, rfl, hmessage, hmessage' _⟩

theorem layouts_share_questions_nestedSheet :
    let sheet := nestedSheet (.trueFalse (.plain "pick") false 2)
    let listed := Question.trueFalse (.simple "x := 1" [.code]) true 1
    (∃ out front texts, render .quiz false sheet = .ok out ∧ out = front ++ questionPart texts ∧
      AreTexts .midterm false (sheet.questions.zipIdx 1) texts) ∧
    ∃ rest, (RenderError.codeInArgument .latexMidterm [7]).message = "latex-midterm" ++ rest ∧
      renderQuestion .quiz false 7 listed = .error (.codeInArgument .latexQuiz [7]) ∧
      (RenderError.codeInArgument .latexQuiz [7]).message = "latex-quiz" ++ rest := by
  intro sheet listed
  constructor
  · have hcodeless : ∀ s ∈ ["true or false", "pick"].map Segment.plain, s.hasStyle .code = false :=
      List.forall_mem_map.mpr fun t _ => rfl
    have hrendered : ∀ s ∈ ["Answer all.", "true or false", "two parts", "why", "then", "so",
        "pick"].map Segment.plain, ∃ out, (styles .latexQuiz).render s = .ok out :=
      List.forall_mem_map.mpr fun t _ => ⟨escapeText t, rfl⟩
    obtain ⟨out, hout⟩ : ∃ out, render .quiz false sheet = .ok out := by
      refine exists_render_eq_ok_iff.mpr ⟨?_, hcodeless, hrendered⟩
      simp [sheet, nestedSheet, Question.nesting, Question.nestingOf]
    obtain ⟨front, texts, htexts, hpart⟩ := (layouts_share_questions false).1 .quiz sheet out hout
    exact ⟨out, front, texts, hout, hpart, htexts .midterm⟩
  · rcases (layouts_share_questions false).2 7 listed with
      ⟨text, h, -⟩ | ⟨err, rest, h, h', hmessage⟩
    · cases h
    · obtain rfl := Except.error.inj h
      exact ⟨rest, hmessage.1, h', hmessage.2⟩

end Latex

end ExamVariants
