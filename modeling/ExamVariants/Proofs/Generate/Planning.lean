import ExamVariants.Generate.Document
import ExamVariants.Proofs.Outcome

/-!
The stages of a plan: what a plan holds when all of them succeed, and which failure it reports when
one of them fails. All stages come before the first file, so a document without a plan changes
nothing but the log.
-/

namespace ExamVariants

theorem renderTwin_eq_ok_iff {variant : Exam} {target : Notation} {t : Twin} :
    renderTwin variant target = .ok t ↔ t.target = target ∧
      render variant target false = .ok t.examination ∧
        render variant target true = .ok t.solutions := by
  simp only [renderTwin, bind_eq_ok_iff, pure_eq_ok_iff]
  constructor
  · rintro ⟨examination, hexamination, solutions, hsolutions, rfl⟩
    exact ⟨rfl, hexamination, hsolutions⟩
  · rintro ⟨rfl, hexamination, hsolutions⟩
    exact ⟨_, hexamination, _, hsolutions, rfl⟩

/-- The half for learners is rendered first, so only its success lets the other half fail. -/
theorem renderTwin_eq_error_iff {variant : Exam} {target : Notation} {e : RenderError} :
    renderTwin variant target = .error e ↔ ∃ solutions,
      (solutions = true → ∃ text, render variant target false = .ok text) ∧
        render variant target solutions = .error e := by
  simp only [renderTwin, bind_eq_error_iff]
  constructor
  · rintro (he | ⟨text, htext, he | ⟨_, -, hpure⟩⟩)
    · exact ⟨false, by simp, he⟩
    · exact ⟨true, fun _ => ⟨text, htext⟩, he⟩
    · cases hpure
  · rintro ⟨solutions, hlearner, he⟩
    cases solutions with
    | false => exact .inl he
    | true =>
      obtain ⟨text, htext⟩ := hlearner rfl
      exact .inr ⟨text, htext, .inl he⟩

namespace Generate

def Renders (variant : Exam) (target : Notation) : Prop :=
  ∀ solutions, ∃ text, render variant target solutions = .ok text

theorem renders_iff {variant : Exam} {target : Notation} :
    Renders variant target ↔ ∃ t, renderTwin variant target = .ok t := by
  simp only [renderTwin_eq_ok_iff]
  constructor
  · intro h
    obtain ⟨examination, hexamination⟩ := h false
    obtain ⟨solutions, hsolutions⟩ := h true
    exact ⟨⟨target, examination, solutions⟩, rfl, hexamination, hsolutions⟩
  · rintro ⟨t, -, hexamination, hsolutions⟩ solutions
    cases solutions with
    | false => exact ⟨_, hexamination⟩
    | true => exact ⟨_, hsolutions⟩

theorem renderTwins_eq_ok_iff {variant : Exam} {targets : List Notation} {twins : List Twin} :
    renderTwins variant targets = .ok twins ↔
      List.Forall₂ (fun target t => renderTwin variant target = .ok t) targets twins := by
  simp only [renderTwins, mapM_eq_ok_iff, mapError_eq_ok_iff]

theorem planVariant_eq_ok_iff {targets : List Notation} {variant : Exam} {v : PlannedVariant} :
    planVariant targets variant = .ok v ↔
      v.exam = variant ∧ renderTwins variant targets = .ok v.twins := by
  obtain ⟨exam, twins⟩ := v
  cases h : renderTwins variant targets <;>
    simp [planVariant, h, Functor.map, Except.map, eq_comm]

theorem exists_planVariant_iff {targets : List Notation} {variant : Exam} :
    (∃ v, planVariant targets variant = .ok v) ↔ ∀ target ∈ targets, Renders variant target := by
  have htwins : (∃ v, planVariant targets variant = .ok v) ↔
      ∃ twins, renderTwins variant targets = .ok twins := by
    simp only [planVariant_eq_ok_iff]
    exact ⟨fun ⟨v, _, h⟩ => ⟨v.twins, h⟩, fun ⟨twins, h⟩ => ⟨⟨variant, twins⟩, rfl, h⟩⟩
  rw [htwins, renderTwins, exists_mapM_eq_ok_iff]
  simp only [mapError_eq_ok_iff, renders_iff]

theorem planVariant_eq_error_iff {targets : List Notation} {variant : Exam} {err : DocumentError} :
    planVariant targets variant = .error err ↔ ∃ before target after solutions e,
      targets = before ++ target :: after ∧ (∀ t ∈ before, Renders variant t) ∧
        (solutions = true → ∃ text, render variant target false = .ok text) ∧
          render variant target solutions = .error e ∧
            err = .rendering target (Output.sectionName variant) e := by
  have hmap : planVariant targets variant = .error err ↔
      renderTwins variant targets = .error err := by
    cases h : renderTwins variant targets <;> simp [planVariant, h, Functor.map, Except.map]
  rw [hmap]
  simp only [renderTwins, mapM_eq_error_iff, mapError_eq_ok_iff, mapError_eq_error_iff,
    ← renders_iff, renderTwin_eq_error_iff]
  constructor
  · rintro ⟨before, target, after, htargets, hbefore, e, ⟨solutions, hlearner, he⟩, rfl⟩
    exact ⟨before, target, after, solutions, e, htargets, hbefore, hlearner, he, rfl⟩
  · rintro ⟨before, target, after, solutions, e, htargets, hbefore, hlearner, he, rfl⟩
    exact ⟨before, target, after, htargets, hbefore, e, ⟨solutions, hlearner, he⟩, rfl⟩

variable {o : Options} {document : Document.Value}

/-- What a plan holds. -/
theorem plan_eq_ok_iff {p : Plan} :
    plan o document = .ok p ↔ Specification.decode document = .ok p.exam ∧
      p.limit = o.limitFor p.exam ∧ ∃ variants, p.exam.variants o.seed p.limit = .ok variants ∧
        Output.checkDistinctStems variants = .ok () ∧
          List.Forall₂ (fun variant v => planVariant o.targets variant = .ok v) variants
            p.variants := by
  simp only [plan, bind_eq_ok_iff, pure_eq_ok_iff, mapError_eq_ok_iff, mapM_eq_ok_iff]
  constructor
  · rintro ⟨exam, hexam, variants, hvariants, ⟨⟩, hstems, planned, hplanned, rfl⟩
    exact ⟨hexam, rfl, variants, hvariants, hstems, hplanned⟩
  · obtain ⟨exam, limit, planned⟩ := p
    dsimp only
    rintro ⟨hexam, rfl, variants, hvariants, hstems, hplanned⟩
    exact ⟨exam, hexam, variants, hvariants, (), hstems, planned, hplanned, rfl⟩

/-- The first failure on the way to a plan: the document does not decode, it has no variants, two of
its variants share a stem, or a half of a twin does not render while all before it does. -/
inductive FirstFailure (o : Options) (document : Document.Value) : DocumentError → Prop
  | specification {e : Specification.Error} (hdecode : Specification.decode document = .error e) :
      FirstFailure o document (.specification e)
  | variants {exam : Exam} {e : VariantError} (hdecode : Specification.decode document = .ok exam)
      (hvariants : exam.variants o.seed (o.limitFor exam) = .error e) :
      FirstFailure o document (.variants e)
  | stems {exam : Exam} {variants : List Exam} {clash : Output.StemClash}
      (hdecode : Specification.decode document = .ok exam)
      (hvariants : exam.variants o.seed (o.limitFor exam) = .ok variants)
      (hstems : Output.checkDistinctStems variants = .error clash) :
      FirstFailure o document (.stems clash)
  | rendering {exam variant : Exam} {before after : List Exam} {target : Notation}
      {targetsBefore targetsAfter : List Notation} {solutions : Bool} {e : RenderError}
      (hdecode : Specification.decode document = .ok exam)
      (hvariants : exam.variants o.seed (o.limitFor exam) = .ok (before ++ variant :: after))
      (hstems : Output.checkDistinctStems (before ++ variant :: after) = .ok ())
      (hbefore : ∀ v ∈ before, ∀ t ∈ o.targets, Renders v t)
      (htargets : o.targets = targetsBefore ++ target :: targetsAfter)
      (htargetsBefore : ∀ t ∈ targetsBefore, Renders variant t)
      (hlearner : solutions = true → ∃ text, render variant target false = .ok text)
      (hrender : render variant target solutions = .error e) :
      FirstFailure o document (.rendering target (Output.sectionName variant) e)

theorem plan_eq_error_iff {err : DocumentError} :
    plan o document = .error err ↔ FirstFailure o document err := by
  simp only [plan, bind_eq_error_iff, pure, Except.pure, mapError_eq_ok_iff, mapError_eq_error_iff,
    mapM_eq_error_iff, exists_planVariant_iff, planVariant_eq_error_iff]
  -- The stages are a chain of binds: the first that fails gives the error.
  constructor
  · rintro (⟨e, hdecode, rfl⟩ | ⟨exam, hdecode, ⟨e, hvariants, rfl⟩ | ⟨variants, hvariants,
      ⟨clash, hstems, rfl⟩ | ⟨⟨⟩, hstems, hplanned | ⟨_, -, hpure⟩⟩⟩⟩)
    · exact .specification hdecode
    · exact .variants hdecode hvariants
    · exact .stems hdecode hvariants hstems
    · obtain ⟨before, variant, after, rfl, hbefore, targetsBefore, target, targetsAfter, solutions,
        e, htargets, htargetsBefore, hlearner, hrender, rfl⟩ := hplanned
      exact .rendering hdecode hvariants hstems hbefore htargets htargetsBefore hlearner hrender
    · cases hpure
  · intro h
    cases h with
    | specification hdecode => exact .inl ⟨_, hdecode, rfl⟩
    | variants hdecode hvariants => exact .inr ⟨_, hdecode, .inl ⟨_, hvariants, rfl⟩⟩
    | stems hdecode hvariants hstems =>
      exact .inr ⟨_, hdecode, .inr ⟨_, hvariants, .inl ⟨_, hstems, rfl⟩⟩⟩
    | rendering hdecode hvariants hstems hbefore htargets htargetsBefore hlearner hrender =>
      exact .inr ⟨_, hdecode, .inr ⟨_, hvariants, .inr ⟨(), hstems, .inl ⟨_, _, _, rfl, hbefore, _,
        _, _, _, _, htargets, htargetsBefore, hlearner, hrender, rfl⟩⟩⟩⟩

inductive StageFails (o : Options) (document : Document.Value) : Prop
  | decoding {e : Specification.Error} (hdecode : Specification.decode document = .error e)
  | drawing {exam : Exam} {e : VariantError} (hdecode : Specification.decode document = .ok exam)
      (hvariants : exam.variants o.seed (o.limitFor exam) = .error e)
  | naming {exam : Exam} {variants : List Exam} {clash : Output.StemClash}
      (hdecode : Specification.decode document = .ok exam)
      (hvariants : exam.variants o.seed (o.limitFor exam) = .ok variants)
      (hstems : Output.checkDistinctStems variants = .error clash)
  | rendering {exam variant : Exam} {variants : List Exam} {target : Notation} {solutions : Bool}
      {e : RenderError} (hdecode : Specification.decode document = .ok exam)
      (hvariants : exam.variants o.seed (o.limitFor exam) = .ok variants)
      (hvariant : variant ∈ variants) (htarget : target ∈ o.targets)
      (hrender : render variant target solutions = .error e)

theorem not_stageFails_of_plan {p : Plan} (h : plan o document = .ok p) :
    ¬ StageFails o document := by
  obtain ⟨hdecode, hlimit, variants, hvariants, hstems, hplanned⟩ := plan_eq_ok_iff.mp h
  rw [hlimit] at hvariants
  intro hfails
  cases hfails with
  | decoding hdecode' => cases hdecode.symm.trans hdecode'
  | drawing hdecode' hvariants' =>
    cases hdecode.symm.trans hdecode'
    cases hvariants.symm.trans hvariants'
  | naming hdecode' hvariants' hstems' =>
    cases hdecode.symm.trans hdecode'
    cases hvariants.symm.trans hvariants'
    cases hstems.symm.trans hstems'
  | rendering hdecode' hvariants' hvariant htarget hrender =>
    cases hdecode.symm.trans hdecode'
    cases hvariants.symm.trans hvariants'
    have hv := exists_mapM_eq_ok_iff.mp ⟨_, mapM_eq_ok_iff.mpr hplanned⟩ _ hvariant
    obtain ⟨text, htext⟩ := exists_planVariant_iff.mp hv _ htarget _
    cases htext.symm.trans hrender

theorem exists_firstFailure (h : StageFails o document) : ∃ err, FirstFailure o document err := by
  cases hplan : plan o document with
  | error err => exact ⟨err, plan_eq_error_iff.mp hplan⟩
  | ok p => exact absurd h (not_stageFails_of_plan hplan)

theorem stageFails_of_firstFailure {err : DocumentError} (h : FirstFailure o document err) :
    StageFails o document := by
  cases h with
  | specification hdecode => exact .decoding hdecode
  | variants hdecode hvariants => exact .drawing hdecode hvariants
  | stems hdecode hvariants hstems => exact .naming hdecode hvariants hstems
  | rendering hdecode hvariants _ _ htargets _ _ hrender =>
    exact .rendering hdecode hvariants (by simp) (by simp [htargets]) hrender

theorem stageFails_iff : StageFails o document ↔ (plan o document).isOk = false := by
  constructor
  · intro h
    obtain ⟨err, herr⟩ := exists_firstFailure h
    rw [plan_eq_error_iff.mpr herr]
    rfl
  · intro h
    cases hplan : plan o document with
    | error err => exact stageFails_of_firstFailure (plan_eq_error_iff.mp hplan)
    | ok p => rw [hplan] at h; cases h

theorem generateDocument_of_error {err : DocumentError} (h : plan o document = .error err)
    (showContent : Bool) (index : Nat) (s : Session) :
    (generateDocument o showContent index document).run.run s =
      (.error err, s.noteAll ((planning o document).map (.event [documentSpan index]))) := by
  rw [generateDocument, h]
  rfl

/-- Whichever stage fails, in whichever half of whichever twin, the document fails with the first
failure and all but the log of the session stays: no file and no directory is made, not even for the
variants that did render. -/
theorem failed_stage_changes_nothing (h : StageFails o document) (showContent : Bool) (index : Nat)
    (s : Session) : ∃ err, FirstFailure o document err ∧ ∃ log,
      (generateDocument o showContent index document).run.run s = (.error err, { s with log }) := by
  obtain ⟨err, herr⟩ := exists_firstFailure h
  exact ⟨err, herr, _, generateDocument_of_error (plan_eq_error_iff.mpr herr) showContent index s⟩

/-- Renders for Moodle and not as LaTeX, where the statement is the argument of a command. -/
def codeStatement : Document.Value :=
  .mapping [("parameters", .mapping [("SECTIONS", .list [.text "A01", .text "A02"])]),
    ("questions", .list [.mapping [("answer", .bool true), ("points", .number (.integer 1)),
      ("statement", .text "<code>x</code>"), ("type", .text "true-false")]])]

/-- The two halves for Moodle are rendered before the quiz sheet fails. -/
theorem failed_stage_changes_nothing_codeStatement :
    StageFails { Options.standard with targets := [.moodleXml, .latexQuiz] } codeStatement ∧
      ∃ err, FirstFailure { Options.standard with targets := [.moodleXml, .latexQuiz] }
          codeStatement err ∧
        ∃ log, (generateDocument { Options.standard with targets := [.moodleXml, .latexQuiz] } false
            0 codeStatement).run.run default = (.error err, { (default : Session) with log }) :=
  have h : StageFails { Options.standard with targets := [.moodleXml, .latexQuiz] }
      codeStatement := stageFails_iff.mpr (by decide +kernel)
  ⟨h, failed_stage_changes_nothing h false 0 default⟩

end Generate

end ExamVariants
