import ExamVariants.Proofs.Generate.Planning
import ExamVariants.Proofs.Typeset.Traces

namespace ExamVariants.Generate

open FileTree Log Typeset

section Action

variable {α β : Type} {typeset : Bool} {files files' : Writes} {x : Action α} {value : α}

/-- What becomes of an action that is to write files and to yield a value. Only where the typesetter
may run can it stop early. -/
inductive Outcome (typeset : Bool) (files : Writes) (value : α) (s : Session) :
    Except DocumentError α × Session → Prop
  | done {s' : Session} (htidy : typeset = true → s'.Tidy)
      (hfiles : Agree typeset s'.files (s.files.writeAll files)) :
      Outcome typeset files value s (.ok value, s')
  | stopped {e : DocumentError} {s' : Session} {written : Writes} (htypeset : typeset = true)
      (htidy : typeset = true → s'.Tidy) (hwritten : written <+: files)
      (hfiles : Agree typeset s'.files (s.files.writeAll written)) :
      Outcome typeset files value s (.error e, s')

/-- The action writes the files one after another and yields the value, from any session. -/
def Performs (typeset : Bool) (files : Writes) (x : Action α) (value : α) : Prop :=
  ∀ s : Session, (typeset = true → s.Tidy) → Outcome typeset files value s (x.run.run s)

theorem run_bind_of_ok {f : α → Action β} {s s' : Session} {a : α}
    (h : x.run.run s = (.ok a, s')) : (x >>= f).run.run s = (f a).run.run s' := by
  have hx : x s = (.ok a, s') := h
  change ExceptT.bind x f s = f a s'
  simp only [ExceptT.bind, ExceptT.mk, bind, StateT.bind]
  rw [hx]
  rfl

theorem run_bind_of_error {f : α → Action β} {s s' : Session} {e : DocumentError}
    (h : x.run.run s = (.error e, s')) : (x >>= f).run.run s = (.error e, s') := by
  have hx : x s = (.error e, s') := h
  change ExceptT.bind x f s = (.error e, s')
  simp only [ExceptT.bind, ExceptT.mk, bind, StateT.bind]
  rw [hx]
  rfl

theorem run_tryCatch_of_ok {f : DocumentError → Action α} {s s' : Session} {a : α}
    (h : x.run.run s = (.ok a, s')) : (tryCatch x f).run.run s = (.ok a, s') := by
  have hx : x s = (.ok a, s') := h
  change ExceptT.tryCatch x f s = (.ok a, s')
  simp only [ExceptT.tryCatch, ExceptT.mk, bind, StateT.bind]
  rw [hx]
  rfl

theorem run_tryCatch_of_error {f : DocumentError → Action α} {s s' : Session} {e : DocumentError}
    (h : x.run.run s = (.error e, s')) : (tryCatch x f).run.run s = (f e).run.run s' := by
  have hx : x s = (.error e, s') := h
  change ExceptT.tryCatch x f s = f e s'
  simp only [ExceptT.tryCatch, ExceptT.mk, bind, StateT.bind]
  rw [hx]

theorem performs_pure (typeset : Bool) (value : α) :
    Performs typeset [] (pure value) value :=
  fun s htidy => .done htidy (.refl typeset s.files)

theorem performs_modify (f : Session → Session) (hfiles : ∀ s, (f s).files = s.files.writeAll files)
    (hupcoming : ∀ s, (f s).upcoming = s.upcoming) (typeset : Bool) :
    Performs typeset files (modify f) () := by
  intro s htidy
  have htidy' (h : typeset = true) : (f s).Tidy := by
    rw [Session.Tidy, hupcoming]
    exact htidy h
  exact .done htidy' (hfiles s ▸ .refl typeset _)

theorem performs_event (typeset : Bool) (spans : List Span) (e : Event) :
    Performs typeset [] (Action.event spans e) () :=
  performs_modify (fun s => s.event spans e) (fun _ => rfl) (fun _ => rfl) typeset

theorem performs_note (typeset : Bool) (r : Record) :
    Performs typeset [] (modify fun s => s.note r) () :=
  performs_modify (fun s => s.note r) (fun _ => rfl) (fun _ => rfl) typeset

theorem Performs.bind {f : α → Action β} {value' : β} (hx : Performs typeset files x value)
    (hf : Performs typeset files' (f value) value') :
    Performs typeset (files ++ files') (x >>= f) value' := by
  intro s htidy
  have hfirst := hx s htidy
  generalize hrun : x.run.run s = first at hfirst
  cases hfirst with
  | stopped htypeset htidy' hwritten hfiles =>
    rw [run_bind_of_error hrun]
    exact .stopped htypeset htidy' (hwritten.trans (List.prefix_append files files')) hfiles
  | @done s' htidy' hfiles =>
    rw [run_bind_of_ok hrun]
    have hsecond := hf s' htidy'
    generalize (f value).run.run s' = second at hsecond
    cases hsecond with
    | done htidy'' hfiles' => exact .done htidy'' (hfiles.append hfiles')
    | stopped htypeset htidy'' hwritten hfiles' =>
      exact .stopped htypeset htidy'' ((List.prefix_append_right_inj files).mpr hwritten)
        (hfiles.append hfiles')

theorem performs_forM {f : β → Action Unit} {xs : List β}
    (h : ∀ b ∈ xs, Performs typeset [] (f b) ()) : Performs typeset [] (xs.forM f) () := by
  induction xs with
  | nil => exact performs_pure typeset ()
  | cons b xs ih =>
    have hrest := ih fun c hc => h c (List.mem_cons_of_mem b hc)
    exact (h b List.mem_cons_self).bind hrest

theorem performs_mapM {f : α → Action β} {g : α → β} {w : α → Writes} {xs : List α}
    (h : ∀ a ∈ xs, Performs typeset (w a) (f a) (g a)) :
    Performs typeset (xs.flatMap w) (xs.mapM f) (xs.map g) := by
  induction xs with
  | nil => exact performs_pure typeset []
  | cons a xs ih =>
    have hrest := ih fun b hb => h b (List.mem_cons_of_mem a hb)
    rw [List.mapM_cons, List.flatMap_cons, ← List.append_nil (xs.flatMap w)]
    exact (h a List.mem_cons_self).bind (hrest.bind (performs_pure typeset (g a :: xs.map g)))

theorem Performs.noteFailure (h : Performs typeset files x value) (r : Record) :
    Performs typeset files
      (tryCatch x fun e => do
        modify fun s => s.note r
        throw e) value := by
  intro s htidy
  have hx := h s htidy
  generalize hrun : x.run.run s = result at hx
  cases hx with
  | done htidy' hfiles =>
    rw [run_tryCatch_of_ok hrun]
    exact .done htidy' hfiles
  | stopped htypeset htidy' hwritten hfiles =>
    rw [run_tryCatch_of_error hrun]
    exact .stopped htypeset htidy' hwritten hfiles

end Action

def twinFiles (directory stem : String) (t : Twin) : Writes :=
  [(Output.filePath directory t.target false stem, t.examination),
    (Output.filePath directory t.target true stem, t.solutions)]

def twinPdfs (typeset : Bool) (directory stem : String) (t : Twin) : List String :=
  if typeset && t.target.isLatex then (twinFiles directory stem t).map fun w => pdfPath w.1 else []

def twinOutput (typeset : Bool) (directory stem : String) (t : Twin) : OutputFiles :=
  ⟨t.target, some (Output.filePath directory t.target false stem),
    some (Output.filePath directory t.target true stem), twinPdfs typeset directory stem t⟩

theorem run_typesetFile (spans : List Span) (tex : String) (s : Session) :
    (typesetFile spans tex).run.run s =
      match Typeset.typeset spans tex s with
      | none => (.error (.noFileName tex), s)
      | some (report, s') =>
        (if report.succeeded then .ok report.pdf else .error (.typesetting tex report.errors),
          s') := by
  have hget : (get : Action Session).run.run s = (.ok s, s) := rfl
  rw [typesetFile, run_bind_of_ok hget]
  cases Typeset.typeset spans tex s with
  | none => rfl
  | some result =>
    obtain ⟨report, s'⟩ := result
    have hset : (set s' : Action PUnit).run.run s = (.ok ⟨⟩, s') := rfl
    dsimp only
    rw [run_bind_of_ok hset]
    split <;> rfl

theorem performs_typesetFile (spans : List Span) (tex : String) :
    Performs true [] (typesetFile spans tex) (pdfPath tex) := by
  intro s htidy
  rw [run_typesetFile]
  cases htypeset : Typeset.typeset spans tex s with
  | none => exact .stopped rfl htidy List.nil_prefix (.refl true s.files)
  | some result =>
    obtain ⟨report, s'⟩ := result
    obtain ⟨hpdf, hagree, htidy'⟩ := typeset_agree htypeset (htidy rfl)
    by_cases hreport : report.succeeded
    · simp only [hreport, if_true, hpdf]
      exact .done (fun _ => htidy') hagree
    · simp only [hreport]
      exact .stopped rfl (fun _ => htidy') List.nil_prefix hagree

theorem performs_writeTwin (spans : List Span) (directory stem : String) (typeset : Bool)
    (t : Twin) : Performs typeset (twinFiles directory stem t)
      (writeTwin spans directory stem typeset t) (twinOutput typeset directory stem t) := by
  have hwrite : Performs typeset (twinFiles directory stem t) (modify fun s =>
      (s.write (Output.filePath directory t.target false stem) t.examination).write
        (Output.filePath directory t.target true stem) t.solutions) () :=
    performs_modify _ (fun _ => by rfl) (fun _ => by rfl) typeset
  have hlog := performs_event typeset spans (wrote t.target
    (Output.filePath directory t.target false stem) (Output.filePath directory t.target true stem))
  rw [writeTwin, ← List.append_nil (twinFiles directory stem t)]
  refine hwrite.bind (hlog.bind ?_)
  -- The typesetter writes no file that counts: its own lie in its directories.
  by_cases hlatex : (typeset && t.target.isLatex) = true
  · obtain ⟨rfl, -⟩ := (Bool.and_eq_true _ _).mp hlatex
    have hpdfs : Performs true ((twinFiles directory stem t).flatMap fun _ => [])
        ((twinFiles directory stem t).mapM fun w => typesetFile spans w.1)
        ((twinFiles directory stem t).map fun w => pdfPath w.1) :=
      performs_mapM fun w _ => performs_typesetFile spans w.1
    have houtput := performs_pure true (twinOutput true directory stem t)
    rw [if_pos hlatex]
    simp only [twinOutput, twinPdfs, if_pos hlatex] at houtput ⊢
    exact hpdfs.bind houtput
  · have houtput := performs_pure typeset (twinOutput typeset directory stem t)
    rw [if_neg hlatex]
    simp only [twinOutput, twinPdfs, if_neg hlatex] at houtput ⊢
    exact (performs_pure typeset []).bind houtput

def variantFiles (directory : Option String) (v : PlannedVariant) : Writes :=
  match directory with
  | some d => v.twins.flatMap (twinFiles d (Output.stem v.exam))
  | none => []

def variantOutputs (directory : Option String) (typeset : Bool) (v : PlannedVariant) :
    List OutputFiles :=
  match directory with
  | some d => v.twins.map (twinOutput typeset d (Output.stem v.exam))
  | none => v.twins.map dryTwin

def variantSummary (directory : Option String) (typeset : Bool) (v : PlannedVariant) :
    VariantSummary :=
  ⟨Output.sectionName v.exam, v.exam.questions.length, v.exam.totalPoints,
    variantOutputs directory typeset v⟩

theorem performs_writeVariant (showContent : Bool) (document : Span) (directory : Option String)
    (typeset : Bool) (v : PlannedVariant) :
    Performs typeset (variantFiles directory v)
      (writeVariant showContent document directory typeset v)
      (variantSummary directory typeset v) := by
  have houtputs (spans : List Span) : Performs typeset (variantFiles directory v)
      (match directory with
        | some d => v.twins.mapM (writeTwin spans d (Output.stem v.exam) typeset)
        | none => pure (v.twins.map dryTwin))
      (variantOutputs directory typeset v) := by
    cases directory with
    | none => exact performs_pure typeset _
    | some d =>
      exact performs_mapM fun t _ => performs_writeTwin spans d (Output.stem v.exam) typeset t
  unfold writeVariant
  rw [← List.nil_append (variantFiles directory v)]
  refine (performs_forM fun e _ => performs_event typeset _ e).bind ?_
  rw [← List.append_nil (variantFiles directory v)]
  refine ((houtputs _).noteFailure _).bind ?_
  exact (performs_note typeset _).bind (performs_pure typeset _)

variable {o : Options} {document : Document.Value} {p : Plan}

def planFiles (o : Options) (index : Nat) (p : Plan) : Writes :=
  p.variants.flatMap (variantFiles (o.directoryFor index))

def planSummary (o : Options) (index : Nat) (p : Plan) : DocumentSummary :=
  ⟨index, p.exam.text? .title, o.directoryFor index,
    p.variants.map (variantSummary (o.directoryFor index) o.typeset)⟩

theorem performs_writeDocument (o : Options) (showContent : Bool) (index : Nat) (p : Plan) :
    Performs o.typeset (planFiles o index p) (writeDocument o showContent index p)
      (planSummary o index p) := by
  have hvariant (v : PlannedVariant) := performs_writeVariant showContent (documentSpan index)
    (o.directoryFor index) o.typeset v
  rw [writeDocument, ← List.append_nil (planFiles o index p)]
  exact (performs_mapM fun v _ => hvariant v).bind
    (performs_pure o.typeset (planSummary o index p))

/-- A document with a plan is written as planned. -/
theorem performs_generateDocument (h : plan o document = .ok p) (showContent : Bool) (index : Nat) :
    Performs o.typeset (planFiles o index p) (generateDocument o showContent index document)
      (planSummary o index p) := by
  have hlog : Performs o.typeset [] (modify fun s =>
      s.noteAll ((planning o document).map (.event [documentSpan index]))) () :=
    performs_modify _ (fun _ => by rfl) (fun _ => by rfl) o.typeset
  have hplan : Performs o.typeset [] (generateDocument.liftExcept (plan o document)) p := by
    rw [h]
    exact performs_pure o.typeset p
  rw [generateDocument, ← List.nil_append (planFiles o index p)]
  exact hlog.bind (hplan.bind (performs_writeDocument o showContent index p))

end ExamVariants.Generate
