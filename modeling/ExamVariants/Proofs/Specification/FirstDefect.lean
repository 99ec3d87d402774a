import ExamVariants.Proofs.Specification.Defect

namespace ExamVariants.Specification

open Document

variable {place : Place} {entries : Entries} {f : Field} {fs : List Field} {v : Value} {e : Error}
  {α β : Type}

/-- What a reader has to do with a field: it gives a result for a sound field only, and for any
other the error of the first defect. -/
structure Reads (place : Place) (entries : Entries) (f : Field) (x : Except Error α) : Prop where
  sound : (∃ a, x = .ok a) ↔ f.Sound entries
  defect : ∀ e, x = .error e ↔ FieldDefect place entries f e

theorem Reads.bind {x : Except Error α} {k : α → Except Error β} (hx : Reads place entries f x)
    (hk : ∀ a, x = .ok a → (k a = .error e ↔ DefectAmong place entries fs e)) :
    x >>= k = .error e ↔ DefectAmong place entries (f :: fs) e := by
  rw [bind_eq_error_iff, defectAmong_cons, hx.defect]
  apply or_congr_right
  constructor
  · rintro ⟨a, ha, hka⟩
    exact ⟨hx.sound.mp ⟨a, ha⟩, (hk a ha).mp hka⟩
  · rintro ⟨hsound, hdefect⟩
    obtain ⟨a, ha⟩ := hx.sound.mpr hsound
    exact ⟨a, ha, (hk a ha).mpr hdefect⟩

theorem pure_eq_error_iff {a : α} :
    (pure a : Except Error α) = .error e ↔ DefectAmong place entries [] e :=
  iff_of_false nofun not_defectAmong_nil

theorem required_bind_eq_error_iff {k : Value → Except Error α}
    (hinvalid : ∀ v, ¬f.expected.Admits v →
      k v = .error (.invalidField place f.key f.expected))
    (hadmits : ∀ v, Value.find? f.key entries = some v → f.expected.Admits v →
      (k v = .error e ↔ FieldDefect place entries f e)) :
    required place entries f.key >>= k = .error e ↔ FieldDefect place entries f e := by
  rw [required]
  cases hfind : Value.find? f.key entries with
  | none =>
    change Except.error _ = Except.error e ↔ _
    rw [fieldDefect_of_missing hfind, Except.error.injEq]
  | some v =>
    change k v = .error e ↔ _
    by_cases hv : f.expected.Admits v
    · exact hadmits v hfind hv
    · rw [hinvalid v hv, fieldDefect_of_not_admits hfind hv, Except.error.injEq]

theorem reads_booleanField (key : String) :
    Reads place entries (.flag key) (booleanField place entries key) where
  sound := exists_congr fun _ => booleanField_eq_ok_iff
  defect e := by
    apply required_bind_eq_error_iff (f := .flag key)
    · intro v hv
      cases v with
      | bool b => exact absurd ⟨b, rfl⟩ hv
      | null | number | text | list | mapping => rfl
    · rintro _ hfind ⟨b, rfl⟩
      exact iff_of_false nofun (not_fieldDefect_of_admits hfind ⟨b, rfl⟩ nofun nofun nofun)

theorem reads_scalarField (key : String) :
    Reads place entries (.scalar key) (scalarField place entries key) where
  sound := exists_congr fun _ => scalarField_eq_ok_iff
  defect e := by
    apply required_bind_eq_error_iff (f := .scalar key)
    · intro v hv
      cases htext : v.scalarText? with
      | some t => exact absurd ⟨t, scalarText?_eq_some_iff.mp htext⟩ hv
      | none => rfl
    · rintro v hfind ⟨t, ht⟩
      rw [scalarText?_eq_some_iff.mpr ht]
      exact iff_of_false nofun (not_fieldDefect_of_admits hfind ⟨t, ht⟩ nofun nofun nofun)

theorem reads_pointsField : Reads place entries .points (pointsField place entries) where
  sound := exists_congr fun _ => pointsField_eq_ok_iff
  defect e := by
    apply required_bind_eq_error_iff (f := .points)
    · intro v hv
      cases hcount : v.count? with
      | some n => exact absurd ⟨n, count?_eq_some_iff.mp hcount⟩ hv
      | none => rfl
    · rintro v hfind ⟨n, hn⟩
      rw [count?_eq_some_iff.mpr hn]
      exact iff_of_false nofun (not_fieldDefect_of_admits hfind ⟨n, hn⟩ nofun nofun nofun)

theorem reads_textField (key : String) :
    Reads place entries (.text key) (textField place entries key) where
  sound := exists_congr fun _ => textField_eq_ok_iff
  defect e := by
    rw [textField, bind_eq_error_iff, (reads_scalarField key).defect, fieldDefect_text_iff]
    simp only [scalarField_eq_ok_iff, markup, mapError_eq_error_iff, exists_and_left]

theorem reads_kindField : Reads place entries .kind (kindField place entries) where
  sound := exists_congr fun _ => kindField_eq_ok_iff
  defect e := by
    apply required_bind_eq_error_iff (f := .kind)
    · intro v hv
      cases v with
      | text tag => exact absurd ⟨tag, rfl⟩ hv
      | null | bool | number | list | mapping => rfl
    · rintro _ hfind ⟨tag, rfl⟩
      rw [fieldDefect_kind_iff hfind]
      simp only [← QuestionKind.ofName?_eq_some_iff]
      cases QuestionKind.ofName? tag with
      | some kind => exact iff_of_false nofun fun h => h.1 kind rfl
      | none =>
        change Except.error _ = Except.error e ↔ _
        rw [Except.error.injEq]
        exact (and_iff_right nofun).symm

section Items

variable {g : Nat → α → Except Error β} {P : α → Prop} {xs : List α}

theorem exists_eachIndexed_eq_ok_iff (hg : ∀ x ∈ xs, ∀ i, (∃ y, g i x = .ok y) ↔ P x) {i : Nat} :
    (∃ ys, eachIndexed g i xs = .ok ys) ↔ ∀ x ∈ xs, P x := by
  induction xs generalizing i with
  | nil => exact iff_of_true ⟨[], rfl⟩ (List.forall_mem_nil _)
  | cons x xs ih =>
    rw [List.forall_mem_cons] at hg ⊢
    rw [← hg.1 i, ← ih hg.2 (i := i + 1)]
    simp only [eachIndexed, bind_eq_ok_iff, pure_eq_ok_iff]
    constructor
    · rintro ⟨_, y, hy, ys, hys, rfl⟩
      exact ⟨⟨y, hy⟩, ys, hys⟩
    · rintro ⟨⟨y, hy⟩, ys, hys⟩
      exact ⟨_, y, hy, ys, hys, rfl⟩

theorem eachIndexed_eq_error_iff (hg : ∀ x ∈ xs, ∀ i, (∃ y, g i x = .ok y) ↔ P x) {i : Nat} :
    eachIndexed g i xs = .error e ↔ ∃ us v ws, xs = us ++ v :: ws ∧ (∀ u ∈ us, P u) ∧
      g (i + us.length) v = .error e := by
  induction xs generalizing i with
  | nil => simp [eachIndexed]
  | cons x xs ih =>
    rw [List.forall_mem_cons] at hg
    simp only [eachIndexed, bind_eq_error_iff, ih hg.2]
    constructor
    · rintro (hx | ⟨y, hy, ⟨us, v, ws, rfl, hus, hv⟩ | ⟨_, -, hpure⟩⟩)
      · exact ⟨[], x, xs, rfl, List.forall_mem_nil _, hx⟩
      · refine ⟨x :: us, v, ws, rfl, List.forall_mem_cons.mpr ⟨(hg.1 i).mp ⟨y, hy⟩, hus⟩, ?_⟩
        rw [List.length_cons, Nat.add_comm us.length 1, ← Nat.add_assoc]
        exact hv
      · cases hpure
    -- The item with the error is the first one, or the first one is read and it comes later.
    · rintro ⟨us, v, ws, hxs, hus, hv⟩
      cases us with
      | nil =>
        obtain ⟨rfl, rfl⟩ := List.cons.inj hxs
        exact .inl hv
      | cons u us =>
        obtain ⟨rfl, rfl⟩ := List.cons.inj hxs
        rw [List.forall_mem_cons] at hus
        obtain ⟨y, hy⟩ := (hg.1 i).mpr hus.1
        rw [List.length_cons, Nat.add_comm us.length 1, ← Nat.add_assoc] at hv
        exact .inr ⟨y, hy, .inl ⟨us, v, ws, rfl, hus.2, hv⟩⟩

end Items

theorem reads_nodes (list : NodeList) {g : Nat → Value → Except Error β}
    (hok : ∀ i v, (∃ y, g i v = .ok y) ↔ list.role.Decodes v)
    (herror : ∀ items, Value.find? list.key entries = some (.list items) → ∀ v ∈ items, ∀ i e,
      g i v = .error e ↔ FirstDefect list.role (list.placeAt place i) v e) :
    Reads place entries (.nodes list) (required place entries list.key >>= fun v => match v with
      | .list items => eachIndexed g 0 items
      | _ => .error (.invalidField place list.key list.expected)) where
  sound := by
    refine (exists_congr fun ys => listField_eq_ok_iff).trans ?_
    rw [exists_comm]
    refine exists_congr fun items => ?_
    rw [exists_and_left, exists_eachIndexed_eq_ok_iff fun v _ i => hok i v]
  defect e := by
    apply required_bind_eq_error_iff (f := .nodes list)
    · intro v hv
      cases v with
      | list items => exact absurd (NodeList.admits_expected.mpr ⟨items, rfl⟩) hv
      | null | bool | number | text | mapping => rfl
    · intro v hfind hv
      obtain ⟨items, rfl⟩ := NodeList.admits_expected.mp hv
      rw [fieldDefect_nodes_iff hfind]
      apply (eachIndexed_eq_error_iff fun v _ i => hok i v).trans
      refine exists_congr fun us => exists_congr fun v => exists_congr fun ws => ?_
      refine and_congr_right fun hitems => and_congr_right fun _ => ?_
      rw [Nat.zero_add]
      exact herror items hfind v (by simp [hitems]) us.length e

theorem decodeChoice_eq_error_iff :
    decodeChoice place v = .error e ↔ FirstDefect .choice place v e := by
  cases v with
  | mapping entries =>
    rw [firstDefect_mapping_iff]
    refine (reads_booleanField "correct").bind fun _ _ => ?_
    exact (reads_textField "statement").bind fun _ _ => pure_eq_error_iff
  | null | bool | number | text | list =>
    apply Iff.trans _ (firstDefect_other_iff ?_).symm
    · exact (Except.error.injEq _ _).to_iff
    · exact nofun

theorem reads_choicesField :
    Reads place entries (.nodes .options) (choicesField place entries) :=
  reads_nodes .options (fun _ _ => exists_congr fun _ => decodeChoice_eq_ok_iff)
    fun _ _ _ _ _ _ => decodeChoice_eq_error_iff

theorem kind?_eq_some {kind : QuestionKind} (h : HasKind entries kind) :
    kind? entries = some kind := by
  obtain ⟨tag, hfind, htag⟩ := h
  rw [kind?, hfind]
  exact QuestionKind.ofName?_eq_some_iff.mpr htag

theorem compoundPoints_eq_error_iff {children : List Question} :
    compoundPoints place entries children = .error e ↔ DefectAmong place entries
      (if (Value.find? "points" entries).isSome then [.points] else []) e := by
  rw [compoundPoints]
  cases Value.find? "points" entries with
  | none =>
    apply iff_of_false _ not_defectAmong_nil
    intro h
    cases h
  | some v =>
    simp [reads_pointsField.defect, defectAmong_cons, not_defectAmong_nil]

/-- One level of the decoder, given what it does with the children. -/
theorem decodeQuestion_mapping_eq_error_iff
    (hchildren : Reads place entries (.nodes .children) (decodeChildren place entries)) :
    decodeQuestion place (.mapping entries) = .error e ↔
      FirstDefect .question place (.mapping entries) e := by
  rw [firstDefect_mapping_iff, decodeQuestion]
  refine reads_kindField.bind fun kind hkind => ?_
  rw [kind?_eq_some (kindField_eq_ok_iff.mp hkind)]
  refine (reads_textField "statement").bind fun statement _ => ?_
  cases kind with
  | openEnded =>
    refine (reads_textField "answer").bind fun _ _ => ?_
    refine reads_pointsField.bind fun _ _ => ?_
    exact (reads_scalarField "length").bind fun _ _ => pure_eq_error_iff
  | closedEnded =>
    refine reads_pointsField.bind fun _ _ => ?_
    exact reads_choicesField.bind fun _ _ => pure_eq_error_iff
  | trueFalse =>
    refine (reads_booleanField "answer").bind fun _ _ => ?_
    exact reads_pointsField.bind fun _ _ => pure_eq_error_iff
  | compound =>
    refine hchildren.bind fun children _ => ?_
    rw [bind_eq_error_iff, compoundPoints_eq_error_iff]
    apply or_iff_left
    rintro ⟨points, -, hpure⟩
    cases hpure

theorem decodeQuestion_eq_error_iff :
    ∀ {place e}, decodeQuestion place v = .error e ↔ FirstDefect .question place v e := by
  induction v using node_induction with
  | other v hv =>
    intro place e
    apply Iff.trans _ (firstDefect_other_iff hv).symm
    cases v with
    | mapping entries => exact absurd rfl (hv entries)
    | null | bool | number | text | list => exact (Except.error.injEq _ _).to_iff
  | mapping entries ih =>
    intro place e
    apply decodeQuestion_mapping_eq_error_iff
    rw [decodeChildren_eq_bind]
    simp only [decodeEach_eq_eachIndexed]
    exact reads_nodes .children (fun _ _ => exists_congr fun _ => decodeQuestion_eq_ok_iff)
      fun items hitems v hv _ _ => ih items hitems v hv

theorem reads_decodeQuestions :
    Reads .document entries (.nodes .questions) (decodeQuestions entries) := by
  have hread : Reads .document entries (.nodes .questions) _ := reads_nodes .questions
    (fun _ _ => exists_congr fun _ => decodeQuestion_eq_ok_iff)
    fun _ _ _ _ _ _ => decodeQuestion_eq_error_iff
  simp only [← decodeEach_eq_eachIndexed] at hread
  exact hread

def ParametersDecode (document : Value) : Prop :=
  ∀ entries v, document = .mapping entries → Value.find? "parameters" entries = some v →
    ∃ ps, decodeParameters v = .ok ps

theorem decode_eq_error_iff {document : Value} (hparameters : ParametersDecode document) :
    decode document = .error e ↔ FirstDefect .document .document document e := by
  cases document with
  | mapping entries =>
    have hquestions (ps : Parameters) : (do return Exam.mk ps (← decodeQuestions entries)) =
        .error e ↔ FirstDefect .document .document (.mapping entries) e := by
      rw [firstDefect_mapping_iff]
      exact reads_decodeQuestions.bind fun _ _ => pure_eq_error_iff
    rw [decode]
    split
    · next v hfind =>
      obtain ⟨ps, hps⟩ := hparameters entries v rfl hfind
      rw [hps]
      exact hquestions ps
    · exact hquestions .empty
  | null | bool | number | text | list =>
    apply Iff.trans _ (firstDefect_other_iff ?_).symm
    · exact (Except.error.injEq _ _).to_iff
    · exact nofun

end ExamVariants.Specification
