import ExamVariants.Proofs.Document.KeyOrder
import ExamVariants.Proofs.Exam.Draw
import ExamVariants.Proofs.Question.Tree
import ExamVariants.Proofs.Style.Leaves
import ExamVariants.Render
import ExamVariants.Stored

namespace ExamVariants.Stored

open Document

theorem mapM_map {α : Type} {encode : α → Value} {decode : Value → Option α} {xs : List α}
    (h : ∀ x ∈ xs, decode (encode x) = some x) : (xs.map encode).mapM decode = some xs := by
  induction xs with
  | nil => rfl
  | cons x xs ih =>
    have hrest := ih fun y hy => h y (List.mem_cons_of_mem x hy)
    rw [List.map_cons, List.mapM_cons, h x List.mem_cons_self, hrest]
    rfl

theorem decodeStyle_encodeStyle (s : Style) : decodeStyle (encodeStyle s) = some s := by
  cases s <;> rfl

theorem encodeSegments_eq_map (ss : List Segment) : encodeSegments ss = ss.map encodeSegment := by
  induction ss with
  | nil => rfl
  | cons s ss ih => rw [encodeSegments, ih, List.map_cons]

theorem decodeSegments_eq_mapM (vs : List Value) : decodeSegments vs = vs.mapM decodeSegment := by
  induction vs with
  | nil => rfl
  | cons v vs ih => rw [decodeSegments, ih, List.mapM_cons]

theorem decodeSegment_encodeSegment (s : Segment) : decodeSegment (encodeSegment s) = some s := by
  induction s with
  | simple text styles =>
    have hstyles : (styles.map encodeStyle).mapM decodeStyle = some styles :=
      mapM_map fun s _ => decodeStyle_encodeStyle s
    have hleaf : decodeLeaf [("styles", .list (styles.map encodeStyle)), ("text", .text text)] =
        (styles.map encodeStyle).mapM decodeStyle >>= fun ss => some (.simple text ss) := rfl
    rw [encodeSegment, ofCase, decodeSegment, if_pos rfl, hleaf, hstyles]
    rfl
  | compound parts ih =>
    rw [encodeSegment, ofCase, encodeSegments_eq_map, decodeSegment, if_pos rfl,
      decodeSegments_eq_mapM, mapM_map ih]
    rfl

theorem segments?_encodeSegments (ss : List Segment) :
    segments? (.list (encodeSegments ss)) = some ss := by
  rw [segments?, encodeSegments_eq_map, decodeSegments_eq_mapM]
  exact mapM_map fun s _ => decodeSegment_encodeSegment s

theorem decodeChoice_encodeChoice (c : Choice) : decodeChoice (encodeChoice c) = some c := by
  have hchoice : decodeChoice (encodeChoice c) =
      decodeSegment (encodeSegment c.statement) >>= fun s => some ⟨c.isCorrect, s⟩ := rfl
  rw [hchoice, decodeSegment_encodeSegment]
  rfl

theorem count?_count {n : Nat} (h : n < 0x100000000) : (count n).count? = some n := by
  rw [count, Value.count?, Option.filter_eq_some_iff]
  exact ⟨rfl, decide_eq_true h⟩

theorem encodeQuestions_eq_map (qs : List Question) :
    encodeQuestions qs = qs.map encodeQuestion := by
  induction qs with
  | nil => rfl
  | cons q qs ih => rw [encodeQuestions, ih, List.map_cons]

theorem decodeQuestions_eq_mapM (vs : List Value) :
    decodeQuestions vs = vs.mapM decodeQuestion := by
  induction vs with
  | nil => rfl
  | cons v vs ih => rw [decodeQuestions, ih, List.mapM_cons]

def PointsFit (q : Question) : Prop := ∀ n ∈ q.nodes, n.points < 0x100000000

theorem pointsFit_child {statement : Segment} {points : Nat} {children : List Question}
    (h : PointsFit (.compound statement points children)) {q : Question} (hq : q ∈ children) :
    PointsFit q :=
  fun n hn => h n (Question.mem_nodes_of_child hq hn)

theorem count?_points {q : Question} (h : PointsFit q) :
    (count q.points).count? = some q.points :=
  count?_count (h q q.mem_nodes_self)

theorem decodeQuestion_encodeQuestion {q : Question} (h : PointsFit q) :
    decodeQuestion (encodeQuestion q) = some q := by
  induction q with
  | openEnded statement modelAnswer points answerLength =>
    have hpoints : (count points).count? = some points := count?_points h
    change (do
      let s ← decodeSegment (encodeSegment statement)
      let m ← decodeSegment (encodeSegment modelAnswer)
      let n ← (count points).count?
      some (Question.openEnded s m n answerLength)) = _
    rw [decodeSegment_encodeSegment, decodeSegment_encodeSegment, hpoints]
    rfl
  | closedEnded statement points choices =>
    have hpoints : (count points).count? = some points := count?_points h
    change (do
      let s ← decodeSegment (encodeSegment statement)
      let n ← (count points).count?
      let cs ← (choices.map encodeChoice).mapM decodeChoice
      some (Question.closedEnded s n cs)) = _
    rw [decodeSegment_encodeSegment, hpoints, mapM_map fun c _ => decodeChoice_encodeChoice c]
    rfl
  | trueFalse statement answer points =>
    have hpoints : (count points).count? = some points := count?_points h
    change (do
      let s ← decodeSegment (encodeSegment statement)
      let n ← (count points).count?
      some (Question.trueFalse s answer n)) = _
    rw [decodeSegment_encodeSegment, hpoints]
    rfl
  | compound statement points children ih =>
    have hpoints : (count points).count? = some points := count?_points h
    have hchildren : decodeQuestions (encodeQuestions children) = some children := by
      rw [encodeQuestions_eq_map, decodeQuestions_eq_mapM]
      exact mapM_map fun q hq => ih q hq (pointsFit_child h hq)
    -- Statement and points are read before the children, from the same mapping.
    have hhead : compoundHead (.mapping [("children", .list (encodeQuestions children)),
        ("points", count points), ("statement", encodeSegment statement)]) =
        some (statement, points) := by
      change (do
        let s ← decodeSegment (encodeSegment statement)
        let n ← (count points).count?
        some (s, n)) = _
      rw [decodeSegment_encodeSegment, hpoints]
      rfl
    change (do
      let head ← compoundHead (.mapping [("children", .list (encodeQuestions children)),
        ("points", count points), ("statement", encodeSegment statement)])
      let qs ← decodeQuestions (encodeQuestions children)
      some (Question.compound head.1 head.2 qs)) = _
    rw [hhead, hchildren]
    rfl

theorem questions?_encodeQuestions {qs : List Question} (h : ∀ q ∈ qs, PointsFit q) :
    questions? (.list (encodeQuestions qs)) = some qs := by
  rw [questions?, encodeQuestions_eq_map, decodeQuestions_eq_mapM]
  exact mapM_map fun q hq => decodeQuestion_encodeQuestion (h q hq)

def StudentsFit (s : Section) : Prop := ∀ n ∈ s.studentCount, n < 0x100000000

theorem decodeSection_encodeSection {s : Section} (h : StudentsFit s) :
    decodeSection (encodeSection s) = some s := by
  obtain ⟨name, assistant, students⟩ := s
  have hassistant : optional text? ((assistant.map Value.text).getD .null) = some assistant := by
    cases assistant <;> rfl
  have hstudents : optional Value.count? ((students.map count).getD .null) = some students := by
    cases students with
    | none => rfl
    | some n => exact congrArg (Option.map some) (count?_count (h n rfl))
  change (do
    let a ← optional text? ((assistant.map Value.text).getD .null)
    let n ← optional Value.count? ((students.map count).getD .null)
    some (Section.mk name a n)) = _
  rw [hassistant, hstudents]
  rfl

def sectionsOf : ParameterValue → List Section
  | .sections ss => ss
  | .boundSection s => [s]
  | .text _ | .segments _ => []

theorem decodeParameterValue_encodeParameterValue {v : ParameterValue}
    (h : ∀ s ∈ sectionsOf v, StudentsFit s) :
    decodeParameterValue (encodeParameterValue v) = some v := by
  cases v with
  | text t => rfl
  | sections ss =>
    have hsections := mapM_map fun s hs => decodeSection_encodeSection (h s hs)
    exact congrArg (Option.map ParameterValue.sections) hsections
  | boundSection s =>
    have hsection := decodeSection_encodeSection (h s List.mem_cons_self)
    exact congrArg (Option.map ParameterValue.boundSection) hsection
  | segments ss => exact congrArg (Option.map ParameterValue.segments) (segments?_encodeSegments ss)

theorem find?_name (p : Parameter) : Parameter.all.find? (·.name == p.name) = some p := by
  cases p <;> rfl

theorem name_injective : Function.Injective Parameter.name := by
  intro p q h
  have hp := find?_name p
  rw [h, find?_name q] at hp
  exact (Option.some.inj hp).symm

def IsEntry (ps : Parameters) (entry : String × Value) : Prop :=
  ∃ p v, ps p = some v ∧ entry = (p.name, encodeParameterValue v)

theorem decodeEntry_of_isEntry {ps : Parameters} {p : Parameter} {v : ParameterValue}
    (h : ∀ s ∈ sectionsOf v, StudentsFit s) :
    decodeEntry ps (p.name, encodeParameterValue v) = some (ps.bind p v) := by
  rw [decodeEntry, find?_name]
  change (decodeParameterValue (encodeParameterValue v) >>= fun v => some (ps.bind p v)) = _
  rw [decodeParameterValue_encodeParameterValue h]
  rfl

theorem foldlM_decodeEntry {ps : Parameters}
    (h : ∀ p v, ps p = some v → ∀ s ∈ sectionsOf v, StudentsFit s)
    {entries : List (String × Value)} (hentries : ∀ e ∈ entries, IsEntry ps e) (acc : Parameters) :
    entries.foldlM decodeEntry acc =
      some fun q => if q.name ∈ entries.map Prod.fst then ps q else acc q := by
  induction entries generalizing acc with
  | nil => rfl
  | cons entry entries ih =>
    obtain ⟨⟨p, v, hp, rfl⟩, hrest⟩ := List.forall_mem_cons.mp hentries
    rw [List.foldlM_cons, decodeEntry_of_isEntry (h p v hp)]
    change entries.foldlM decodeEntry (acc.bind p v) = _
    rw [ih hrest]
    congr 1
    funext q
    by_cases hq : q = p
    · subst hq
      simp [hp]
    · have hname : q.name ≠ p.name := fun h => hq (name_injective h)
      simp only [List.map_cons, List.mem_cons, hname, false_or, Parameters.bind_of_ne _ _ hq]

theorem exists_ofEntries (entries : List (String × Value)) :
    ∃ sorted, Value.ofEntries entries = .mapping sorted ∧ (∀ e ∈ sorted, e ∈ entries) ∧
      ∀ k, k ∈ sorted.map Prod.fst ↔ k ∈ entries.map Prod.fst := by
  refine ⟨_, rfl, ?_⟩
  -- The induction is over the entries still to be put in, whatever is in the mapping already.
  suffices hfold : ∀ acc : List (String × Value),
      (∀ e ∈ entries.foldl (fun sorted e => Value.insertEntry e.1 e.2 sorted) acc,
        e ∈ acc ∨ e ∈ entries) ∧
      ∀ k, k ∈ (entries.foldl (fun sorted e => Value.insertEntry e.1 e.2 sorted) acc).map Prod.fst ↔
        k ∈ acc.map Prod.fst ∨ k ∈ entries.map Prod.fst by
    simpa using hfold []
  induction entries with
  | nil => simp
  | cons entry entries ih =>
    intro acc
    obtain ⟨hmem, hkeys⟩ := ih (Value.insertEntry entry.1 entry.2 acc)
    refine ⟨fun e he => ?_, fun k => ?_⟩
    · rcases hmem e he with hacc | hrest
      · rcases Value.mem_of_mem_insertEntry hacc with rfl | hacc
        · exact .inr List.mem_cons_self
        · exact .inl hacc
      · exact .inr (List.mem_cons_of_mem entry hrest)
    · rw [List.foldl_cons, hkeys, Value.mem_keys_insertEntry, List.map_cons, List.mem_cons]
      tauto

theorem decodeParameters_encodeParameters {ps : Parameters}
    (h : ∀ p v, ps p = some v → ∀ s ∈ sectionsOf v, StudentsFit s) :
    decodeParameters (encodeParameters ps) = some ps := by
  obtain ⟨sorted, hsorted, hmem, hkeys⟩ := exists_ofEntries
    (Parameter.all.filterMap fun p => (ps p).map fun v => (p.name, encodeParameterValue v))
  have hentries : ∀ e ∈ sorted, IsEntry ps e := by
    intro e he
    obtain ⟨p, -, hp⟩ := List.mem_filterMap.mp (hmem e he)
    obtain ⟨v, hv, rfl⟩ := Option.map_eq_some_iff.mp hp
    exact ⟨p, v, hv, rfl⟩
  rw [encodeParameters, hsorted, decodeParameters, foldlM_decodeEntry h hentries]
  congr 1
  funext q
  cases hq : ps q with
  | none => simp [Parameters.empty]
  | some v =>
    have hkey : q.name ∈ sorted.map Prod.fst := by
      rw [hkeys, List.map_filterMap]
      exact List.mem_filterMap.mpr ⟨q, q.mem_all, by simp [hq]⟩
    rw [if_pos hkey]

/-- All numbers of the examination fit 32 bits: the points of every question, at any depth, and the
numbers of students of its sections. -/
structure NumbersFit (e : Exam) : Prop where
  points : ∀ q ∈ e.questions, PointsFit q
  students : ∀ p v, e.parameters p = some v → ∀ s ∈ sectionsOf v, StudentsFit s

theorem decode_encode {e : Exam} (h : NumbersFit e) : decode (encode e) = some e := by
  change (do
    let ps ← decodeParameters (encodeParameters e.parameters)
    let qs ← questions? (.list (encodeQuestions e.questions))
    some (Exam.mk ps qs)) = _
  rw [decodeParameters_encodeParameters h.students, questions?_encodeQuestions h.points]
  rfl

theorem pointsFit_scrambled {q : Question} (h : PointsFit q) (seed : Int64) :
    PointsFit (q.scrambled seed) := by
  induction q with
  | openEnded statement modelAnswer points answerLength => exact h
  | closedEnded statement points choices =>
    have hroot : points < 0x100000000 := h _ (Question.mem_nodes_self _)
    intro n hn
    obtain rfl := List.mem_singleton.mp hn
    exact hroot
  | trueFalse statement answer points => exact h
  | compound statement points children ih =>
    have hroot : points < 0x100000000 := h _ (Question.mem_nodes_self _)
    intro n hn
    rw [Question.scrambled, Question.scrambledEach_eq_map] at hn
    rcases Question.eq_or_mem_nodes_child hn with rfl | ⟨child, hchild, hn⟩
    · exact hroot
    · rw [Question.children, (Shuffle.perm_shuffled _ seed).mem_iff] at hchild
      obtain ⟨q, hq, rfl⟩ := List.mem_map.mp hchild
      exact ih q hq (pointsFit_child h hq) n hn

theorem numbersFit_variant {e : Exam} (h : NumbersFit e) (seed : Int64) (limit : Nat) {s : Section}
    (hs : StudentsFit s) : NumbersFit (e.variant seed limit s) where
  points q hq := by
    rw [Exam.questions_variant] at hq
    obtain ⟨master, hmaster, rfl⟩ := List.mem_map.mp hq
    rw [(Shuffle.perm_shuffled _ seed).mem_iff] at hmaster
    have hquestion := (Shuffle.perm_shuffled _ seed).mem_iff.mp (List.mem_of_mem_take hmaster)
    exact pointsFit_scrambled (h.points master hquestion) seed
  students p v hv := by
    rw [Exam.parameters_variant] at hv
    by_cases hp : p = .sections
    · rw [hp, Parameters.bind_self] at hv
      obtain rfl := Option.some.inj hv
      intro t ht
      rw [List.mem_singleton.mp ht]
      exact hs
    · rw [Parameters.bind_of_ne _ _ hp] at hv
      exact h.students p v hv

theorem studentsFit_of_sections {e : Exam} (h : NumbersFit e) {ss : List Section}
    (hss : e.sections = .ok ss) : ∀ s ∈ ss, StudentsFit s := by
  rw [Exam.sections] at hss
  split at hss
  · next hbound =>
    obtain rfl := Except.ok.inj hss
    exact h.students _ _ hbound
  · next hbound =>
    obtain rfl := Except.ok.inj hss
    exact h.students _ _ hbound
  · cases hss
  · cases hss

theorem numbersFit_of_mem_variants {e : Exam} (h : NumbersFit e) {seed : Int64} {limit : Nat}
    {vs : List Exam} (hvs : e.variants seed limit = .ok vs) : ∀ v ∈ vs, NumbersFit v := by
  obtain ⟨-, ss, hss, rfl⟩ := Exam.variants_eq_ok_iff.mp hvs
  intro v hv
  obtain ⟨i, hi, rfl⟩ := List.mem_mapIdx.mp hv
  exact numbersFit_variant h _ limit (studentsFit_of_sections h hss _ (List.getElem_mem hi))

/-- The stored form loses nothing of an examination, nor of a variant drawn from it, so that a
variant which was stored renders again as it did, in every notation and for either half. -/
theorem stored_reads_back {e : Exam} (h : NumbersFit e) :
    decode (encode e) = some e ∧
      ∀ seed limit vs, e.variants seed limit = .ok vs → ∀ v ∈ vs, ∃ again,
        decode (encode v) = some again ∧ again = v ∧
          ∀ target solutions, render again target solutions = render v target solutions := by
  refine ⟨decode_encode h, ?_⟩
  intro seed limit vs hvs v hv
  exact ⟨v, decode_encode (numbersFit_of_mem_variants h hvs v hv), rfl, fun _ _ => rfl⟩

def storedSheet : Exam where
  parameters := (Parameters.empty.bind .sections
    (.sections [⟨"A01", some "Ada", some 0xFFFFFFFF⟩, ⟨"A02", none, none⟩])).bind .instructions
      (.segments [.compound [.plain "No ", .simple "notes" [.bold, .newLine]]])
  questions := [.compound (.plain "All") 0xFFFFFFFF
    [.trueFalse (.compound []) true 0, .compound (.plain "Rest") 1
      [.openEnded (.plain "Why") (.plain "so") 2 "1in",
        .closedEnded (.plain "Pick") 3 [⟨true, .plain "a"⟩, ⟨false, .compound [.plain "b"]⟩]]]]

theorem numbersFit_storedSheet : NumbersFit storedSheet where
  points := by
    change ∀ q ∈ storedSheet.questions, ∀ n ∈ q.nodes, n.points < 0x100000000
    decide
  students p v hv := by
    cases p with
    | sections =>
      obtain rfl := Option.some.inj hv
      change ∀ s ∈ [(⟨"A01", some "Ada", some 0xFFFFFFFF⟩ : Section), ⟨"A02", none, none⟩],
        ∀ n ∈ s.studentCount, n < 0x100000000
      decide
    | instructions =>
      obtain rfl := Option.some.inj hv
      exact List.forall_mem_nil _
    | course | courseId | courseReferenceNumber | date | instructors | term | timeLimit | title =>
      cases hv

theorem stored_reads_back_storedSheet :
    NumbersFit storedSheet ∧ decode (encode storedSheet) = some storedSheet ∧
      ∃ vs v, storedSheet.variants 7 1 = .ok vs ∧ v ∈ vs ∧ ∃ again,
        decode (encode v) = some again ∧
          ∀ target solutions, render again target solutions = render v target solutions := by
  have hvs : storedSheet.variants 7 1 = .ok (List.mapIdx
      (fun i s => storedSheet.variant (Exam.sectionSeed 7 i) 1 s)
      [⟨"A01", some "Ada", some 0xFFFFFFFF⟩, ⟨"A02", none, none⟩]) := rfl
  obtain ⟨hmaster, hvariants⟩ := stored_reads_back numbersFit_storedSheet
  obtain ⟨again, hagain, -, hrender⟩ := hvariants 7 1 _ hvs _ List.mem_cons_self
  exact ⟨numbersFit_storedSheet, hmaster, _, _, hvs, List.mem_cons_self, again, hagain, hrender⟩

end ExamVariants.Stored
