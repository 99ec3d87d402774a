import ExamVariants.Proofs.Exam.Limits
import ExamVariants.Proofs.Question.Nesting
import ExamVariants.Proofs.Specification.Address
import ExamVariants.Proofs.Specification.Grammar

namespace ExamVariants

namespace Exam

theorem totalPoints_eq_gradedPoints {e : Exam}
    (h : ∀ n ∈ Question.nodesOf e.questions, n.IsSum) :
    e.totalPoints = Question.gradedPoints e.questions % 0x100000000 := by
  refine Question.sumPoints_eq_gradedPoints fun q hq => ?_
  refine Question.points_modEq_gradedPoints fun n hn => h n ?_
  rw [Question.nodesOf_eq_flatMap]
  exact List.mem_flatMap.mpr ⟨q, hq, hn⟩

theorem totalPoints_of_perm {e v : Exam} {seed : Int64}
    (h : v.questions.Perm (e.questions.map (Question.scrambled seed))) :
    v.totalPoints = e.totalPoints := by
  have hpoints : (e.questions.map (Question.scrambled seed)).map Question.points =
      e.questions.map Question.points := by simp
  rw [totalPoints, totalPoints, Question.sumPoints_eq_sum_mod, Question.sumPoints_eq_sum_mod,
    ← hpoints, (h.map Question.points).sum_eq]

theorem totalPoints_scrambled (e : Exam) (seed : Int64) :
    (e.scrambled seed).totalPoints = e.totalPoints :=
  totalPoints_of_perm (Shuffle.perm_shuffled _ seed)

theorem totalPoints_of_mem_variants {e v : Exam} {seed : Int64} {vs : List Exam}
    (hvs : e.variants seed e.questions.length = .ok vs) (hv : v ∈ vs) :
    v.totalPoints = e.totalPoints := by
  obtain ⟨i, hi⟩ := List.mem_iff_getElem?.mp hv
  have hgets : GetsVariant e seed e.questions.length i v := ⟨vs, hvs, hi⟩
  exact totalPoints_of_perm hgets.perm_questions

end Exam

namespace Specification

open Document

/-- The question at a position, counted from one, in the list under a key. -/
def nodeUnder? (key : String) (v : Value) : Nat → Option Value
  | 0 => none
  | i + 1 => (entryAt? key v).bind (itemAt? i)

def nodeAt? (document : Value) : QuestionPath → Option Value
  | [] => some document
  | n :: path => (nodeUnder? "questions" document n).bind fun v =>
      path.foldlM (nodeUnder? "children") v

theorem nodeAt?_append {document : Value} {path : QuestionPath} (hpath : path ≠ []) (n : Nat) :
    nodeAt? document (path ++ [n]) =
      (nodeAt? document path).bind fun v => nodeUnder? "children" v n := by
  obtain ⟨m, path, rfl⟩ := List.exists_cons_of_ne_nil hpath
  simp [nodeAt?, List.foldlM_append, Option.bind_assoc]

/-- The value at the path of a question is one that the grammar reads as the question. -/
def StandsFor (document : Value) (n : QuestionPath × Question) : Prop :=
  ∃ v, nodeAt? document n.1 = some v ∧ IsQuestion v n.2

theorem standsFor_placedFrom {document : Value} {path : QuestionPath} {index : Nat}
    {nodes : List Value} {qs : List Question}
    (hnodes : ∀ i, nodeAt? document (path ++ [index + i + 1]) = nodes[i]?)
    (hread : List.Forall₂ IsQuestion nodes qs)
    (h : ∀ q ∈ qs, ∀ path, path ≠ [] → StandsFor document (path, q) →
      ∀ n ∈ q.placed path, StandsFor document n) :
    ∀ n ∈ Question.placedFrom path index qs, StandsFor document n := by
  induction hread generalizing index with
  | nil => exact List.forall_mem_nil _
  | @cons v q nodes qs hv _ ih =>
    obtain ⟨hq, hqs⟩ := List.forall_mem_cons.mp h
    rw [Question.placedFrom, List.forall_mem_append]
    have hfirst : nodeAt? document (path ++ [index + 1]) = some v := hnodes 0
    refine ⟨hq _ (by simp) ⟨v, hfirst, hv⟩, ih (fun i => ?_) hqs⟩
    rw [← List.getElem?_cons_succ, ← hnodes (i + 1), Nat.add_right_comm index 1 i]
    rfl

theorem standsFor_placed {document : Value} {q : Question} {path : QuestionPath}
    (hpath : path ≠ []) (h : StandsFor document (path, q)) :
    ∀ n ∈ q.placed path, StandsFor document n := by
  induction q generalizing path with
  | compound statement points children ih =>
    rw [Question.placed, List.forall_mem_cons]
    refine ⟨h, ?_⟩
    obtain ⟨v, hv, hread⟩ := h
    cases hread with
    | @compound entries _ _ nodes _ _ _ hnodes hchildren _ =>
      refine standsFor_placedFrom (fun i => ?_) hchildren fun q hq path hpath h => ih q hq hpath h
      rw [nodeAt?_append hpath, hv, Nat.zero_add, Option.bind_some, nodeUnder?, entryAt?, hnodes]
      rfl
  | _ =>
    rw [Question.placed, List.forall_mem_singleton]
    exact h

theorem exists_nodes_of_decode {document : Value} {e : Exam} (h : decode document = .ok e) :
    ∃ entries nodes, document = .mapping entries ∧
      Value.find? "questions" entries = some (.list nodes) ∧
      List.Forall₂ IsQuestion nodes e.questions := by
  cases document with
  | mapping entries =>
    have hquestions (ps : Parameters) (hps : (do return Exam.mk ps (← decodeQuestions entries)) =
        Except.ok e) : decodeQuestions entries = .ok e.questions := by
      obtain ⟨questions, hquestions, hexam⟩ := bind_eq_ok_iff.mp hps
      rw [hquestions, ← pure_eq_ok_iff.mp hexam]
    have hdecode : decodeQuestions entries = .ok e.questions := by
      rw [decode] at h
      split at h
      · obtain ⟨ps, -, hps⟩ := bind_eq_ok_iff.mp h
        exact hquestions ps hps
      · exact hquestions .empty h
    obtain ⟨nodes, hnodes, hread⟩ := decodeQuestions_eq_ok_iff.mp hdecode
    exact ⟨entries, nodes, rfl, hnodes, hread⟩
  | _ => cases h

/-- Every question of an examination stands in the document at the path that it has. -/
theorem standsFor_of_decode {document : Value} {e : Exam} (h : decode document = .ok e) :
    ∀ n ∈ Question.placedFrom [] 0 e.questions, StandsFor document n := by
  obtain ⟨entries, nodes, rfl, hnodes, hread⟩ := exists_nodes_of_decode h
  refine standsFor_placedFrom (fun i => ?_) hread fun q _ path hpath h => standsFor_placed hpath h
  simp [nodeAt?, nodeUnder?, entryAt?, hnodes, itemAt?]

/-- The points of a question by the entries that it is read from. -/
def PointsFollow (entries : Entries) : Question → Prop
  | .compound _ points children =>
    match Value.find? "points" entries with
    | some v => v = .number (.integer points)
    | none => points = (children.map Question.points).sum % 0x100000000
  | q => Value.find? "points" entries = some (.number (.integer q.points))

theorem pointsFollow_of_isQuestion {entries : Entries} {q : Question}
    (h : IsQuestion (.mapping entries) q) : PointsFollow entries q := by
  cases h with
  | openEnded _ _ _ hpoints _ => exact hpoints.1
  | closedEnded _ _ hpoints _ _ => exact hpoints.1
  | trueFalse _ _ _ hpoints => exact hpoints.1
  | compound _ _ _ _ hpoints =>
    rw [PointsFollow]
    rcases hpoints with ⟨hfind, -⟩ | ⟨hfind, hsum⟩
    · rw [hfind]
    · rw [hfind, hsum, Question.sumPoints_eq_sum_mod]

theorem PointsFollow.isSum {entries : Entries} {q : Question} (h : PointsFollow entries q)
    (hleft : q.kind = .compound → Value.find? "points" entries = none) : q.IsSum := by
  cases q with
  | compound statement points children =>
    rw [PointsFollow, hleft rfl] at h
    exact h.trans (Question.sumPoints_eq_sum_mod children).symm
  | _ => trivial

/-- Every question of an examination is read from a node of the document at its path. The points of
a compound one are those written there and, where none are written, the sum over its children; the
points of any other one are always written. If no compound question has its points written, the
points of the examination, of all its scramblings and of all variants that draw every question add
up to the points of the questions that are not compound. All sums are those of 32 bits. -/
theorem compound_points_default_to_sum {document : Value} {e : Exam}
    (h : decode document = .ok e) :
    (∀ n ∈ Question.placedFrom [] 0 e.questions, ∃ entries,
      nodeAt? document n.1 = some (.mapping entries) ∧ PointsFollow entries n.2) ∧
    ((∀ n ∈ Question.placedFrom [] 0 e.questions, n.2.kind = .compound → ∀ entries,
        nodeAt? document n.1 = some (.mapping entries) → Value.find? "points" entries = none) →
      e.totalPoints = Question.gradedPoints e.questions % 0x100000000 ∧
      (∀ seed, (e.scrambled seed).totalPoints = Question.gradedPoints e.questions % 0x100000000) ∧
      ∀ seed vs, e.variants seed e.questions.length = .ok vs →
        ∀ v ∈ vs, v.totalPoints = Question.gradedPoints e.questions % 0x100000000) := by
  have hfollow : ∀ n ∈ Question.placedFrom [] 0 e.questions, ∃ entries,
      nodeAt? document n.1 = some (.mapping entries) ∧ PointsFollow entries n.2 := by
    intro n hn
    obtain ⟨v, hv, hread⟩ := standsFor_of_decode h n hn
    cases v with
    | mapping entries => exact ⟨entries, hv, pointsFollow_of_isQuestion hread⟩
    | _ => cases hread
  refine ⟨hfollow, fun hleft => ?_⟩
  have hsum : e.totalPoints = Question.gradedPoints e.questions % 0x100000000 := by
    apply Exam.totalPoints_eq_gradedPoints
    rw [← Question.forall_placedFrom_iff]
    intro n hn
    obtain ⟨entries, hentries, hpoints⟩ := hfollow n hn
    exact hpoints.isSum fun hkind => hleft n hn hkind entries hentries
  refine ⟨hsum, fun seed => ?_, fun seed vs hvs v hv => ?_⟩
  · rw [Exam.totalPoints_scrambled, hsum]
  · rw [Exam.totalPoints_of_mem_variants hvs hv, hsum]

def summedDocument : Value :=
  .mapping [
    ("parameters", .mapping [("SECTIONS", .list [.text "A", .text "B"])]),
    ("questions", .list [
      .mapping [("answer", .bool true), ("points", .number (.integer 1)), ("statement", .text "a"),
        ("type", .text "true-false")],
      .mapping [("children", .list [
          .mapping [("answer", .bool false), ("points", .number (.integer 2)),
            ("statement", .text "b"), ("type", .text "true-false")],
          .mapping [("children", .list [
              .mapping [("answer", .text "c"), ("length", .text "1in"),
                ("points", .number (.integer 4)), ("statement", .text "d"),
                ("type", .text "open-ended")]]),
            ("statement", .text "e"), ("type", .text "compound")]]),
        ("statement", .text "f"), ("type", .text "compound")]])]

def summedSheet : Exam where
  parameters := Parameters.empty.bind .sections
    (.sections [⟨"A", none, none⟩, ⟨"B", none, none⟩])
  questions :=
    [.trueFalse (.plain "a") true 1,
      .compound (.plain "f") 6
        [.trueFalse (.plain "b") false 2,
          .compound (.plain "e") 4 [.openEnded (.plain "d") (.plain "c") 4 "1in"]]]

/-- Both sections get a variant with the seven points of the three questions that are answered. -/
theorem compound_points_default_to_sum_summedDocument :
    decode summedDocument = .ok summedSheet ∧
    (∀ n ∈ Question.placedFrom [] 0 summedSheet.questions, n.2.kind = .compound → ∀ entries,
      nodeAt? summedDocument n.1 = some (.mapping entries) →
        Value.find? "points" entries = none) ∧
    Question.gradedPoints summedSheet.questions = 7 ∧ summedSheet.totalPoints = 7 ∧
    (summedSheet.scrambled 5).totalPoints = 7 ∧
    ∃ vs, summedSheet.variants 5 2 = .ok vs ∧ vs.length = 2 ∧ ∀ v ∈ vs, v.totalPoints = 7 := by
  have hdecode : decode summedDocument = .ok summedSheet := rfl
  have hleft : ∀ n ∈ Question.placedFrom [] 0 summedSheet.questions, n.2.kind = .compound →
      ∀ entries, nodeAt? summedDocument n.1 = some (.mapping entries) →
        Value.find? "points" entries = none := by
    simp only [summedSheet, Question.placedFrom, Question.placed, List.cons_append,
      List.nil_append, List.append_nil, List.forall_mem_cons]
    refine ⟨?_, ?_, ?_, ?_, ?_, List.forall_mem_nil _⟩
    · rintro ⟨⟩
    · rintro - entries ⟨⟩
      rfl
    · rintro ⟨⟩
    · rintro - entries ⟨⟩
      rfl
    · rintro ⟨⟩
  obtain ⟨-, hpoints⟩ := compound_points_default_to_sum hdecode
  obtain ⟨htotal, hscrambled, hvariants⟩ := hpoints hleft
  exact ⟨hdecode, hleft, rfl, htotal, hscrambled 5, _, rfl, rfl, hvariants 5 _ rfl⟩

end Specification

end ExamVariants
