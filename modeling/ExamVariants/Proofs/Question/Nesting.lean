import ExamVariants.Proofs.Question.Tree
import ExamVariants.RenderError

namespace ExamVariants.Question

mutual

/-- How many compound questions nest in one another, the question itself counted. -/
def nesting : Question → Nat
  | openEnded .. => 0
  | closedEnded .. => 0
  | trueFalse .. => 0
  | compound _ _ children => nestingOf children + 1

def nestingOf : List Question → Nat
  | [] => 0
  | q :: qs => max q.nesting (nestingOf qs)

end

mutual

/-- The nodes of a question with their paths, in the order of the document. -/
def placed (path : QuestionPath) : Question → List (QuestionPath × Question)
  | openEnded statement modelAnswer points answerLength =>
    [(path, openEnded statement modelAnswer points answerLength)]
  | closedEnded statement points choices => [(path, closedEnded statement points choices)]
  | trueFalse statement answer points => [(path, trueFalse statement answer points)]
  | compound statement points children =>
    (path, compound statement points children) :: placedFrom path 0 children

def placedFrom (path : QuestionPath) (index : Nat) : List Question → List (QuestionPath × Question)
  | [] => []
  | q :: qs => q.placed (path ++ [index + 1]) ++ placedFrom path (index + 1) qs

end

theorem placed_eq_cons (path : QuestionPath) (q : Question) :
    q.placed path = (path, q) :: placedFrom path 0 q.children := by
  cases q <;> rfl

theorem map_snd_placedFrom (path : QuestionPath) (index : Nat) {qs : List Question}
    (h : ∀ q ∈ qs, ∀ path, (q.placed path).map Prod.snd = q.nodes) :
    (placedFrom path index qs).map Prod.snd = nodesOf qs := by
  induction qs generalizing index with
  | nil => rfl
  | cons q qs ih =>
    obtain ⟨hq, hqs⟩ := List.forall_mem_cons.mp h
    rw [placedFrom, List.map_append, hq, ih _ hqs, nodesOf]

theorem map_snd_placed (path : QuestionPath) (q : Question) :
    (q.placed path).map Prod.snd = q.nodes := by
  induction q generalizing path with
  | compound statement points children ih =>
    rw [placed, List.map_cons, map_snd_placedFrom _ _ ih, nodes]
  | _ => rfl

/-- The paths leave out no node and add none. -/
theorem forall_placedFrom_iff {P : Question → Prop} {path : QuestionPath} {index : Nat}
    {qs : List Question} :
    (∀ n ∈ placedFrom path index qs, P n.2) ↔ ∀ q ∈ nodesOf qs, P q := by
  rw [← map_snd_placedFrom path index fun q _ path => map_snd_placed path q, List.forall_mem_map]

/-- A compound question with at least `depth` compound questions around it. -/
def isDeeper (depth : Nat) (n : QuestionPath × Question) : Bool :=
  n.2.kind = .compound && depth < n.1.length

theorem not_isDeeper_of_length {depth : Nat} {path : QuestionPath} (h : path.length ≤ depth)
    (q : Question) : ¬ isDeeper depth (path, q) = true := by
  simp [isDeeper, h]

section Depth

variable {depth index : Nat} {path : QuestionPath} {qs : List Question}

theorem find?_placedFrom_of_le
    (hqs : ∀ q ∈ qs, ∀ path : QuestionPath, q.nesting + path.length ≤ depth + 1 →
      (q.placed path).find? (isDeeper depth) = none)
    (h : nestingOf qs + path.length ≤ depth) :
    (placedFrom path index qs).find? (isDeeper depth) = none := by
  induction qs generalizing index with
  | nil => rfl
  | cons q qs ih =>
    obtain ⟨hq, hqs⟩ := List.forall_mem_cons.mp hqs
    rw [nestingOf] at h
    have hlength : (path ++ [index + 1]).length = path.length + 1 := by simp
    have hfirst := hq (path ++ [index + 1]) (by omega)
    rw [placedFrom, List.find?_append, hfirst, Option.none_or]
    exact ih hqs (by omega)

theorem find?_placed_of_le {q : Question} (h : q.nesting + path.length ≤ depth + 1) :
    (q.placed path).find? (isDeeper depth) = none := by
  induction q generalizing path with
  | compound statement points children ih =>
    rw [nesting] at h
    have hpath : path.length ≤ depth := by omega
    rw [placed, List.find?_cons_of_neg (not_isDeeper_of_length hpath _)]
    exact find?_placedFrom_of_le (fun q hq _ => ih q hq) (by omega)
  | _ => simp [placed, isDeeper, kind]

theorem exists_find?_placedFrom_of_lt
    (hqs : ∀ q ∈ qs, ∀ path : QuestionPath, path.length ≤ depth + 1 →
      depth + 1 < q.nesting + path.length → ∃ p deep, p.length = depth + 1 ∧
        (q.placed path).find? (isDeeper depth) = some (p, deep))
    (hpath : path.length ≤ depth) (h : depth < nestingOf qs + path.length) :
    ∃ p deep, p.length = depth + 1 ∧
      (placedFrom path index qs).find? (isDeeper depth) = some (p, deep) := by
  induction qs generalizing index with
  | nil =>
    rw [nestingOf] at h
    omega
  | cons q qs ih =>
    obtain ⟨hq, hqs⟩ := List.forall_mem_cons.mp hqs
    have hlength : (path ++ [index + 1]).length = path.length + 1 := by simp
    rw [placedFrom, List.find?_append]
    by_cases hdeep : depth + 1 < q.nesting + (path ++ [index + 1]).length
    · obtain ⟨p, deep, hp, hfind⟩ := hq _ (by omega) hdeep
      exact ⟨p, deep, hp, by rw [hfind, Option.some_or]⟩
    · rw [nestingOf] at h
      rw [find?_placed_of_le (Nat.le_of_not_lt hdeep), Option.none_or]
      exact ih hqs (by omega)

/-- Where the nesting goes on, the first compound question that is too deep is so by one level:
those around it come before it. -/
theorem exists_find?_placed_of_lt {q : Question} (hpath : path.length ≤ depth + 1)
    (h : depth + 1 < q.nesting + path.length) :
    ∃ p deep, p.length = depth + 1 ∧ (q.placed path).find? (isDeeper depth) = some (p, deep) := by
  induction q generalizing path with
  | compound statement points children ih =>
    rw [placed]
    by_cases hself : path.length ≤ depth
    · rw [nesting] at h
      rw [List.find?_cons_of_neg (not_isDeeper_of_length hself _)]
      exact exists_find?_placedFrom_of_lt (fun q hq _ => ih q hq) hself (by omega)
    · refine ⟨path, _, by omega, List.find?_cons_of_pos ?_⟩
      simpa [isDeeper, kind] using hself
  | _ =>
    rw [nesting] at h
    omega

end Depth

theorem nestingOf_le_iff {depth : Nat} {qs : List Question} :
    nestingOf qs ≤ depth ↔ ∀ q ∈ qs, q.nesting ≤ depth := by
  induction qs with
  | nil => simp [nestingOf]
  | cons q qs ih => rw [nestingOf, Nat.max_le, ih, List.forall_mem_cons]

theorem exists_first_deeper {depth : Nat} {qs : List Question} (h : ¬ ∀ q ∈ qs, q.nesting ≤ depth) :
    ∃ p deep, p.length = depth + 1 ∧
      (placedFrom [] 0 qs).find? (isDeeper depth) = some (p, deep) := by
  rw [← nestingOf_le_iff, Nat.not_le] at h
  exact exists_find?_placedFrom_of_lt (fun q _ path => exists_find?_placed_of_lt)
    (Nat.zero_le depth) h

theorem forall_isDeeper_eq_false_iff {depth : Nat} {qs : List Question} :
    (∀ n ∈ placedFrom [] 0 qs, isDeeper depth n = false) ↔ ∀ q ∈ qs, q.nesting ≤ depth := by
  constructor
  · intro h
    by_cases hdeep : ∀ q ∈ qs, q.nesting ≤ depth
    · exact hdeep
    · obtain ⟨p, deep, -, hfind⟩ := exists_first_deeper hdeep
      have hnot := h _ (List.mem_of_find?_eq_some hfind)
      rw [List.find?_some hfind] at hnot
      cases hnot
  · intro h
    have hfind : (placedFrom [] 0 qs).find? (isDeeper depth) = none :=
      find?_placedFrom_of_le (fun q _ path => find?_placed_of_le) (nestingOf_le_iff.mpr h)
    simpa using hfind

end ExamVariants.Question
