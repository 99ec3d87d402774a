import ExamVariants.Question.Basic

namespace ExamVariants.Question

@[induction_eliminator]
theorem induction {motive : Question → Prop}
    (openEnded : ∀ statement modelAnswer points answerLength,
      motive (.openEnded statement modelAnswer points answerLength))
    (closedEnded : ∀ statement points choices, motive (.closedEnded statement points choices))
    (trueFalse : ∀ statement answer points, motive (.trueFalse statement answer points))
    (compound : ∀ statement points children, (∀ q ∈ children, motive q) →
      motive (.compound statement points children)) :
    ∀ q, motive q
  | .openEnded .. => openEnded _ _ _ _
  | .closedEnded .. => closedEnded _ _ _
  | .trueFalse .. => trueFalse _ _ _
  | .compound _ _ children => compound _ _ children fun q _ =>
      q.induction openEnded closedEnded trueFalse compound

mutual

def nodes : Question → List Question
  | openEnded statement modelAnswer points answerLength =>
    [openEnded statement modelAnswer points answerLength]
  | closedEnded statement points choices => [closedEnded statement points choices]
  | trueFalse statement answer points => [trueFalse statement answer points]
  | compound statement points children => compound statement points children :: nodesOf children

def nodesOf : List Question → List Question
  | [] => []
  | q :: qs => q.nodes ++ nodesOf qs

end

theorem nodesOf_eq_flatMap (qs : List Question) : nodesOf qs = qs.flatMap nodes := by
  induction qs with
  | nil => rfl
  | cons q qs ih => rw [nodesOf, ih, List.flatMap_cons]

theorem mem_nodes_self (q : Question) : q ∈ q.nodes := by
  cases q <;> simp [nodes]

theorem mem_nodes_of_child {statement : Segment} {points : Nat} {children : List Question}
    {child n : Question} (hchild : child ∈ children) (h : n ∈ child.nodes) :
    n ∈ (compound statement points children).nodes := by
  rw [nodes, nodesOf_eq_flatMap]
  exact List.mem_cons_of_mem _ (List.mem_flatMap.mpr ⟨child, hchild, h⟩)

theorem eq_or_mem_nodes_child {q n : Question} (h : n ∈ q.nodes) :
    n = q ∨ ∃ child ∈ q.children, n ∈ child.nodes := by
  cases q with
  | openEnded => exact Or.inl (List.mem_singleton.mp h)
  | closedEnded => exact Or.inl (List.mem_singleton.mp h)
  | trueFalse => exact Or.inl (List.mem_singleton.mp h)
  | compound statement points children =>
    rw [nodes, nodesOf_eq_flatMap] at h
    rcases List.mem_cons.mp h with h | h
    · exact Or.inl h
    · exact Or.inr (List.mem_flatMap.mp h)

end ExamVariants.Question
