import ExamVariants.Proofs.Outcome
import ExamVariants.Style.Table

namespace ExamVariants

@[induction_eliminator]
theorem Segment.induction {motive : Segment → Prop}
    (simple : ∀ text styles, motive (.simple text styles))
    (compound : ∀ parts, (∀ p ∈ parts, motive p) → motive (.compound parts)) : ∀ s, motive s
  | .simple _ _ => simple _ _
  | .compound parts => compound parts fun p _ => p.induction simple compound

namespace StyleTable

theorem leading_mem_or (ss : List Style) : leading ss ∈ ss ∨ leading ss = .inherit := by
  rw [leading]
  cases hfind : ss.find? (· ≠ .newLine) with
  | none => exact Or.inr rfl
  | some s => exact Or.inl (List.mem_of_find?_eq_some hfind)

theorem leading_of_forall {motive : Style → Prop} (hinherit : motive .inherit) {ss : List Style}
    (h : ∀ s ∈ ss, motive s) : motive (leading ss) := by
  rcases leading_mem_or ss with hmem | heq
  · exact h _ hmem
  · exact heq ▸ hinherit

def renderLeaves (t : StyleTable) : List Leaf → Except RenderError String
  | [] => .ok ""
  | l :: ls => do
    let first ← t.renderLeaf l
    let rest ← t.renderLeaves ls
    return first ++ rest

theorem renderLeaves_append (t : StyleTable) (ls ls' : List Leaf) :
    t.renderLeaves (ls ++ ls') = do
      let first ← t.renderLeaves ls
      let rest ← t.renderLeaves ls'
      return first ++ rest := by
  induction ls with
  | nil =>
    cases hrest : t.renderLeaves ls' with
    | error err => exact hrest
    | ok rest =>
      rw [List.nil_append, hrest]
      exact congrArg Except.ok String.empty_append.symm
  | cons l ls ih =>
    rw [List.cons_append, renderLeaves, ih, renderLeaves]
    cases t.renderLeaf l with
    | error err => rfl
    | ok first =>
      cases t.renderLeaves ls with
      | error err => rfl
      | ok mid =>
        cases t.renderLeaves ls' with
        | error err => rfl
        | ok rest => exact congrArg Except.ok String.append_assoc.symm

theorem renderLeaves_singleton (t : StyleTable) (l : Leaf) : t.renderLeaves [l] = t.renderLeaf l := by
  rw [renderLeaves]
  cases t.renderLeaf l with
  | error err => rfl
  | ok first => exact congrArg Except.ok String.append_empty

/-- A segment renders as the list of its leaves. -/
theorem render_eq_renderLeaves (t : StyleTable) (s : Segment) :
    t.render s = t.renderLeaves s.leaves := by
  induction s with
  | simple text styles => rw [render, Segment.leaves, renderLeaves_singleton]
  | compound parts ih =>
    rw [render, Segment.leaves]
    induction parts with
    | nil => rfl
    | cons p ps ihps =>
      rw [renderAll, Segment.leavesOf, renderLeaves_append, ih p List.mem_cons_self,
        ihps fun q hq => ih q (List.mem_cons_of_mem p hq)]

end StyleTable

end ExamVariants
