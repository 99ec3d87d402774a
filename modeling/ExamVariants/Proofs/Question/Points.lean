import ExamVariants.Proofs.Question.Tree
import Mathlib.Algebra.BigOperators.Group.List.Basic
import Mathlib.Algebra.Order.Ring.Nat
import Mathlib.Data.Nat.ModEq

namespace ExamVariants.Question

theorem sumPoints_eq_sum_mod (qs : List Question) :
    sumPoints qs = (qs.map points).sum % 0x100000000 := by
  suffices h : ∀ start, qs.foldl (fun sum q => (sum + q.points) % 0x100000000)
      (start % 0x100000000) = (start + (qs.map points).sum) % 0x100000000 by
    simpa [sumPoints] using h 0
  induction qs with
  | nil => intro start; simp
  | cons q qs ih =>
    intro start
    rw [List.foldl_cons, Nat.mod_add_mod, ih, List.map_cons, List.sum_cons, Nat.add_assoc]

theorem sumPoints_le_sum (qs : List Question) : sumPoints qs ≤ (qs.map points).sum := by
  rw [sumPoints_eq_sum_mod]
  exact Nat.mod_le _ _

theorem sumPoints_eq_sum {qs : List Question} (h : (qs.map points).sum < 0x100000000) :
    sumPoints qs = (qs.map points).sum := by
  rw [sumPoints_eq_sum_mod, Nat.mod_eq_of_lt h]

/-- The points of the questions at any depth that are not compound. -/
def gradedPoints (qs : List Question) : Nat :=
  (((nodesOf qs).filter fun q => q.kind ≠ .compound).map points).sum

theorem gradedPoints_cons (q : Question) (qs : List Question) :
    gradedPoints (q :: qs) = gradedPoints [q] + gradedPoints qs := by
  simp [gradedPoints, nodesOf]

theorem gradedPoints_compound (statement : Segment) (points : Nat) (children : List Question) :
    gradedPoints [compound statement points children] = gradedPoints children := by
  simp [gradedPoints, nodesOf, nodes, kind]

theorem sumPoints_eq_gradedPoints {qs : List Question}
    (h : ∀ q ∈ qs, q.points ≡ gradedPoints [q] [MOD 0x100000000]) :
    sumPoints qs = gradedPoints qs % 0x100000000 := by
  rw [sumPoints_eq_sum_mod]
  change (qs.map points).sum ≡ gradedPoints qs [MOD 0x100000000]
  induction qs with
  | nil => rfl
  | cons q qs ih =>
    obtain ⟨hq, hqs⟩ := List.forall_mem_cons.mp h
    rw [List.map_cons, List.sum_cons, gradedPoints_cons]
    exact hq.add (ih hqs)

/-- A compound question has the points of its children together. -/
def IsSum : Question → Prop
  | compound _ points children => points = sumPoints children
  | _ => True

theorem points_modEq_gradedPoints {q : Question} (h : ∀ n ∈ q.nodes, n.IsSum) :
    q.points ≡ gradedPoints [q] [MOD 0x100000000] := by
  induction q with
  | compound statement points children ih =>
    have hpoints : points = sumPoints children := h _ (mem_nodes_self _)
    have hchildren : sumPoints children = gradedPoints children % 0x100000000 :=
      sumPoints_eq_gradedPoints fun q hq => ih q hq fun n hn => h n (mem_nodes_of_child hq hn)
    -- Sums of sums wrap at each level, which shows in the residue only once.
    change points ≡ _ [MOD 0x100000000]
    rw [gradedPoints_compound, hpoints, hchildren]
    exact Nat.mod_modEq _ _
  | _ => simp [gradedPoints, nodesOf, nodes, kind, points, Nat.ModEq.refl]

end ExamVariants.Question
