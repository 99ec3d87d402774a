import ExamVariants.Document.Value

namespace ExamVariants.Document.Value

mutual

/-- The same tree; real numbers are never told to be the same. -/
def same : Value → Value → Bool
  | null, null => true
  | bool b, bool c => b == c
  | number (.integer i), number (.integer j) => i == j
  | text s, text t => s == t
  | list us, list vs => sameEach us vs
  | mapping us, mapping vs => sameEntries us vs
  | _, _ => false

def sameEach : List Value → List Value → Bool
  | [], [] => true
  | u :: us, v :: vs => u.same v && sameEach us vs
  | _, _ => false

def sameEntries : List (String × Value) → List (String × Value) → Bool
  | [], [] => true
  | (key, u) :: us, (key', v) :: vs => key == key' && u.same v && sameEntries us vs
  | _, _ => false

end

mutual

theorem eq_of_same {u v : Value} (h : u.same v = true) : u = v := by
  match u, v with
  | null, null => rfl
  | bool _, bool _ | number (.integer _), number (.integer _) | text _, text _ =>
    rw [eq_of_beq h]
  | list us, list vs => rw [eq_of_sameEach h]
  | mapping us, mapping vs => rw [eq_of_sameEntries h]

theorem eq_of_sameEach {us vs : List Value} (h : sameEach us vs = true) : us = vs := by
  match us, vs with
  | [], [] => rfl
  | u :: us, v :: vs =>
    obtain ⟨hu, hus⟩ := Bool.and_eq_true_iff.mp h
    rw [eq_of_same hu, eq_of_sameEach hus]

theorem eq_of_sameEntries {us vs : List (String × Value)} (h : sameEntries us vs = true) :
    us = vs := by
  match us, vs with
  | [], [] => rfl
  | (key, u) :: us, (key', v) :: vs =>
    obtain ⟨hu, hus⟩ := Bool.and_eq_true_iff.mp h
    obtain ⟨hkey, hu⟩ := Bool.and_eq_true_iff.mp hu
    rw [eq_of_beq hkey, eq_of_same hu, eq_of_sameEntries hus]

end
end ExamVariants.Document.Value
