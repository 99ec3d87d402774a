import ExamVariants.Markup.Parse
import Mathlib.Data.List.Infix

namespace ExamVariants.Markup

@[simp] theorem byteSize_append (xs ys : List Char) :
    byteSize (xs ++ ys) = byteSize xs + byteSize ys := by
  induction xs with
  | nil => simp [byteSize]
  | cons x xs ih => simp [byteSize, ih, Nat.add_assoc]

theorem eq_nil_of_byteSize_eq_zero {xs : List Char} (h : byteSize xs = 0) : xs = [] := by
  cases xs with
  | nil => rfl
  | cons x xs =>
    have := x.utf8Size_pos
    simp only [byteSize] at h
    omega

/-- The size of a list that begins with a character, in the form in which slices count down. -/
theorem byteSize_cons_eq_succ (x : Char) (xs : List Char) :
    ∃ n, byteSize (x :: xs) = n + 1 ∧ n + 1 - x.utf8Size = byteSize xs := by
  have := x.utf8Size_pos
  rw [byteSize]
  exact ⟨x.utf8Size - 1 + byteSize xs, by omega, by omega⟩

theorem dropBytes_byteSize (xs ys : List Char) : dropBytes (byteSize xs) (xs ++ ys) = ys := by
  induction xs with
  | nil => simp [byteSize, dropBytes]
  | cons x xs ih =>
    obtain ⟨n, hn, hrest⟩ := byteSize_cons_eq_succ x xs
    rw [hn, List.cons_append, dropBytes, hrest]
    exact ih

theorem takeBytes_byteSize (xs ys : List Char) : takeBytes (byteSize xs) (xs ++ ys) = xs := by
  induction xs with
  | nil => rw [byteSize, takeBytes]
  | cons x xs ih =>
    obtain ⟨n, hn, hrest⟩ := byteSize_cons_eq_succ x xs
    rw [hn, List.cons_append, takeBytes, hrest, ih]

theorem slice_eq (xs ys zs : List Char) :
    slice (byteSize xs) (byteSize (xs ++ ys)) (xs ++ ys ++ zs) = ys := by
  rw [slice, List.append_assoc, dropBytes_byteSize, byteSize_append, Nat.add_sub_cancel_left]
  exact takeBytes_byteSize ys zs

/-- A byte offset at which a character of `cs` begins, or the end of `cs`. -/
def Boundary (cs : List Char) (n : Nat) : Prop := ∃ xs, xs <+: cs ∧ byteSize xs = n

theorem boundary_zero (cs : List Char) : Boundary cs 0 := ⟨[], List.nil_prefix, rfl⟩

theorem boundary_byteSize (cs : List Char) : Boundary cs (byteSize cs) := ⟨cs, List.prefix_rfl, rfl⟩

theorem prefix_of_byteSize_le {cs xs ys : List Char} (hx : xs <+: cs) (hy : ys <+: cs)
    (h : byteSize xs ≤ byteSize ys) : xs <+: ys := by
  rcases List.prefix_or_prefix_of_prefix hx hy with hp | ⟨zs, rfl⟩
  · exact hp
  · have hz : byteSize zs = 0 := by rw [byteSize_append] at h; omega
    rw [eq_nil_of_byteSize_eq_zero hz, List.append_nil]

theorem slice_append {cs : List Char} {a b c : Nat} (ha : Boundary cs a) (hb : Boundary cs b)
    (hc : Boundary cs c) (hab : a ≤ b) (hbc : b ≤ c) :
    slice a b cs ++ slice b c cs = slice a c cs := by
  obtain ⟨xs, hxs, rfl⟩ := ha
  obtain ⟨ys, hys, rfl⟩ := hb
  obtain ⟨zs, hzs, rfl⟩ := hc
  obtain ⟨u, rfl⟩ := prefix_of_byteSize_le hxs hys hab
  obtain ⟨v, rfl⟩ := prefix_of_byteSize_le hys hzs hbc
  obtain ⟨w, rfl⟩ := hzs
  have hu : slice (byteSize xs) (byteSize (xs ++ u)) (xs ++ u ++ v ++ w) = u := by
    rw [List.append_assoc (xs ++ u)]
    exact slice_eq xs u (v ++ w)
  have hv : slice (byteSize (xs ++ u)) (byteSize (xs ++ u ++ v)) (xs ++ u ++ v ++ w) = v :=
    slice_eq (xs ++ u) v w
  have huv : slice (byteSize xs) (byteSize (xs ++ u ++ v)) (xs ++ u ++ v ++ w) = u ++ v := by
    rw [List.append_assoc xs u v]
    exact slice_eq xs (u ++ v) w
  rw [hu, hv, huv]

theorem slice_zero_byteSize (cs : List Char) : slice 0 (byteSize cs) cs = cs := by
  simpa [byteSize] using slice_eq [] cs []

theorem exists_eq_append_slice {cs : List Char} {a b : Nat} (ha : Boundary cs a)
    (hb : Boundary cs b) (hab : a ≤ b) :
    ∃ xs zs, cs = xs ++ slice a b cs ++ zs ∧ byteSize xs = a ∧
      byteSize xs + byteSize (slice a b cs) = b := by
  obtain ⟨xs, hxs, rfl⟩ := ha
  obtain ⟨ys, hys, rfl⟩ := hb
  obtain ⟨mid, rfl⟩ := prefix_of_byteSize_le hxs hys hab
  obtain ⟨zs, rfl⟩ := hys
  refine ⟨xs, zs, ?_, rfl, ?_⟩
  · rw [slice_eq]
  · rw [slice_eq, byteSize_append]

def isBoundary : Nat → List Char → Bool
  | 0, _ => true
  | _ + 1, [] => false
  | n + 1, c :: cs => c.utf8Size ≤ n + 1 && isBoundary (n + 1 - c.utf8Size) cs

theorem isBoundary_iff {cs : List Char} {n : Nat} : isBoundary n cs = true ↔ Boundary cs n := by
  induction cs generalizing n with
  | nil => cases n <;> simp [isBoundary, Boundary, byteSize]
  | cons c cs ih =>
    cases n with
    | zero => exact iff_of_true rfl (boundary_zero _)
    | succ n =>
      rw [isBoundary, Bool.and_eq_true, decide_eq_true_eq, ih]
      constructor
      · rintro ⟨hle, xs, hxs, hsize⟩
        exact ⟨c :: xs, (List.prefix_cons_inj c).mpr hxs, by rw [byteSize, hsize]; omega⟩
      · rintro ⟨xs, hxs, hsize⟩
        cases xs with
        | nil => cases hsize
        | cons x xs =>
          obtain ⟨rfl, hrest⟩ := List.cons_prefix_cons.mp hxs
          rw [byteSize] at hsize
          exact ⟨by omega, xs, hrest, by omega⟩

/-- The slice, unless a bound is no boundary or the bounds are out of order. -/
def slice? (start stop : Nat) (cs : List Char) : Option (List Char) :=
  if isBoundary start cs && isBoundary stop cs && start ≤ stop then some (slice start stop cs)
  else none

theorem slice?_of_boundary {cs : List Char} {a b : Nat} (ha : Boundary cs a) (hb : Boundary cs b)
    (hab : a ≤ b) : slice? a b cs = some (slice a b cs) := by
  rw [slice?, isBoundary_iff.mpr ha, isBoundary_iff.mpr hb, if_pos (by simpa using hab)]

theorem slice?_eq (xs ys zs : List Char) :
    slice? (byteSize xs) (byteSize (xs ++ ys)) (xs ++ ys ++ zs) = some ys := by
  have hxs : Boundary (xs ++ ys ++ zs) (byteSize xs) :=
    ⟨xs, (List.prefix_append xs ys).trans (List.prefix_append _ zs), rfl⟩
  have hys : Boundary (xs ++ ys ++ zs) (byteSize (xs ++ ys)) :=
    ⟨xs ++ ys, List.prefix_append _ zs, rfl⟩
  rw [slice?_of_boundary hxs hys (by rw [byteSize_append]; omega), slice_eq]

end ExamVariants.Markup
