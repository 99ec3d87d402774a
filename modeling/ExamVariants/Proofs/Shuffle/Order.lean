import ExamVariants.Shuffle

namespace ExamVariants.Shuffle

variable {α β : Type}

/-- The order of the indices below `n` that a generator gives. -/
def order (g : Generator) (n : Nat) : List Nat := (shuffle g (List.range n).toArray).1.toList

theorem map_swapIfInBounds (f : α → β) (xs : Array α) (i j : Nat) :
    (xs.swapIfInBounds i j).map f = (xs.map f).swapIfInBounds i j := by
  refine Array.ext (by simp) fun k hk _ => ?_
  have hk' : k < xs.size := by simpa using hk
  rw [Array.getElem_map, Array.getElem_swapIfInBounds, Array.getElem_swapIfInBounds]
  simp only [Array.size_map, Array.getElem_map]
  split
  · rfl
  · split <;> rfl

theorem perm_swapIfInBounds (xs : Array α) (i j : Nat) : (xs.swapIfInBounds i j).Perm xs := by
  rw [Array.swapIfInBounds_def]
  split
  · split
    · exact Array.swap_perm _ _
    · exact Array.Perm.rfl
  · exact Array.Perm.rfl

theorem map_rearrange (f : α → β) (js : List Nat) (xs : Array α) :
    (rearrange js xs).map f = rearrange js (xs.map f) := by
  induction js generalizing xs with
  | nil => rfl
  | cons j js ih => rw [rearrange, ih, map_swapIfInBounds, rearrange]

theorem perm_rearrange (js : List Nat) (xs : Array α) : (rearrange js xs).Perm xs := by
  induction js generalizing xs with
  | nil => exact Array.Perm.rfl
  | cons j js ih => exact (ih _).trans (perm_swapIfInBounds xs _ j)

theorem shuffle_map (f : α → β) (g : Generator) (xs : Array α) :
    shuffle g (xs.map f) = ((shuffle g xs).1.map f, (shuffle g xs).2) := by
  simp only [shuffle, Array.size_map, map_rearrange]

theorem perm_order (g : Generator) (n : Nat) : (order g n).Perm (List.range n) :=
  Array.perm_iff_toList_perm.mp (perm_rearrange _ _)

theorem nodup_order (g : Generator) (n : Nat) : (order g n).Nodup :=
  (perm_order g n).nodup_iff.mpr List.nodup_range

theorem mem_order_iff {g : Generator} {n i : Nat} : i ∈ order g n ↔ i < n := by
  rw [(perm_order g n).mem_iff, List.mem_range]

@[simp] theorem length_order (g : Generator) (n : Nat) : (order g n).length = n := by
  rw [(perm_order g n).length_eq, List.length_range]

theorem shuffled_map (f : α → β) (xs : List α) (seed : Int64) :
    shuffled (xs.map f) seed = (shuffled xs seed).map f := by
  rw [shuffled, ← List.map_toArray, shuffle_map, Array.toList_map, shuffled]

theorem perm_shuffled (xs : List α) (seed : Int64) : (shuffled xs seed).Perm xs :=
  Array.perm_iff_toList_perm.mp (perm_rearrange _ _)

/-- The items stand in the order of their indices. -/
theorem map_some_shuffled (xs : List α) (seed : Int64) :
    (shuffled xs seed).map some = (order (Generator.ofSeed seed) xs.length).map (xs[·]?) := by
  have hindices : xs.map some = (List.range xs.length).map (xs[·]?) := by
    refine List.ext_getElem (by simp) fun i hi _ => ?_
    have hi' : i < xs.length := by simpa using hi
    simp [hi']
  rw [← shuffled_map, hindices, shuffled_map]
  rfl

end ExamVariants.Shuffle
