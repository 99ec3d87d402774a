import ExamVariants.Generator

namespace ExamVariants.Shuffle

/-- The swap partners of the positions `n`, `n - 1`, …, `1`: each at most its position. -/
def partners : Nat → Generator → List Nat × Generator
  | 0, g => ([], g)
  | n + 1, g =>
    let (j, h) := g.nextIndex (n + 2)
    let (js, k) := partners n h
    (j :: js, k)

/-- Swaps each position from the last down to the second with its partner. -/
def rearrange {α : Type} : List Nat → Array α → Array α
  | [], xs => xs
  | j :: js, xs => rearrange js (xs.swapIfInBounds (js.length + 1) j)

def shuffle {α : Type} (g : Generator) (xs : Array α) : Array α × Generator :=
  let (js, h) := partners (xs.size - 1) g
  (rearrange js xs, h)

/-- The order that a generator freshly seeded by `seed` gives. -/
def shuffled {α : Type} (xs : List α) (seed : Int64) : List α :=
  (shuffle (Generator.ofSeed seed) xs.toArray).1.toList

@[simp] theorem size_rearrange {α : Type} (js : List Nat) (xs : Array α) :
    (rearrange js xs).size = xs.size := by
  induction js generalizing xs with
  | nil => rfl
  | cons j js ih => simp [rearrange, ih]

@[simp] theorem length_shuffled {α : Type} (xs : List α) (seed : Int64) :
    (shuffled xs seed).length = xs.length := by
  simp [shuffled, shuffle]

end ExamVariants.Shuffle
