import ExamVariants.Markup.Tag

namespace ExamVariants.Markup

/-- Takes the latest entry of a name out of the open tags. -/
def closeLatest? (key : String) : List (String × Nat) → Option (Nat × List (String × Nat))
  | [] => none
  | (k, o) :: rest =>
    if k = key then some (o, rest)
    else (closeLatest? key rest).map fun (o', rest') => (o', (k, o) :: rest')

/-- The pairs of opening and closing index in the order of the closing tags; `index` is the place of
the first tag, and `pending` holds the open tags before it, latest first. -/
def pairsFrom (index : Nat) (pending : List (String × Nat)) : List Tag → List (Nat × Nat)
  | [] => []
  | t :: ts =>
    if t.closing then
      match closeLatest? t.key pending with
      | some (o, rest) => (o, index) :: pairsFrom (index + 1) rest ts
      | none => pairsFrom (index + 1) pending ts
    else pairsFrom (index + 1) ((t.key, index) :: pending) ts

def pairs (ts : List Tag) : List (Nat × Nat) := pairsFrom 0 [] ts

def partners (ts : List Tag) : Array (Option Nat) :=
  (pairs ts).foldl (fun a (o, c) => a.setIfInBounds o (some c)) (Array.replicate ts.length none)

theorem size_partners (ts : List Tag) : (partners ts).size = ts.length := by
  have h (ps : List (Nat × Nat)) (a : Array (Option Nat)) :
      (ps.foldl (fun a (o, c) => a.setIfInBounds o (some c)) a).size = a.size := by
    induction ps generalizing a with
    | nil => rfl
    | cons p ps ih => simp [ih]
  simp [partners, h]

end ExamVariants.Markup
