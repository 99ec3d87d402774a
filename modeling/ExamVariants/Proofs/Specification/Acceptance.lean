import ExamVariants.Proofs.Specification.Grammar

namespace ExamVariants.Specification

open Document

variable {place : Place} {entries : Entries} {key : String}

def nodeKeys : List String :=
  ["type", "statement", "answer", "points", "length", "options", "correct", "children"]

mutual

/-- The value without the entries under other keys, at any depth. -/
def bare : Value → Value
  | .null => .null
  | .bool b => .bool b
  | .number n => .number n
  | .text s => .text s
  | .list items => .list (bareEach items)
  | .mapping entries => .mapping (bareEntries entries)

def bareEach : List Value → List Value
  | [] => []
  | v :: vs => bare v :: bareEach vs

def bareEntries : Entries → Entries
  | [] => []
  | (key, v) :: rest =>
    if key ∈ nodeKeys then (key, bare v) :: bareEntries rest else bareEntries rest

end

@[simp] theorem scalarText?_bare (v : Value) : (bare v).scalarText? = v.scalarText? := by
  cases v <;> rfl

@[simp] theorem count?_bare (v : Value) : (bare v).count? = v.count? := by
  cases v <;> rfl

theorem find?_bareEntries (hkey : key ∈ nodeKeys) :
    Value.find? key (bareEntries entries) = (Value.find? key entries).map bare := by
  induction entries with
  | nil => rfl
  | cons entry entries ih =>
    obtain ⟨k, v⟩ := entry
    rw [bareEntries, find?_cons]
    by_cases hk : key = k
    · rw [if_pos hk, if_pos (hk ▸ hkey), find?_cons, if_pos hk, Option.map_some]
    · rw [if_neg hk, ← ih]
      split
      · rw [find?_cons, if_neg hk]
      · rfl

theorem required_bare (hkey : key ∈ nodeKeys) :
    required place (bareEntries entries) key = bare <$> required place entries key := by
  rw [required, required, find?_bareEntries hkey]
  cases Value.find? key entries <;> rfl

theorem scalarField_bare (hkey : key ∈ nodeKeys) :
    scalarField place (bareEntries entries) key = scalarField place entries key := by
  simp only [scalarField, required_bare hkey, bind_map_left, scalarText?_bare]

theorem textField_bare (hkey : key ∈ nodeKeys) :
    textField place (bareEntries entries) key = textField place entries key := by
  rw [textField, textField, scalarField_bare hkey]

theorem pointsField_bare :
    pointsField place (bareEntries entries) = pointsField place entries := by
  have hkey : "points" ∈ nodeKeys := by decide
  simp only [pointsField, required_bare hkey, bind_map_left, count?_bare]

theorem booleanField_bare (hkey : key ∈ nodeKeys) :
    booleanField place (bareEntries entries) key = booleanField place entries key := by
  simp only [booleanField, required_bare hkey, bind_map_left]
  congr 1
  funext v
  cases v <;> rfl

theorem kindField_bare : kindField place (bareEntries entries) = kindField place entries := by
  have hkey : "type" ∈ nodeKeys := by decide
  simp only [kindField, required_bare hkey, bind_map_left]
  congr 1
  funext v
  cases v <;> rfl

theorem decodeChoice_bare (v : Value) : decodeChoice place (bare v) = decodeChoice place v := by
  cases v with
  | null | bool | number | text | list => rfl
  | mapping entries =>
    rw [bare, decodeChoice, decodeChoice, booleanField_bare (by decide),
      textField_bare (by decide)]

theorem bareEach_eq_map (vs : List Value) : bareEach vs = vs.map bare := by
  induction vs with
  | nil => rfl
  | cons v vs ih => rw [bareEach, ih, List.map_cons]

theorem eachIndexed_map {α β : Type} {f : Nat → α → Except Error β} {g : α → α} {xs : List α}
    (hf : ∀ x ∈ xs, ∀ i, f i (g x) = f i x) {i : Nat} :
    eachIndexed f i (xs.map g) = eachIndexed f i xs := by
  induction xs generalizing i with
  | nil => rfl
  | cons x xs ih =>
    rw [List.forall_mem_cons] at hf
    rw [List.map_cons, eachIndexed, eachIndexed, hf.1, ih hf.2]

theorem choicesField_bare :
    choicesField place (bareEntries entries) = choicesField place entries := by
  have hkey : "options" ∈ nodeKeys := by decide
  simp only [choicesField, required_bare hkey, bind_map_left]
  congr 1
  funext v
  cases v with
  | null | bool | number | text | mapping => rfl
  | list options =>
    rw [bare, bareEach_eq_map]
    apply eachIndexed_map
    intro v _ k
    exact decodeChoice_bare v

theorem compoundPoints_bare {children : List Question} :
    compoundPoints place (bareEntries entries) children =
      compoundPoints place entries children := by
  rw [compoundPoints, compoundPoints, find?_bareEntries (by decide), pointsField_bare]
  cases Value.find? "points" entries <;> rfl

theorem decodeQuestion_bare (v : Value) :
    ∀ place, decodeQuestion place (bare v) = decodeQuestion place v := by
  induction v using node_induction with
  | other v hv =>
    intro place
    cases v with
    | mapping entries => exact absurd rfl (hv entries)
    | null | bool | number | text | list => rfl
  | mapping entries ih =>
    intro place
    have hchildren : decodeChildren place (bareEntries entries) = decodeChildren place entries := by
      have hkey : "children" ∈ nodeKeys := by decide
      rw [decodeChildren_eq_bind, decodeChildren_eq_bind, required, required,
        find?_bareEntries hkey]
      cases hfind : Value.find? "children" entries with
      | none => rfl
      | some v =>
        cases v with
        | null | bool | number | text | mapping => rfl
        | list nodes =>
          -- The children are nodes under a key, so the induction reaches them.
          change decodeEach _ 0 (bareEach nodes) = decodeEach _ 0 nodes
          rw [bareEach_eq_map, decodeEach_eq_eachIndexed, decodeEach_eq_eachIndexed]
          exact eachIndexed_map fun node hnode _ => ih nodes hfind node hnode _
    have hstatement : "statement" ∈ nodeKeys := by decide
    have hanswer : "answer" ∈ nodeKeys := by decide
    have hlength : "length" ∈ nodeKeys := by decide
    simp only [bare, decodeQuestion, kindField_bare, textField_bare hstatement,
      textField_bare hanswer, pointsField_bare, scalarField_bare hlength, choicesField_bare,
      booleanField_bare hanswer, hchildren, compoundPoints_bare]

/-- A value decodes to a question iff the grammar derives the question from it, at whatever place it
stands, and the questions of a document decode one by one. Entries under other keys change neither
the question nor the error, however deep they lie. -/
theorem decodeQuestion_iff_isQuestion :
    (∀ place v q, decodeQuestion place v = .ok q ↔ IsQuestion v q) ∧
    (∀ entries qs, decodeQuestions entries = .ok qs ↔
      ∃ nodes, Value.find? "questions" entries = some (.list nodes) ∧
        List.Forall₂ IsQuestion nodes qs) ∧
    ∀ place v, decodeQuestion place (bare v) = decodeQuestion place v := by
  refine ⟨?_, ?_, ?_⟩
  · intro place v q
    exact decodeQuestion_eq_ok_iff
  · intro entries qs
    exact decodeQuestions_eq_ok_iff
  · intro place v
    exact decodeQuestion_bare v place

end ExamVariants.Specification
