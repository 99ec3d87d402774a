import ExamVariants.Xml

namespace ExamVariants.Xml

/-- Every element that is opened is closed behind what lies in it. -/
inductive Nested : List Event → Prop
  | nil : Nested []
  | text (s : String) {rest : List Event} : Nested rest → Nested (.text s :: rest)
  | element (name : String) (attributes : List (String × String)) {inner rest : List Event} :
    Nested inner → Nested rest →
      Nested (.start name attributes :: (inner ++ .stop name :: rest))

theorem Nested.append {es es' : List Event} (h : Nested es) (h' : Nested es') :
    Nested (es ++ es') := by
  induction h with
  | nil => exact h'
  | text s _ ih => exact ih.text s
  | element name attributes hinner _ _ ih =>
    have helement := hinner.element name attributes ih
    rwa [List.cons_append, List.append_assoc, List.cons_append]

/-- Leaves out the elements of a name with all that lies in them; `depth` counts the elements that
are open from such an element on. -/
def dropElements (name : String) : (depth : Nat) → List Event → List Event
  | _, [] => []
  | 0, .start n attributes :: es =>
    if n = name then dropElements name 1 es else .start n attributes :: dropElements name 0 es
  | 0, .text s :: es => .text s :: dropElements name 0 es
  | 0, .stop n :: es => .stop n :: dropElements name 0 es
  | depth + 1, .start _ _ :: es => dropElements name (depth + 2) es
  | depth + 1, .text _ :: es => dropElements name (depth + 1) es
  | depth + 1, .stop _ :: es => dropElements name depth es

theorem dropElements_inside {name : String} {es : List Event} (h : Nested es) (depth : Nat)
    (rest : List Event) :
    dropElements name (depth + 1) (es ++ rest) = dropElements name (depth + 1) rest := by
  induction h generalizing depth rest with
  | nil => rfl
  | text s _ ih => exact ih depth rest
  | element n attributes _ _ ihinner ih =>
    rw [List.cons_append, List.append_assoc, dropElements, ihinner, List.cons_append, dropElements,
      ih]

theorem dropElements_append {name : String} {es : List Event} (h : Nested es) (rest : List Event) :
    dropElements name 0 (es ++ rest) = dropElements name 0 es ++ dropElements name 0 rest := by
  induction h generalizing rest with
  | nil => rfl
  | text s _ ih => exact congrArg (Event.text s :: ·) (ih rest)
  | element n attributes hinner _ ihinner ih =>
    rw [List.cons_append, List.append_assoc, List.cons_append]
    by_cases hn : n = name
    · -- The element goes with what lies in it, and what stands behind it is left.
      rw [dropElements, if_pos hn, dropElements, if_pos hn, dropElements_inside hinner,
        dropElements_inside hinner]
      exact ih rest
    · -- The element stays, and elements within it may go.
      rw [dropElements, if_neg hn, dropElements, if_neg hn, ihinner, ihinner, dropElements,
        dropElements, ih, List.cons_append, List.append_assoc, List.cons_append]

/-- Gives an attribute a value where an element of the name has it. -/
def setAttribute (name key value : String) : Event → Event
  | .start n attributes =>
    if n = name then .start n (attributes.map fun a => if a.1 = key then (key, value) else a)
    else .start n attributes
  | .text s => .text s
  | .stop n => .stop n

theorem setAttribute_start_nil (name key value n : String) :
    setAttribute name key value (.start n []) = .start n [] := by
  rw [setAttribute]
  split <;> rfl

end ExamVariants.Xml
