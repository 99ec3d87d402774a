import ExamVariants.Xml
import Mathlib.Data.List.Basic

namespace ExamVariants.Xml

inductive Element where
  | leaf (name : String) (attributes : List (String × String)) (text : String)
  | node (name : String) (attributes : List (String × String)) (children : List Element)
  deriving Repr, Inhabited

namespace Element

@[induction_eliminator]
theorem induction {motive : Element → Prop}
    (leaf : ∀ name attributes text, motive (.leaf name attributes text))
    (node : ∀ name attributes children, (∀ e ∈ children, motive e) →
      motive (.node name attributes children)) : ∀ e, motive e
  | .leaf _ _ _ => leaf _ _ _
  | .node _ _ children => node _ _ children fun e _ => e.induction leaf node

mutual

def events : Element → List Event
  | leaf name attributes text => [.start name attributes, .text text, .stop name]
  | node name attributes children =>
    .start name attributes :: (eventsOf children ++ [.stop name])

def eventsOf : List Element → List Event
  | [] => []
  | e :: es => e.events ++ eventsOf es

end

mutual

def texts : Element → List String
  | leaf _ _ text => [text]
  | node _ _ children => textsOf children

def textsOf : List Element → List String
  | [] => []
  | e :: es => e.texts ++ textsOf es

end

mutual

def mapTexts (f : String → String) : Element → Element
  | leaf name attributes text => leaf name attributes (f text)
  | node name attributes children => node name attributes (mapTextsOf f children)

def mapTextsOf (f : String → String) : List Element → List Element
  | [] => []
  | e :: es => e.mapTexts f :: mapTextsOf f es

end

theorem eventsOf_append (es es' : List Element) :
    eventsOf (es ++ es') = eventsOf es ++ eventsOf es' := by
  induction es with
  | nil => rfl
  | cons e es ih => rw [List.cons_append, eventsOf, ih, eventsOf, List.append_assoc]

theorem textsOf_singleton (e : Element) : textsOf [e] = e.texts := by
  rw [textsOf, textsOf, List.append_nil]

theorem textsOf_append (es es' : List Element) : textsOf (es ++ es') = textsOf es ++ textsOf es' := by
  induction es with
  | nil => rfl
  | cons e es ih => rw [List.cons_append, textsOf, ih, textsOf, List.append_assoc]

theorem mapTextsOf_eq_map (f : String → String) (es : List Element) :
    mapTextsOf f es = es.map (mapTexts f) := by
  induction es with
  | nil => rfl
  | cons e es ih => rw [mapTextsOf, ih, List.map_cons]

theorem textsOf_eq_flatMap (es : List Element) : textsOf es = es.flatMap texts := by
  induction es with
  | nil => rfl
  | cons e es ih => rw [textsOf, ih, List.flatMap_cons]

def startTag (name : String) (attributes : List (String × String)) : List Char :=
  '<' :: (name.toList ++ (attributes.flatMap (fun a => (attributeText a).toList) ++ ['>']))

def stopTag (name : String) : List Char := '<' :: '/' :: (name.toList ++ ['>'])

/-- The line end and the blanks before a tag at a depth. -/
def indent (depth : Nat) : List Char := '\n' :: List.replicate (2 * depth) ' '

mutual

def chars (depth : Nat) : Element → List Char
  | leaf name attributes text =>
    indent depth ++ (startTag name attributes ++ (text.toList.flatMap escapeChar ++ stopTag name))
  | node name attributes children =>
    indent depth ++ (startTag name attributes ++ (charsOf (depth + 1) children ++
      (indent depth ++ stopTag name)))

def charsOf (depth : Nat) : List Element → List Char
  | [] => []
  | e :: es => e.chars depth ++ charsOf depth es

end

theorem toList_lineStart (depth : Nat) : (lineStart true depth).toList = indent depth := by
  simp [lineStart, indent]

theorem writeAll_start (depth : Nat) (name : String) (attributes : List (String × String))
    (es : List Event) :
    (writeAll ⟨depth, true⟩ (.start name attributes :: es)).toList =
      indent depth ++ (startTag name attributes ++ (writeAll ⟨depth + 1, true⟩ es).toList) := by
  simp [writeAll, write, toList_lineStart, startTag, List.flatMap_map]

theorem writeAll_stop (depth : Nat) (name : String) (es : List Event) :
    (writeAll ⟨depth + 1, true⟩ (.stop name :: es)).toList =
      indent depth ++ (stopTag name ++ (writeAll ⟨depth, true⟩ es).toList) := by
  simp [writeAll, write, toList_lineStart, stopTag]

theorem writeAll_text_stop (depth : Nat) (text name : String) (es : List Event) :
    (writeAll ⟨depth + 1, true⟩ (.text text :: .stop name :: es)).toList =
      text.toList.flatMap escapeChar ++ (stopTag name ++ (writeAll ⟨depth, true⟩ es).toList) := by
  simp [writeAll, write, lineStart, escape, stopTag]

/-- The events of an element are written as the element is, and leave the depth as it was. -/
theorem writeAll_events (e : Element) (depth : Nat) (es : List Event) :
    (writeAll ⟨depth, true⟩ (e.events ++ es)).toList =
      e.chars depth ++ (writeAll ⟨depth, true⟩ es).toList := by
  induction e generalizing depth es with
  | leaf name attributes text =>
    rw [events, List.cons_append, writeAll_start, List.cons_append, List.cons_append,
      writeAll_text_stop, chars]
    simp only [List.append_assoc, List.nil_append]
  | node name attributes children ih =>
    have hchildren (rest : List Event) : (writeAll ⟨depth + 1, true⟩ (eventsOf children ++ rest)).toList =
        charsOf (depth + 1) children ++ (writeAll ⟨depth + 1, true⟩ rest).toList := by
      induction children with
      | nil => rfl
      | cons e es ihes =>
        rw [eventsOf, List.append_assoc, ih e List.mem_cons_self,
          ihes fun e' he' => ih e' (List.mem_cons_of_mem e he'), charsOf, List.append_assoc]
    rw [events, List.cons_append, writeAll_start, List.append_assoc, hchildren, List.singleton_append,
      writeAll_stop, chars]
    simp only [List.append_assoc]

theorem toList_document (e : Element) :
    (document e.events).toList = declaration.toList ++ e.chars 0 := by
  have h := e.writeAll_events 0 []
  rw [List.append_nil, writeAll, String.toList_empty, List.append_nil] at h
  rw [document, String.toList_append, h]

end Element

end ExamVariants.Xml
