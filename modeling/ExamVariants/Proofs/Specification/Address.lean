import ExamVariants.Proofs.Decimal.Numerals
import ExamVariants.Proofs.Path.Location
import ExamVariants.Specification.Decode

namespace ExamVariants.Specification

open Decimal Document

def entryAt? (key : String) : Value → Option Value
  | .mapping entries => Value.find? key entries
  | _ => none

def itemAt? (index : Nat) : Value → Option Value
  | .list items => items[index]?
  | _ => none

def closedIndex? (cs : List Char) : Option Nat :=
  match Text.splitChars ']' cs with
  | [digits, []] =>
    if digits ≠ [] ∧ digits.all Char.isDigit then some (Nat.ofDigitChars 10 digits 0) else none
  | _ => none

/-- One part of a path is a key, or a key and the index of an item in brackets. -/
def stepInto? (v : Value) (part : List Char) : Option Value :=
  match Text.splitChars '[' part with
  | [key] => entryAt? (String.ofList key) v
  | [key, index] => do itemAt? (← closedIndex? index) (← entryAt? (String.ofList key) v)
  | _ => none

def resolve? (document : Value) (path : String) : Option Value :=
  if path = "document" then some document
  else (Text.splitChars '.' path.toList).foldlM stepInto? document

variable {document : Value} {path part key : String}

theorem closedIndex?_toDigits (i : Nat) :
    closedIndex? (Nat.toDigits 10 i ++ [']']) = some i := by
  have hclosed : Text.splitChars ']' (Nat.toDigits 10 i ++ [']']) = [Nat.toDigits 10 i, []] := by
    rw [Text.splitChars_append_cons, Text.splitChars_of_notMem (notMem_toDigits rfl i)]
    rfl
  have hdigits : (Nat.toDigits 10 i).all Char.isDigit = true := by
    rw [List.all_eq_true]
    intro d hd
    exact isDigit_of_mem_toDigits hd
  rw [closedIndex?, hclosed]
  simp only
  rw [if_pos ⟨Nat.toDigits_ne_nil, hdigits⟩, Nat.ofDigitChars_toDigits (by decide) (by decide)]

def itemPart (key : String) (index : Nat) : String := s!"{key}[{index}]"

theorem toList_itemPart (key : String) (i : Nat) :
    (itemPart key i).toList = key.toList ++ '[' :: (Nat.toDigits 10 i ++ [']']) := by
  simp [itemPart, String.toList_append, toString]

theorem stepInto?_key (hkey : '[' ∉ key.toList) (v : Value) :
    stepInto? v key.toList = entryAt? key v := by
  rw [stepInto?, Text.splitChars_of_notMem hkey]
  simp only [String.ofList_toList]

theorem stepInto?_itemPart (hkey : '[' ∉ key.toList) (v : Value) (i : Nat) :
    stepInto? v (itemPart key i).toList = (entryAt? key v).bind (itemAt? i) := by
  have hindex : '[' ∉ Nat.toDigits 10 i ++ [']'] := by
    simp [notMem_toDigits (c := '[') rfl i]
  have hparts : Text.splitChars '[' (itemPart key i).toList =
      [key.toList, Nat.toDigits 10 i ++ [']']] := by
    rw [toList_itemPart, Text.splitChars_append_cons, Text.splitChars_of_notMem hkey,
      Text.splitChars_of_notMem hindex]
    rfl
  rw [stepInto?, hparts]
  simp only [closedIndex?_toDigits, String.ofList_toList]
  rfl

theorem ne_document_of_dot (h : '.' ∈ path.toList) : path ≠ "document" := by
  rintro rfl
  revert h
  decide

theorem resolve?_part (hne : part ≠ "document") (hpart : '.' ∉ part.toList) :
    resolve? document part = stepInto? document part.toList := by
  rw [resolve?, if_neg hne, Text.splitChars_of_notMem hpart]
  simp

/-- The last part of a path leads one step on from where the rest of it leads. -/
theorem resolve?_append_part (hne : path ≠ "document") (hpart : '.' ∉ part.toList) :
    resolve? document (path ++ "." ++ part) =
      (resolve? document path).bind fun v => stepInto? v part.toList := by
  have hchars : (path ++ "." ++ part).toList = path.toList ++ '.' :: part.toList := by
    simp [String.toList_append]
  have hlong : path ++ "." ++ part ≠ "document" := by
    apply ne_document_of_dot
    simp [hchars]
  rw [resolve?, resolve?, if_neg hlong, if_neg hne, hchars, Text.splitChars_append_cons,
    Text.splitChars_of_notMem hpart, List.foldlM_append]
  simp

theorem parentPath_append_part (hpart : '.' ∉ part.toList) :
    parentPath (path ++ "." ++ part) = path := by
  have hlast : ∀ c ∈ part.toList.reverse, (c != '.') = true := by
    intro c hc
    exact bne_iff_ne.mpr fun heq => hpart (heq ▸ List.mem_reverse.mp hc)
  have hfront : (path ++ "." ++ part).toList.reverse.dropWhile (· != '.') =
      '.' :: path.toList.reverse := by
    simp only [String.toList_append, List.reverse_append, List.append_assoc]
    rw [List.dropWhile_append_of_pos hlast]
    rfl
  rw [parentPath, hfront]
  simp

namespace Place

theorem text_question (i : Nat) : (question i).text = itemPart "questions" i := by
  simp [text, itemPart, toString]

theorem text_child (p : Place) (i : Nat) :
    (child p i).text = p.text ++ "." ++ itemPart "children" i := by
  simp [text, itemPart, toString, ← String.toList_inj, String.toList_append]

theorem text_option (p : Place) (i : Nat) :
    (option p i).text = p.text ++ "." ++ itemPart "options" i := by
  simp [text, itemPart, toString, ← String.toList_inj, String.toList_append]

theorem listText_of_ne_document {p : Place} (hp : p ≠ .document) :
    p.listText = p.text ++ "." ++ "children" := by
  cases p with
  | document => exact absurd rfl hp
  | question | child | option =>
    simp [listText, ← String.toList_inj, String.toList_append]

/-- The path of a list of questions gives back the place that holds the list. -/
theorem parentPath_listText (p : Place) : parentPath p.listText = p.text := by
  by_cases hp : p = .document
  · rw [hp]
    rfl
  · rw [listText_of_ne_document hp, parentPath_append_part (by decide)]

theorem listKey_listText {p : Place} (hp : p ≠ .document) : listKey p.listText = "children" := by
  rw [listKey, if_pos]
  rw [listText_of_ne_document hp, String.toList_append]
  exact List.isSuffixOf_iff_suffix.mpr (List.suffix_append _ _)

end Place

theorem dot_notMem_itemPart (hkey : '.' ∉ key.toList) (i : Nat) :
    '.' ∉ (itemPart key i).toList := by
  simp [toList_itemPart, hkey, notMem_toDigits (c := '.') rfl i]

theorem itemPart_ne_document (key : String) (i : Nat) : itemPart key i ≠ "document" := by
  intro h
  have hbracket : '[' ∈ (itemPart key i).toList := by simp [toList_itemPart]
  rw [h] at hbracket
  revert hbracket
  decide

theorem Place.text_ne_document {p : Place} (hp : p ≠ .document) : p.text ≠ "document" := by
  cases p with
  | document => exact absurd rfl hp
  | question i =>
    rw [text_question]
    exact itemPart_ne_document "questions" i
  | child p i =>
    apply ne_document_of_dot
    simp [text_child, String.toList_append]
  | option p i =>
    apply ne_document_of_dot
    simp [text_option, String.toList_append]

theorem resolve?_document : resolve? document Place.document.text = some document := rfl

theorem resolve?_question (i : Nat) : resolve? document (Place.question i).text =
    (entryAt? "questions" document).bind (itemAt? i) := by
  rw [Place.text_question, resolve?_part (itemPart_ne_document _ i)
    (dot_notMem_itemPart (by decide) i), stepInto?_itemPart (by decide)]

section Below

variable {p : Place} (hp : p ≠ .document)

include hp

theorem resolve?_item (hdot : '.' ∉ key.toList) (hbracket : '[' ∉ key.toList) (i : Nat) :
    resolve? document (p.text ++ "." ++ itemPart key i) =
      (resolve? document p.text).bind fun v => (entryAt? key v).bind (itemAt? i) := by
  rw [resolve?_append_part (Place.text_ne_document hp) (dot_notMem_itemPart hdot i)]
  simp only [stepInto?_itemPart hbracket]

theorem resolve?_child (i : Nat) : resolve? document (Place.child p i).text =
    (resolve? document p.text).bind fun v => (entryAt? "children" v).bind (itemAt? i) := by
  rw [Place.text_child]
  exact resolve?_item hp (by decide) (by decide) i

theorem resolve?_option (i : Nat) : resolve? document (Place.option p i).text =
    (resolve? document p.text).bind fun v => (entryAt? "options" v).bind (itemAt? i) := by
  rw [Place.text_option]
  exact resolve?_item hp (by decide) (by decide) i

theorem resolve?_field (hdot : '.' ∉ key.toList) (hbracket : '[' ∉ key.toList) :
    resolve? document (TextPlace.field p key).text =
      (resolve? document p.text).bind (entryAt? key) := by
  rw [TextPlace.text, resolve?_append_part (Place.text_ne_document hp) hdot]
  simp only [stepInto?_key hbracket]

end Below

end ExamVariants.Specification
