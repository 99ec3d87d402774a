import ExamVariants.Document.Value
import ExamVariants.Exam.Basic
import ExamVariants.Specification.Error

/-!
Specification documents as examinations. Fields are looked at in a fixed order and the first defect
is the one reported: the parameters before the questions, and each node before the next.
-/

namespace ExamVariants.Specification

open Document

abbrev Entries := List (String × Value)

/-- Runs a decoder over a list with the index of each item, up to the first error. -/
def eachIndexed {α β : Type} (f : Nat → α → Except Error β) :
    Nat → List α → Except Error (List β)
  | _, [] => .ok []
  | i, x :: xs => do
    let y ← f i x
    let ys ← eachIndexed f (i + 1) xs
    return y :: ys

/-- The first entry in key order whose key is `key` in any letter case. -/
def anyCase? (key : String) (entries : Entries) : Option Value :=
  (entries.find? fun e => Text.lower e.1 == key).map Prod.snd

/-- A section is a name alone or a mapping with a name; a teaching assistant that is no scalar does
not count. -/
def decodeSection (v : Value) : Except Error Section :=
  match v.scalarText? with
  | some name => .ok ⟨name, none, none⟩
  | none =>
    match v with
    | .mapping entries => do
      let some name := (anyCase? "name" entries).bind Value.scalarText?
        | throw (.invalidParameter .sectionName)
      let assistant := (anyCase? "ta" entries).bind Value.scalarText?
      match anyCase? "students" entries with
      | none => return ⟨name, assistant, none⟩
      | some students =>
        let some count := students.count? | throw (.invalidParameter .studentCount)
        return ⟨name, assistant, some count⟩
    | _ => .error (.invalidParameter .sectionShape)

def decodeSections : Value → Except Error (List Section)
  | .list items => items.mapM decodeSection
  | _ => .error (.invalidParameter .sectionList)

def markup (place : TextPlace) (raw : String) : Except Error Segment :=
  (Markup.parse raw).mapError (Error.markup place)

def decodeInstruction (index : Nat) (v : Value) : Except Error Segment :=
  match v.scalarText? with
  | some raw => markup (.instruction index) raw
  | none => .error (.invalidParameter .instructionText)

/-- Instructions are a list of texts or one text. -/
def decodeInstructions (v : Value) : Except Error (List Segment) :=
  match v with
  | .list items => eachIndexed decodeInstruction 0 items
  | v => eachIndexed decodeInstruction 0 [v]

/-- A text, or a list of texts joined by commas. -/
def decodeText (p : Parameter) (v : Value) : Except Error String :=
  match v.scalarText?, v with
  | some t, _ => .ok t
  | none, .list items =>
    match items.mapM Value.scalarText? with
    | some ts => .ok (", ".intercalate ts)
    | none => .error (.invalidParameter (.scalars p))
  | none, _ => .error (.invalidParameter (.scalars p))

def decodeParameterValue (p : Parameter) (v : Value) : Except Error ParameterValue :=
  match p with
  | .sections => ParameterValue.sections <$> decodeSections v
  | .instructions => ParameterValue.segments <$> decodeInstructions v
  | p => ParameterValue.text <$> decodeText p v

def bindEntry (ps : Parameters) (entry : String × Value) : Except Error Parameters := do
  let some p := Parameter.ofName? entry.1 | throw (.unknownParameter entry.1)
  let v ← decodeParameterValue p entry.2
  return ps.bind p v

def bindMapping (ps : Parameters) : Value → Except Error Parameters
  | .mapping entries => entries.foldlM bindEntry ps
  | _ => .error (.invalidDocument .parameterEntry)

/-- Parameters are a mapping or a list of mappings; a later entry replaces an earlier one of the
same parameter. -/
def decodeParameters : Value → Except Error Parameters
  | .mapping entries => entries.foldlM bindEntry .empty
  | .list items => items.foldlM bindMapping .empty
  | _ => .error (.invalidDocument .parameters)

def required (place : Place) (entries : Entries) (key : String) : Except Error Value :=
  match Value.find? key entries with
  | some v => .ok v
  | none => .error (.missingField place key)

def scalarField (place : Place) (entries : Entries) (key : String) : Except Error String := do
  let v ← required place entries key
  match v.scalarText? with
  | some t => return t
  | none => throw (.invalidField place key .scalar)

def textField (place : Place) (entries : Entries) (key : String) : Except Error Segment := do
  let raw ← scalarField place entries key
  markup (.field place key) raw

def pointsField (place : Place) (entries : Entries) : Except Error Nat := do
  let v ← required place entries "points"
  match v.count? with
  | some n => return n
  | none => throw (.invalidField place "points" .count)

def booleanField (place : Place) (entries : Entries) (key : String) : Except Error Bool := do
  match ← required place entries key with
  | .bool b => return b
  | _ => throw (.invalidField place key .boolean)

def kindField (place : Place) (entries : Entries) : Except Error QuestionKind := do
  match ← required place entries "type" with
  | .text tag =>
    match QuestionKind.ofName? tag with
    | some kind => return kind
    | none => throw (.unknownQuestionType place tag)
  | _ => throw (.invalidField place "type" .string)

def decodeChoice (place : Place) : Value → Except Error Choice
  | .mapping entries => do
    let isCorrect ← booleanField place entries "correct"
    let statement ← textField place entries "statement"
    return ⟨isCorrect, statement⟩
  | _ => .error (.invalidDocument (.node place))

def choicesField (place : Place) (entries : Entries) : Except Error (List Choice) := do
  match ← required place entries "options" with
  | .list items => eachIndexed (fun k v => decodeChoice (.option place k) v) 0 items
  | _ => throw (.invalidField place "options" .options)

/-- The points written for a compound question, or the sum over its children. -/
def compoundPoints (place : Place) (entries : Entries) (children : List Question) :
    Except Error Nat :=
  match Value.find? "points" entries with
  | some _ => pointsField place entries
  | none => .ok (Question.sumPoints children)

mutual

def decodeQuestion (place : Place) : Value → Except Error Question
  | .mapping entries => do
    let kind ← kindField place entries
    let statement ← textField place entries "statement"
    match kind with
    | .openEnded =>
      let modelAnswer ← textField place entries "answer"
      let points ← pointsField place entries
      let answerLength ← scalarField place entries "length"
      return .openEnded statement modelAnswer points answerLength
    | .closedEnded =>
      let points ← pointsField place entries
      let choices ← choicesField place entries
      return .closedEnded statement points choices
    | .trueFalse =>
      let answer ← booleanField place entries "answer"
      let points ← pointsField place entries
      return .trueFalse statement answer points
    | .compound =>
      let children ← decodeChildren place entries
      let points ← compoundPoints place entries children
      return .compound statement points children
  | _ => .error (.invalidDocument (.node place))

def decodeChildren (place : Place) : Entries → Except Error (List Question)
  | [] => .error (.missingField place "children")
  | (key, v) :: rest =>
    if key = "children" then
      match v with
      | .list items => decodeEach (Place.child place) 0 items
      | _ => .error (.invalidField place "children" .questions)
    else decodeChildren place rest

def decodeEach (placeAt : Nat → Place) (index : Nat) :
    List Value → Except Error (List Question)
  | [] => .ok []
  | v :: vs => do
    let q ← decodeQuestion (placeAt index) v
    let qs ← decodeEach placeAt (index + 1) vs
    return q :: qs

end

def decodeQuestions (entries : Entries) : Except Error (List Question) := do
  match ← required .document entries "questions" with
  | .list items => decodeEach Place.question 0 items
  | _ => throw (.invalidField .document "questions" .questions)

def decode : Value → Except Error Exam
  | .mapping entries => do
    let parameters ← match Value.find? "parameters" entries with
      | some v => decodeParameters v
      | none => .ok Parameters.empty
    let questions ← decodeQuestions entries
    return ⟨parameters, questions⟩
  | _ => .error (.invalidDocument .document)

/-- A file holds a list of documents, a mapping with a list of `examinations`, or one document. -/
def splitDocuments : Value → List Value
  | .list items => items
  | .mapping entries =>
    match Value.find? "examinations" entries with
    | some (.list items) => items
    | _ => [.mapping entries]
  | v => [v]

end ExamVariants.Specification
