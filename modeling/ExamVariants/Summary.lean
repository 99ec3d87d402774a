import ExamVariants.Generate.Run
import ExamVariants.TextTable.Basic

namespace ExamVariants.Summary

open Generate

def untitled : String := "Untitled examination"

def absent : String := "-"

def header : List (String × Alignment) :=
  [("Section", .left), ("Questions", .right), ("Points", .right), ("Notation", .left),
    ("Examination", .center), ("Solutions", .center), ("PDF", .right)]

def writtenMark (path : Option String) : String := if path.isSome then "✓" else absent

def countText (n : Nat) : String := if n = 0 then absent else toString n

def outputRow (v : VariantSummary) (o : OutputFiles) : List String :=
  [v.sectionName, toString v.questionCount, toString v.points, o.target.slug,
    writtenMark o.examination, writtenMark o.solutions, countText o.pdfs.length]

def fileCount (o : OutputFiles) : Nat :=
  o.examination.toList.length + o.solutions.toList.length + o.pdfs.length

def totalRow (d : DocumentSummary) : List String :=
  let files := (d.variants.flatMap VariantSummary.outputs).foldr (fun o n => fileCount o + n) 0
  ["TOTAL", s!"{d.variants.length} sections", absent, absent, absent, absent, s!"{files} files"]

def documentTable (d : DocumentSummary) : TextTable where
  divider := '│'
  ruled := true
  header := header
  rows := (d.variants.flatMap fun v => v.outputs.map (outputRow v)) ++ [totalRow d]

def documentLine (d : DocumentSummary) : String :=
  let place := match d.directory with
    | some directory => s!" -> {directory}"
    | none => " (dry run)"
  s!"Document {d.index}: " ++ d.title.getD untitled ++ place

def document (d : DocumentSummary) : String :=
  "\n" ++ documentLine d ++ "\n" ++ (documentTable d).render ++ "\n"

def text (r : Result) : String :=
  s!"Input: {r.input}\nSeed: {r.seed.toInt}\n" ++ String.join (r.documents.map document)

def errorText (r : Result) : String :=
  if r.errors.isEmpty then ""
  else "Errors:\n" ++ String.join (r.errors.map fun e => s!"- {e}\n")

def notationRow (n : Notation) : List String := [n.slug, n.extension, n.description]

def notations : TextTable where
  divider := '┆'
  ruled := false
  header := [("Notation", .left), ("Extension", .left), ("Description", .left)]
  rows := Notation.all.map notationRow

end ExamVariants.Summary
