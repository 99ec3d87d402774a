import ExamVariants.Exam.Basic
import ExamVariants.Notation
import ExamVariants.Path
import ExamVariants.Text.Alphanumeric
import ExamVariants.Text.Quoted

namespace ExamVariants.Output

open Text

def stemChar (c : Char) : Char :=
  if isAlphanumeric c || c = '-' || c = '_' then c else '_'

/-- The file name of a section without its extension: letters, numbers, `-` and `_` are kept and any
other character gives `_`. -/
def sectionStem (name : String) : String :=
  match (stripChars name.toList).map stemChar with
  | [] => "examination"
  | cs => String.ofList cs

/-- The name of the section that a variant is bound to, empty if it is bound to none. -/
def sectionName (e : Exam) : String :=
  (e.section?.map Section.name).getD ""

def stem (e : Exam) : String := sectionStem (sectionName e)

structure StemClash where
  earlier : String
  later : String
  deriving DecidableEq, Repr

def StemClash.message (c : StemClash) : String :=
  "sections " ++ quoted c.earlier ++ " and " ++ quoted c.later ++ " map to the same file name"

/-- The first variant whose stem repeats an earlier one; `seen` holds the stems before with the
names of their sections. -/
def clashAfter? (seen : List (String × String)) : List Exam → Option StemClash
  | [] => none
  | e :: es =>
    match seen.lookup (stem e) with
    | some earlier => some ⟨earlier, sectionName e⟩
    | none => clashAfter? ((stem e, sectionName e) :: seen) es

def checkDistinctStems (variants : List Exam) : Except StemClash Unit :=
  match clashAfter? [] variants with
  | some c => .error c
  | none => .ok ()

/-- The directory of a document: the first takes the base, and a later one appends its index to the
last name. -/
def documentDirectory (base : String) (index : Nat) : String :=
  if index = 0 then base
  else Path.withFileName base ((Path.fileName? base).getD "" ++ toString index)

def defaultDirectory (input : String) : String :=
  Path.withFileName input ((Path.fileStem? input).getD "examgen" ++ "-output")

def halfDirectory (solutions : Bool) : String :=
  if solutions then "solutions" else "examinations"

def filePath (directory : String) (target : Notation) (solutions : Bool) (stem : String) : String :=
  Path.join (Path.join (Path.join directory target.slug) (halfDirectory solutions))
    (stem ++ "." ++ target.extension)

end ExamVariants.Output
