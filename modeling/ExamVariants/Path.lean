import ExamVariants.Text.Blank
import ExamVariants.Text.Lines

namespace ExamVariants.Path

def pieces (p : String) : List String := Text.split '/' p

/-- Drops from the end the pieces that name nothing: empty ones, and a dot that is not the first
piece. The pieces stand in reverse order. -/
def dropEmptyEnd : List String → List String
  | [] => []
  | p :: ps => if p = "" || (p = "." && !ps.isEmpty) then dropEmptyEnd ps else p :: ps

/-- The last piece, unless it is a dot or two. -/
def fileName? (p : String) : Option String :=
  match dropEmptyEnd (pieces p).reverse with
  | [] => none
  | name :: _ => if name = "." || name = ".." then none else some name

def isAbsolute (p : String) : Bool := p.toList.head? == some '/'

def parent? (p : String) : Option String :=
  match dropEmptyEnd (pieces p).reverse with
  | [] => none
  | _ :: rest =>
    match dropEmptyEnd rest with
    | [] => some (if isAbsolute p then "/" else "")
    | kept => some ("/".intercalate kept.reverse)

/-- A path within a directory; an absolute path stands for itself. -/
def join (base p : String) : String :=
  if isAbsolute p then p
  else if base.isEmpty || base.toList.getLast? == some '/' then base ++ p
  else base ++ "/" ++ p

/-- Replaces the file name, or adds one to a path that has none. -/
def withFileName (p name : String) : String :=
  match fileName? p with
  | some _ => join ((parent? p).getD "") name
  | none => join p name

/-- A file name cut at its last dot; a dot in front does not count. -/
def cutName (name : String) : String × Option String :=
  match Text.splitChars '.' name.toList |>.reverse with
  | [] | [_] => (name, none)
  | last :: rest =>
    match (['.'].intercalate rest.reverse) with
    | [] => (name, none)
    | stem => (String.ofList stem, some (String.ofList last))

def fileStem? (p : String) : Option String :=
  (fileName? p).map fun name => (cutName name).1

def extension? (p : String) : Option String :=
  (fileName? p).bind fun name => (cutName name).2

/-- The names from the working directory, or from the root, to a place in the file tree. -/
abbrev Location := List String

/-- One step along a path; the names stand in reverse order. -/
def descend (names : Location) (piece : String) : Location :=
  if piece = "" || piece = "." then names
  else if piece = ".." then
    match names with
    | [] => [".."]
    | ".." :: rest => ".." :: ".." :: rest
    | "/" :: rest => "/" :: rest
    | _ :: rest => rest
  else piece :: names

def locatePieces (absolute : Bool) (ps : List String) : Location :=
  (ps.foldl descend (if absolute then ["/"] else [])).reverse

def ofLocation (place : Location) : String :=
  match place with
  | "/" :: names => "/" ++ "/".intercalate names
  | names => "/".intercalate names

/-- Where a path leads to, without links. -/
def locate (p : String) : Location := locatePieces (isAbsolute p) (pieces p)

end ExamVariants.Path
