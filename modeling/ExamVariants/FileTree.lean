import ExamVariants.Path

namespace ExamVariants

/-- What a file holds: a text, or bytes that are no text. -/
inductive Content where
  | text (text : String)
  | binary (bytes : ByteArray)
  deriving Inhabited

/-- Bytes that are UTF-8 are a text. -/
def Content.ofBytes (bytes : ByteArray) : Content :=
  match String.fromUTF8? bytes with
  | some s => text s
  | none => binary bytes

def Content.size : Content → Nat
  | text s => s.utf8ByteSize
  | binary bytes => bytes.size

def Content.toBytes : Content → List UInt8
  | text s => s.toUTF8.toList
  | binary bytes => bytes.toList

structure FileTree where
  files : List (Path.Location × Content)
  directories : List Path.Location
  deriving Inhabited

namespace FileTree

open ExamVariants.Path

def empty : FileTree := ⟨[], []⟩

def find? (t : FileTree) (place : Location) : Option Content := t.files.lookup place

def isDirectory (t : FileTree) (place : Location) : Bool :=
  place.isEmpty || t.directories.contains place

/-- Whether a path leads to a file: every piece before the last must lead to a directory. -/
def isFile (t : FileTree) (path : String) : Bool :=
  let ps := pieces path
  let abs := isAbsolute path
  (t.find? (locate path)).isSome &&
    (List.range (ps.length - 1)).all (fun n =>
      t.isDirectory (locatePieces abs (ps.take (n + 1)))) &&
    ps.getLast?.any fun p => p ≠ "" && p ≠ "." && p ≠ ".."

/-- What the file at a path holds, if the path leads to one. -/
def read? (t : FileTree) (path : String) : Option Content :=
  if t.isFile path then t.find? (locate path) else none

def putIn (place : Location) (c : Content) :
    List (Location × Content) → List (Location × Content)
  | [] => [(place, c)]
  | (p, d) :: rest => if p = place then (place, c) :: rest else (p, d) :: putIn place c rest

/-- The places on the way to a place, and itself. -/
def ancestors (place : Location) : List Location :=
  (List.range place.length).map fun n => place.take (n + 1)

def createDirectories (t : FileTree) (path : String) : FileTree :=
  let new := (ancestors (locate path)).filter fun place => !t.directories.contains place
  { t with directories := t.directories ++ new }

/-- Writes a file, with the directories that lead to it. -/
def write (t : FileTree) (path : String) (c : Content) : FileTree :=
  let t := t.createDirectories ((parent? path).getD "")
  { t with files := putIn (locate path) c t.files }

def adopt (t : FileTree) (path : String) (c : Content) : FileTree :=
  let ps := pieces path
  let fronts := (List.range (ps.length - 1)).map fun n => "/".intercalate (ps.take (n + 1))
  (fronts.foldl createDirectories t).write path c

/-- The files that another tree does not hold, or holds with other contents. -/
def changesFrom (t old : FileTree) : List (Location × Content) :=
  t.files.filter fun f => (old.find? f.1).map Content.toBytes ≠ some f.2.toBytes

def remove (t : FileTree) (place : Location) : FileTree :=
  { t with files := t.files.filter fun f => f.1 ≠ place }

def namesIn (t : FileTree) (directory : Location) : List String :=
  t.files.filterMap fun f => if f.1.dropLast = directory then f.1.getLast? else none

theorem lookup_putIn (place q : Location) (c : Content) (fs : List (Location × Content)) :
    (putIn place c fs).lookup q = if q = place then some c else fs.lookup q := by
  induction fs with
  | nil => grind [putIn]
  | cons f fs ih => grind [putIn]

/-- A written file holds what was written, and no other file changes. -/
theorem find?_write (t : FileTree) (path : String) (c : Content) (place : Location) :
    (t.write path c).find? place = if place = locate path then some c else t.find? place := by
  simp [write, find?, createDirectories, lookup_putIn]

end FileTree

end ExamVariants
