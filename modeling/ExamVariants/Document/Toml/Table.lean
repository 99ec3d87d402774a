import ExamVariants.Document.Toml.Problem
import ExamVariants.Document.Value

namespace ExamVariants.Document.Toml

inductive Origin where
  /-- Its own header, or the start of the text. -/
  | header
  /-- The header of a table within it. -/
  | path
  /-- A key with dots. -/
  | dots
  deriving DecidableEq, Repr

inductive Item where
  | value (v : Value)
  | table (origin : Origin) (entries : List (String × Item))
  /-- The tables of a list of tables, from the latest; only the last can still be added to. -/
  | tables (earlier : List Value) (last : List (String × Item))
  deriving Inhabited

abbrev Entries := List (String × Item)

namespace Item

mutual

def toValue : Item → Value
  | value v => v
  | table _ es => .ofEntries (entryValues es)
  | tables earlier last => .list (earlier.reverse ++ [.ofEntries (entryValues last)])

def entryValues : Entries → List (String × Value)
  | [] => []
  | (k, i) :: es => (k, toValue i) :: entryValues es

end

end Item

namespace Entries

def put (key : String) (i : Item) : Entries → Entries
  | [] => [(key, i)]
  | (k, j) :: es => if k = key then (key, i) :: es else (k, j) :: put key i es

/-- Changes the table at the end of a path; tables that are missing on the way are opened. A path of
a key with dots leads through no table that has its own header. -/
def within (dotted : Bool) (change : Origin → Entries → Except Problem Entries) :
    List String → Origin → Entries → Except Problem Entries
  | [], origin, es => change origin es
  | k :: ks, _, es => do
    match es.lookup k with
    | none =>
      let origin := if dotted then .dots else .path
      return es ++ [(k, .table origin (← within dotted change ks origin []))]
    | some (.table origin inner) =>
      if dotted && origin = .header then throw (.duplicateKey k)
      return es.put k (.table origin (← within dotted change ks origin inner))
    | some (.tables earlier last) =>
      return es.put k (.tables earlier (← within dotted change ks .header last))
    | some (.value _) => throw (.notExtendable k)

/-- Binds a key, with dots if `path` is not empty. A key with dots belongs to tables of such keys
only. -/
def bind (path : List String) (key : String) (v : Value) (origin : Origin) (es : Entries) :
    Except Problem Entries :=
  within true (fun origin es =>
    if (origin = .dots) = path.isEmpty || (es.lookup key).isSome then .error (.duplicateKey key)
    else .ok (es ++ [(key, .value v)])) path origin es

/-- Opens a table by its header; one that headers of inner tables opened is taken over. -/
def openTable (path : List String) (key : String) (es : Entries) : Except Problem Entries :=
  within false (fun _ es =>
    match es.lookup key with
    | none => .ok (es ++ [(key, .table .header [])])
    | some (.table .path inner) => .ok (es.put key (.table .header inner))
    | some _ => .error (.duplicateKey key)) path .header es

def openNext (path : List String) (key : String) (es : Entries) : Except Problem Entries :=
  within false (fun _ es =>
    match es.lookup key with
    | none => .ok (es ++ [(key, .tables [] [])])
    | some (.tables earlier last) =>
      .ok (es.put key (.tables (.ofEntries (Item.entryValues last) :: earlier) []))
    | some _ => .error (.duplicateKey key)) path .header es

def toValue (es : Entries) : Value := .ofEntries (Item.entryValues es)

end Entries

end ExamVariants.Document.Toml
