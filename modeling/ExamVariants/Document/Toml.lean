import ExamVariants.Document.Toml.Scalar
import ExamVariants.Document.Toml.Table

namespace ExamVariants.Document.Toml

def skipComment (cs : List Char) : Except Problem (List Char) :=
  match cs with
  | '#' :: rest =>
    let line := rest.takeWhile (· != '\n')
    let after := rest.dropWhile (· != '\n')
    let text := if after.isEmpty then line else Text.dropReturn line
    if text.any isControl then .error .controlCharacter
    else .ok (rest.drop text.length)
  | cs => .ok cs

def skipGap : Nat → List Char → Except Problem (List Char)
  | 0, cs => .ok cs
  | fuel + 1, cs => do
    let cs ← skipComment (skipBlanks cs)
    match afterBreak? cs with
    | some rest => skipGap fuel rest
    | none => return cs

def gap (cs : List Char) : Except Problem (List Char) := skipGap (cs.length + 1) cs

/-- Passes what may follow on the line of an entry. -/
def endLine (cs : List Char) : Except Problem (List Char) := do
  let cs ← skipComment (skipBlanks cs)
  match cs, afterBreak? cs with
  | [], _ => return []
  | _, some rest => return rest
  | _, none => throw .trailingText

def isKeyChar (c : Char) : Bool := c.isAlphanum || c == '-' || c == '_'

def simpleKey (cs : List Char) : Except Problem (String × List Char) := do
  match lineString? cs with
  | some read =>
    let (text, rest) ← read
    return (String.ofList text, rest)
  | none =>
    let run := cs.takeWhile isKeyChar
    if run.isEmpty then throw .missingKey
    return (String.ofList run, cs.drop run.length)

/-- A key as the tables that lead to it and its last name; blanks may stand around its parts. -/
def key : Nat → List Char → Except Problem (List String × String × List Char)
  | 0, _ => .error .missingKey
  | fuel + 1, cs => do
    let (name, rest) ← simpleKey (skipBlanks cs)
    match skipBlanks rest with
    | '.' :: rest =>
      let (path, last, rest) ← key fuel rest
      return (name :: path, last, rest)
    | rest => return ([], name, rest)

def maxDepth : Nat := 80

mutual

def value (depth : Nat) : Nat → List Char → Except Problem (Value × List Char)
  | 0, _ => .error .missingValue
  | fuel + 1, cs => do
    match cs, string? cs with
    | _, some read =>
      let (text, rest) ← read
      return (.text (String.ofList text), rest)
    | '[' :: rest, none =>
      if depth = 0 then throw .tooDeep
      let (items, rest) ← items (depth - 1) fuel rest
      return (.list items, rest)
    | '\x7b' :: rest, none =>
      if depth = 0 then throw .tooDeep
      let (entries, rest) ← inlineEntries (depth - 1) fuel [] rest
      return (entries.toValue, rest)
    | cs, none => bareScalar cs

/-- The items of a list up to its bracket; a comma may stand behind the last. -/
def items (depth : Nat) : Nat → List Char → Except Problem (List Value × List Char)
  | 0, _ => .error .unclosedList
  | fuel + 1, cs => do
    match ← gap cs with
    | ']' :: rest => return ([], rest)
    | cs =>
      let (item, rest) ← value depth fuel cs
      match ← gap rest with
      | ',' :: rest =>
        let (more, rest) ← items depth fuel rest
        return (item :: more, rest)
      | ']' :: rest => return ([item], rest)
      | _ => throw .unclosedList

/-- The entries of an inline table up to its brace. -/
def inlineEntries (depth : Nat) :
    Nat → Entries → List Char → Except Problem (Entries × List Char)
  | 0, _, _ => .error .unclosedTable
  | fuel + 1, es, cs => do
    match ← gap cs with
    | '\x7d' :: rest => return (es, rest)
    | cs =>
      let (path, last, rest) ← key (cs.length + 1) cs
      let '=' :: rest := rest | throw .missingEquals
      let (v, rest) ← value depth fuel (skipBlanks rest)
      let es ← es.bind path last v .header
      match ← gap rest with
      | ',' :: rest => inlineEntries depth fuel es rest
      | '\x7d' :: rest => return (es, rest)
      | _ => throw .unclosedTable

end

/-- The tables of a text, with the path of the one that entries now go to. -/
structure Tables where
  root : Entries
  current : List String

def Tables.empty : Tables := ⟨[], []⟩

/-- Takes the header of a table, or of the next of a list of tables, from behind its brackets. -/
def header (t : Tables) (next : Bool) (cs : List Char) :
    Except Problem (Tables × List Char) := do
  let (path, last, rest) ← key (cs.length + 1) cs
  let some rest := after? (if next then "]]" else "]") rest | throw .unclosedHeader
  let root ← if next then t.root.openNext path last else t.root.openTable path last
  return (⟨root, path ++ [last]⟩, rest)

def entry (t : Tables) (cs : List Char) : Except Problem (Tables × List Char) := do
  let (path, last, rest) ← key (cs.length + 1) cs
  let '=' :: rest := rest | throw .missingEquals
  let (v, rest) ← value maxDepth (rest.length + 1) (skipBlanks rest)
  let root ← t.root.within false (Entries.bind path last v) t.current .header
  return (⟨root, t.current⟩, rest)

def lines : Nat → Tables → List Char → Except Problem Tables
  | 0, t, _ => .ok t
  | fuel + 1, t, cs => do
    let cs ← gap cs
    if cs.isEmpty then return t
    let (t, rest) ← match after? "[[" cs, after? "[" cs with
      | some rest, _ => header t true rest
      | none, some rest => header t false rest
      | none, none => entry t cs
    lines fuel t (← endLine rest)

def read (text : String) : Except Problem Value := do
  let cs := match text.toList with
    | '\ufeff' :: cs => cs
    | cs => cs
  return (← lines (cs.length + 1) .empty cs).root.toValue

end ExamVariants.Document.Toml
