import ExamVariants.Decimal.Digits
import ExamVariants.Document.Yaml.Cursor
import ExamVariants.Document.Yaml.Problem

namespace ExamVariants.Document.Yaml

/-- Blanks and breaks between two pieces of a scalar: the blanks of an unbroken gap, or its first
break and those that follow. -/
structure Gap where
  blanks : List Char
  firstBreak : List Char
  moreBreaks : List Char
  broken : Bool

namespace Gap

def empty : Gap := ⟨[], [], [], false⟩

/-- A gap that opens behind an escaped break. -/
def escaped : Gap := ⟨[], [], [], true⟩

/-- What a gap folds to: one break is a blank, and of more the first is dropped. -/
def folded (g : Gap) : List Char :=
  if g.broken then
    if g.firstBreak.head? == some '\n' then
      if g.moreBreaks.isEmpty then [' '] else g.moreBreaks
    else g.firstBreak ++ g.moreBreaks
  else g.blanks

/-- Passes blanks and breaks. Where the indentation counts, no tab may stand in it. -/
def scan (indent : Option Int) : Nat → Gap → Cursor → Except Problem (Gap × Cursor)
  | 0, g, c => .ok (g, c)
  | fuel + 1, g, c =>
    match c.rest with
    | [] => .ok (g, c)
    | ch :: _ =>
      if isBlank ch then
        if g.broken && ch == '\t' && indent.any ((c.column : Int) < ·) then .error .tabIndentation
        else if g.broken then scan indent fuel g (c.advance 1)
        else scan indent fuel { g with blanks := g.blanks ++ [ch] } (c.advance 1)
      else if isBreak ch then
        if g.broken then
          scan indent fuel { g with moreBreaks := g.moreBreaks ++ breakText c.rest } c.nextLine
        else scan indent fuel ⟨[], breakText c.rest, [], true⟩ c.nextLine
      else .ok (g, c)

end Gap

def isFlowMark (c : Char) : Bool :=
  c == ',' || c == '[' || c == ']' || c == '\x7b' || c == '\x7d'

/-- The characters up to a gap or to a mark that ends a plain scalar. -/
def plainRun (flow : Bool) : List Char → Except Problem (List Char)
  | [] => .ok []
  | c :: cs =>
    if isBlank c || isBreak c then .ok []
    else if flow && c == ':' && cs.head?.any (fun d => d == '?' || isFlowMark d) then
      .error .flowColon
    else if (c == ':' && atGap cs) || (flow && isFlowMark c) then .ok []
    else (c :: ·) <$> plainRun flow cs

/-- The pieces of a plain scalar from the next on; `gap` stands before it. The flag of the answer
tells whether the scalar ends in a broken gap. -/
def plainPieces (flow : Bool) (indent : Int) :
    Nat → Gap → Cursor → Except Problem (List Char × Bool × Cursor)
  | 0, gap, c => .ok ([], gap.broken, c)
  | fuel + 1, gap, c => do
    if c.atDocumentMark || c.next? == some '#' then return ([], gap.broken, c)
    let run ← plainRun flow c.rest
    if run.isEmpty then return ([], gap.broken, c)
    let piece := gap.folded ++ run
    let c := c.advance run.length
    if c.rest.isEmpty || !atGap c.rest then return (piece, false, c)
    let (gap, c) ← Gap.scan (some indent) (c.rest.length + 1) Gap.empty c
    if !flow && c.column < indent then return (piece, gap.broken, c)
    let (more, broken, c) ← plainPieces flow indent fuel gap c
    return (piece ++ more, broken, c)

/-- A plain scalar; in a collection of indentation `indent` its lines stand deeper. -/
def plainScalar (flow : Bool) (indent : Int) (c : Cursor) :
    Except Problem (List Char × Bool × Cursor) :=
  plainPieces flow (indent + 1) (c.rest.length + 1) Gap.empty c

def escapeChar? : Char → Option Char
  | '0' => some '\x00'
  | 'a' => some '\x07'
  | 'b' => some '\x08'
  | 't' | '\t' => some '\t'
  | 'n' => some '\n'
  | 'v' => some '\x0b'
  | 'f' => some '\x0c'
  | 'r' => some '\r'
  | 'e' => some '\x1b'
  | ' ' => some ' '
  | '"' => some '"'
  | '/' => some '/'
  | '\\' => some '\\'
  | 'N' => some '\u0085'
  | '_' => some '\u00a0'
  | 'L' => some '\u2028'
  | 'P' => some '\u2029'
  | _ => none

def escapeLength? : Char → Option Nat
  | 'x' => some 2
  | 'u' => some 4
  | 'U' => some 8
  | _ => none

def hexChar? (ds : List Char) : Option Char := do
  let n ← ds.foldlM (fun n d => (Decimal.hexValue? d).map (n * 16 + ·)) 0
  if n > 0x10ffff || (0xd800 ≤ n && n ≤ 0xdfff) then none else some (Char.ofNat n)

def quoteMark (double : Bool) : Char := if double then '"' else '\''

inductive QuotedItem where
  /-- A gap, the closing quote or the end of the text. -/
  | stop
  | escapedBreak
  /-- A character, and how many it is written with. -/
  | character (c : Char) (length : Nat)

def quotedItem (double : Bool) : List Char → Except Problem QuotedItem
  | [] => .ok .stop
  | '\\' :: rest =>
    if double then
      match rest with
      | [] => .error .badEscape
      | e :: ds =>
        if isBreak e then .ok .escapedBreak
        else
          match escapeChar? e, escapeLength? e with
          | some c, _ => .ok (.character c 2)
          | none, some n =>
            match if (ds.take n).length = n then hexChar? (ds.take n) else none with
            | some c => .ok (.character c (2 + n))
            | none => .error .badEscape
          | none, none => .error .badEscape
    else .ok (.character '\\' 1)
  | c :: rest =>
    if !double && c == '\'' && rest.head? == some '\'' then .ok (.character '\'' 2)
    else if isBlank c || isBreak c || c == quoteMark double then .ok .stop
    else .ok (.character c 1)

/-- The characters up to a gap or the closing quote; the flag tells whether the run ends at an
escaped break. -/
def quotedRun (double : Bool) : Nat → Cursor → Except Problem (List Char × Bool × Cursor)
  | 0, c => .ok ([], false, c)
  | fuel + 1, c => do
    match ← quotedItem double c.rest with
    | .stop => return ([], false, c)
    | .escapedBreak => return ([], true, (c.advance 1).nextLine)
    | .character ch n =>
      let (run, escaped, c) ← quotedRun double fuel (c.advance n)
      return (ch :: run, escaped, c)

/-- The pieces of a scalar in quotes, up to and with the closing quote. -/
def quotedPieces (double : Bool) : Nat → Cursor → Except Problem (List Char × Cursor)
  | 0, _ => .error .unclosedQuote
  | fuel + 1, c => do
    if c.atDocumentMark then throw .documentMark
    if c.rest.isEmpty then throw .unclosedQuote
    let (run, escaped, c) ← quotedRun double (c.rest.length + 1) c
    if !escaped && c.next? == some (quoteMark double) then return (run, c.advance 1)
    let (gap, c) ← Gap.scan none (c.rest.length + 1) (if escaped then .escaped else .empty) c
    let (more, c) ← quotedPieces double fuel c
    return (run ++ gap.folded ++ more, c)

def quotedScalar (double : Bool) (c : Cursor) : Except Problem (List Char × Cursor) :=
  quotedPieces double (c.rest.length + 1) (c.advance 1)

/-- What becomes of the breaks at the end of a block. -/
inductive Chomp where
  | strip
  | clip
  | keep
  deriving DecidableEq, Repr

def chomp? : Option Char → Option Chomp
  | some '+' => some .keep
  | some '-' => some .strip
  | _ => none

/-- The signs behind the mark of a block: how it ends, and how deep it is indented if that is
given. -/
def blockHeader (c : Cursor) : Except Problem (Chomp × Option Nat × Cursor) := do
  let digit (c : Cursor) : Except Problem (Option Nat × Cursor) :=
    match c.rest with
    | d :: _ =>
      if d == '0' then .error .badBlockHeader
      else if d.isDigit then .ok (some (Decimal.digitValue d), c.advance 1)
      else .ok (none, c)
    | [] => .ok (none, c)
  let (chomp, indent, c) ← match chomp? c.next? with
    | some chomp => do
      let (indent, c) ← digit (c.advance 1)
      pure (chomp, indent, c)
    | none => do
      let (indent, c) ← digit c
      match indent, chomp? c.next? with
      | some _, some chomp => pure (chomp, indent, c.advance 1)
      | _, _ => pure (.clip, indent, c)
  let c := c.skipWhile isBlank
  let c := if c.next? == some '#' then c.skipLine else c
  if !atBreakOrEnd c.rest then throw .badBlockHeader
  return (chomp, indent, c.nextLine)

/-- Passes the indentation and the empty lines before a line of a block. Without a set depth the
deepest indentation met is the answer too. -/
def blockBreaks (depth : Option Nat) :
    Nat → List Char → Nat → Cursor → Except Problem (List Char × Nat × Cursor)
  | 0, breaks, deepest, c => .ok (breaks, deepest, c)
  | fuel + 1, breaks, deepest, c =>
    let spaces := (c.rest.takeWhile (· == ' ')).length
    let wanted := match depth with
      | none => spaces
      | some d => min spaces (d - c.column)
    let c := c.advance wanted
    let deepest := max deepest c.column
    if depth.all (c.column < ·) && c.next? == some '\t' then .error .tabIndentation
    else if c.next?.any isBreak then
      blockBreaks depth fuel (breaks ++ breakText c.rest) deepest c.nextLine
    else .ok (breaks, deepest, c)

/-- The lines of a block from the next on, with the break of the last line and those of the empty
lines behind it. `lineBreak` closes the line before, which opened with a blank if `blankBefore` is
set, and `breaks` are those of the empty lines between. -/
def blockLines (literal : Bool) (depth : Nat) :
    Nat → List Char → List Char → Bool → Cursor →
      Except Problem (List Char × List Char × List Char × Cursor)
  | 0, lineBreak, breaks, _, c => .ok ([], lineBreak, breaks, c)
  | fuel + 1, lineBreak, breaks, blankBefore, c => do
    if c.column ≠ depth || c.rest.isEmpty then return ([], lineBreak, breaks, c)
    let blank := c.next?.any isBlank
    let joined :=
      if !literal && lineBreak.head? == some '\n' && !blankBefore && !blank then
        if breaks.isEmpty then [' '] else []
      else lineBreak
    let line := c.rest.takeWhile fun ch => !isBreak ch
    let c := c.advance line.length
    let nextBreak := breakText c.rest
    let (nextBreaks, _, c) ← blockBreaks (some depth) (c.rest.length + 1) [] 0 c.nextLine
    let (more, lastBreak, lastBreaks, c) ←
      blockLines literal depth fuel nextBreak nextBreaks blank c
    return (joined ++ breaks ++ line ++ more, lastBreak, lastBreaks, c)

/-- A block whose mark is already passed, in a collection of the given indentation. -/
def blockScalar (literal : Bool) (indent : Int) (c : Cursor) :
    Except Problem (List Char × Cursor) := do
  let (chomp, increment, c) ← blockHeader c
  let set := increment.map fun n => (if indent ≥ 0 then indent + n else n).toNat
  let (breaks, deepest, c) ← blockBreaks set (c.rest.length + 1) [] 0 c
  let depth := set.getD (max deepest (max (indent + 1).toNat 1))
  let (text, lineBreak, breaks, c) ←
    blockLines literal depth (c.rest.length + 1) [] breaks false c
  let ending := match chomp with
    | .strip => []
    | .clip => lineBreak
    | .keep => lineBreak ++ breaks
  return (text ++ ending, c)

end ExamVariants.Document.Yaml
