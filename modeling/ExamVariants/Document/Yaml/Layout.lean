import ExamVariants.Document.Yaml.Token

namespace ExamVariants.Document.Yaml

/-- A place where the key of a mapping may have begun. -/
structure Candidate where
  /-- How many tokens stand before the place. -/
  tokenCount : Nat
  /-- Whether it must turn out to be a key. -/
  required : Bool
  line : Nat
  index : Nat
  column : Nat
  deriving DecidableEq, Repr

structure Layout where
  cursor : Cursor
  tokens : Array Token
  /-- The indentation of the block collections from the innermost; none at the outermost level. -/
  indents : List Nat
  /-- The candidate of the innermost level. -/
  candidate : Option Candidate
  /-- Those of the levels of brackets around it. -/
  outer : List (Option Candidate)
  /-- Whether a key may begin here. -/
  keyAllowed : Bool
  deriving Inhabited

namespace Layout

def ofText (text : String) : Layout :=
  let c := Cursor.ofText text
  ⟨if c.next? = some '\ufeff' then c.advance 1 else c, #[], [], none, [], true⟩

def flow (l : Layout) : Bool := !l.outer.isEmpty

/-- The indentation of the innermost block collection, -1 outside of all. -/
def indent (l : Layout) : Int :=
  match l.indents with
  | [] => -1
  | n :: _ => n

def push (l : Layout) (t : Token) : Layout := { l with tokens := l.tokens.push t }

/-- Closes the block collections that are deeper than a column. -/
def closeDeeper (column : Int) : List Nat → Array Token → List Nat × Array Token
  | [], tokens => ([], tokens)
  | n :: ns, tokens =>
    if column < n then closeDeeper column ns (tokens.push .blockEnd) else (n :: ns, tokens)

def unindent (l : Layout) (column : Int) : Layout :=
  if l.flow then l
  else
    let (indents, tokens) := closeDeeper column l.indents l.tokens
    { l with indents, tokens }

/-- Opens a block collection at a deeper column; its start is put in behind `count` tokens. -/
def openBlock (l : Layout) (column count : Nat) (start : Token) : Layout :=
  if !l.flow && l.indent < column then
    { l with
      indents := column :: l.indents
      tokens := l.tokens.insertIdxIfInBounds count start }
  else l

/-- The longest text before the colon of a key. -/
def keyReach : Nat := 1024

/-- Gives up a candidate that lies on an earlier line or too far back. -/
def expire (c : Cursor) (k : Option Candidate) : Except Problem (Option Candidate) :=
  match k with
  | some k =>
    if k.line < c.line || k.index + keyReach < c.index then
      if k.required then .error .missingColon else .ok none
    else .ok (some k)
  | none => .ok none

def expireAll (l : Layout) : Except Problem Layout := do
  return { l with
    candidate := ← expire l.cursor l.candidate
    outer := ← l.outer.mapM (expire l.cursor) }

/-- Gives up the candidate of the innermost level. -/
def dropCandidate (l : Layout) : Except Problem Layout :=
  if l.candidate.any Candidate.required then .error .missingColon
  else .ok { l with candidate := none }

/-- Notes that a key may begin here; at the indentation of the block it must be one. -/
def noteCandidate (l : Layout) : Except Problem Layout := do
  if !l.keyAllowed then return l
  let l ← l.dropCandidate
  let c := l.cursor
  let required := !l.flow && l.indent == c.column
  return { l with candidate := some ⟨l.tokens.size, required, c.line, c.index, c.column⟩ }

/-- Passes blanks, comments and breaks; a new line lets a key begin. -/
def skipGap : Nat → Layout → Layout
  | 0, l => l
  | fuel + 1, l =>
    let tabs := l.flow || !l.keyAllowed
    let c := l.cursor.skipWhile fun ch => ch == ' ' || (tabs && ch == '\t')
    let c := if c.next? == some '#' then c.skipLine else c
    if c.next?.any isBreak then
      skipGap fuel { l with cursor := c.nextLine, keyAllowed := l.keyAllowed || !l.flow }
    else { l with cursor := c }

/-- Takes a token of its own line level: a directive or a mark of a document. -/
def atTopLevel (l : Layout) : Except Problem Layout := do
  let l ← (l.unindent (-1)).dropCandidate
  return { l with keyAllowed := false }

def directive (l : Layout) : Except Problem Layout := do
  let l ← l.atTopLevel
  let (token, cursor) ← directiveToken l.cursor
  return { l with cursor }.push token

def documentMark (l : Layout) (mark : Token) : Except Problem Layout := do
  let l ← l.atTopLevel
  return { l with cursor := l.cursor.advance 3 }.push mark

def mark (l : Layout) (t : Token) : Layout := { l with cursor := l.cursor.advance 1 }.push t

def openFlow (l : Layout) (t : Token) : Except Problem Layout := do
  let l ← l.noteCandidate
  return { l with candidate := none, outer := l.candidate :: l.outer, keyAllowed := true }.mark t

def closeFlow (l : Layout) (t : Token) : Except Problem Layout := do
  let l ← l.dropCandidate
  let l := match l.outer with
    | [] => l
    | candidate :: outer => { l with candidate, outer }
  return { l with keyAllowed := false }.mark t

def flowEntry (l : Layout) : Except Problem Layout := do
  let l ← l.dropCandidate
  return { l with keyAllowed := true }.mark .flowEntry

def blockEntry (l : Layout) : Except Problem Layout := do
  if !l.flow && !l.keyAllowed then throw .entryContext
  let l := l.openBlock l.cursor.column l.tokens.size .blockSequenceStart
  let l ← l.dropCandidate
  return { l with keyAllowed := true }.mark .blockEntry

/-- A question mark, behind which a key of any shape stands. -/
def explicitKey (l : Layout) : Except Problem Layout := do
  if !l.flow && !l.keyAllowed then throw .keyContext
  let l := l.openBlock l.cursor.column l.tokens.size .blockMappingStart
  let l ← l.dropCandidate
  return { l with keyAllowed := !l.flow }.mark .key

/-- A colon: the candidate before it, if there is one, becomes a key. -/
def value (l : Layout) : Except Problem Layout := do
  match l.candidate with
  | some k =>
    let l := { l with tokens := l.tokens.insertIdxIfInBounds k.tokenCount .key, candidate := none }
    let l := l.openBlock k.column k.tokenCount .blockMappingStart
    return { l with keyAllowed := false }.mark .value
  | none =>
    if !l.flow && !l.keyAllowed then throw .valueContext
    let l := l.openBlock l.cursor.column l.tokens.size .blockMappingStart
    return { l with keyAllowed := !l.flow }.mark .value

def node (l : Layout) (take : Cursor → Except Problem (Token × Cursor)) :
    Except Problem Layout := do
  let l ← l.noteCandidate
  let (token, cursor) ← take l.cursor
  return { l with cursor, keyAllowed := false }.push token

def quoted (l : Layout) (double : Bool) : Except Problem Layout :=
  l.node fun c => do
    let (text, c) ← quotedScalar double c
    return (.scalar false text, c)

def plain (l : Layout) : Except Problem Layout := do
  let l ← l.noteCandidate
  let (text, broken, cursor) ← plainScalar l.flow l.indent l.cursor
  return { l with cursor, keyAllowed := broken }.push (.scalar true text)

def block (l : Layout) (literal : Bool) : Except Problem Layout := do
  let l ← l.dropCandidate
  let (text, cursor) ← blockScalar literal l.indent (l.cursor.advance 1)
  return { l with cursor, keyAllowed := true }.push (.scalar false text)

def startsPlain (flow : Bool) (c : Char) (rest : List Char) : Bool :=
  !(isBlank c || isBreak c || "-?:,[]\x7b\x7d#&*!|>'\"%@\x60".toList.contains c) ||
    (c == '-' && !rest.head?.any isBlank) ||
    (!flow && (c == '?' || c == ':') && !atGap rest)

/-- Takes the token that starts with the character `c`. -/
def next (l : Layout) (c : Char) (rest : List Char) : Except Problem Layout :=
  let gap := atGap rest
  if l.cursor.column = 0 && c = '%' then l.directive
  else if l.cursor.atMark '-' then l.documentMark .documentStart
  else if l.cursor.atMark '.' then l.documentMark .documentEnd
  else if c = '[' then l.openFlow .flowSequenceStart
  else if c = '\x7b' then l.openFlow .flowMappingStart
  else if c = ']' then l.closeFlow .flowSequenceEnd
  else if c = '\x7d' then l.closeFlow .flowMappingEnd
  else if c = ',' then l.flowEntry
  else if c = '-' && gap then l.blockEntry
  else if c = '?' && (l.flow || gap) then l.explicitKey
  else if c = ':' && (l.flow || gap) then l.value
  else if c = '*' || c = '&' then l.node anchorToken
  else if c = '!' then l.node (tagToken l.flow)
  else if (c = '|' || c = '>') && !l.flow then l.block (c = '|')
  else if c = '\'' || c = '"' then l.quoted (c = '"')
  else if startsPlain l.flow c rest then l.plain
  else .error .badStart

def run : Nat → Layout → Except Problem (Array Token)
  | 0, l => .ok l.tokens
  | fuel + 1, l => do
    let l ← (skipGap (l.cursor.rest.length + 1) l).expireAll
    let l := l.unindent l.cursor.column
    match l.cursor.rest with
    | [] => return (← (l.unindent (-1)).dropCandidate).tokens
    | c :: rest => run fuel (← l.next c rest)

end Layout

def tokens (text : String) : Except Problem (List Token) :=
  if text.toList.all isAllowed then
    return (← Layout.run (text.length + 1) (Layout.ofText text)).toList
  else throw .controlCharacter

end ExamVariants.Document.Yaml
