import ExamVariants.Document.Yaml.Scalar

namespace ExamVariants.Document.Yaml

/-- A tag as written: the name of its handle, empty for a tag in full, and what follows it. -/
structure TagName where
  handle : List Char
  suffix : List Char
  deriving DecidableEq, Repr, Inhabited

inductive Token where
  | versionDirective (major minor : Nat)
  | tagDirective (handle meaning : List Char)
  | documentStart
  | documentEnd
  | blockSequenceStart
  | blockMappingStart
  | blockEnd
  | flowSequenceStart
  | flowSequenceEnd
  | flowMappingStart
  | flowMappingEnd
  | blockEntry
  | flowEntry
  | key
  | value
  | alias (name : List Char)
  | anchor (name : List Char)
  | tag (name : TagName)
  | scalar (plain : Bool) (text : List Char)
  deriving DecidableEq, Repr, Inhabited

/-- The characters of a tag; brackets and commas only where the tag is delimited. -/
def isTagChar (delimited : Bool) (c : Char) : Bool :=
  isWordChar c || ";/?:@&=+$.%!~*'()".toList.contains c || (delimited && ",[]".toList.contains c)

/-- The bytes of the `%` escapes at the front, with the characters left. -/
def escapedBytes : List Char → Except Problem (List UInt8 × List Char)
  | '%' :: a :: b :: rest => do
    match Decimal.hexValue? a, Decimal.hexValue? b with
    | some a, some b =>
      let (bytes, rest) ← escapedBytes rest
      return (UInt8.ofNat (a * 16 + b) :: bytes, rest)
    | _, _ => throw .badTag
  | '%' :: _ => throw .badTag
  | rest => return ([], rest)

/-- The text of tag characters, in which `%` escapes give bytes of UTF-8. -/
def tagText : Nat → List Char → Except Problem (List Char)
  | 0, _ => .ok []
  | _ + 1, [] => .ok []
  | fuel + 1, c :: cs => do
    if c == '%' then
      let (bytes, rest) ← escapedBytes (c :: cs)
      match String.fromUTF8? ⟨bytes.toArray⟩ with
      | some s => return s.toList ++ (← tagText fuel rest)
      | none => throw .badTag
    else return c :: (← tagText fuel cs)

def tagRun (delimited : Bool) (c : Cursor) : Except Problem (List Char × Cursor) := do
  let run := c.rest.takeWhile (isTagChar delimited)
  return (← tagText (run.length + 1) run, c.advance run.length)

/-- A handle: a mark, then a word, then a second mark if there is one. -/
def tagHandle (c : Cursor) : Except Problem (List Char × Cursor) := do
  if c.next? ≠ some '!' then throw .badTag
  let c := c.advance 1
  let word := c.rest.takeWhile isWordChar
  let c := c.advance word.length
  if c.next? = some '!' then return ('!' :: word ++ ['!'], c.advance 1)
  else return ('!' :: word, c)

def isClosedHandle (handle : List Char) : Bool :=
  1 < handle.length && handle.getLast? == some '!'

/-- A tag in full or behind a handle, without what must follow it. -/
def tagName (c : Cursor) : Except Problem (TagName × Cursor) := do
  match c.rest with
  | '!' :: '<' :: _ =>
    let (text, c) ← tagRun true (c.advance 2)
    if text.isEmpty || c.next? ≠ some '>' then throw .badTag
    return (⟨[], text⟩, c.advance 1)
  | _ =>
    let (handle, c) ← tagHandle c
    let (text, c) ← tagRun false c
    if isClosedHandle handle then
      if text.isEmpty then throw .badTag
      return (⟨handle, text⟩, c)
    else
      match handle.drop 1 ++ text with
      | [] => return (⟨[], ['!']⟩, c)
      | suffix => return (⟨['!'], suffix⟩, c)

def tagToken (flow : Bool) (c : Cursor) : Except Problem (Token × Cursor) := do
  let (name, c) ← tagName c
  if !atGap c.rest && !(flow && c.next? == some ',') then throw .badTag
  return (.tag name, c)

def endsAnchor (cs : List Char) : Bool :=
  atGap cs || cs.head?.any "?:,]\x7d%@\x60".toList.contains

/-- An anchor, or an alias that refers to one. -/
def anchorToken (c : Cursor) : Except Problem (Token × Cursor) := do
  let name := (c.rest.drop 1).takeWhile isWordChar
  let after := c.advance (name.length + 1)
  if name.isEmpty || !endsAnchor after.rest then throw .badAnchor
  return (if c.next? = some '*' then .alias name else .anchor name, after)

def versionDigits : Nat := 9

def versionNumber (c : Cursor) : Except Problem (Nat × Cursor) := do
  let digits := c.rest.takeWhile Char.isDigit
  if digits.isEmpty || versionDigits < digits.length then throw .badDirective
  return (Decimal.natOfDigits digits, c.advance digits.length)

def versionDirective (c : Cursor) : Except Problem (Token × Cursor) := do
  let (major, c) ← versionNumber (c.skipWhile isBlank)
  if c.next? ≠ some '.' then throw .badDirective
  let (minor, c) ← versionNumber (c.advance 1)
  return (.versionDirective major minor, c)

def tagDirective (c : Cursor) : Except Problem (Token × Cursor) := do
  let (handle, c) ← tagHandle (c.skipWhile isBlank)
  if handle ≠ ['!'] && !isClosedHandle handle then throw .badDirective
  if !c.next?.any isBlank then throw .badDirective
  let (meaning, c) ← tagRun true (c.skipWhile isBlank)
  if meaning.isEmpty || !atGap c.rest then throw .badDirective
  return (.tagDirective handle meaning, c)

def directiveToken (c : Cursor) : Except Problem (Token × Cursor) := do
  let name := (c.rest.drop 1).takeWhile isWordChar
  let c := c.advance (name.length + 1)
  if !atGap c.rest then throw .badDirective
  let (token, c) ←
    if name = "YAML".toList then versionDirective c
    else if name = "TAG".toList then tagDirective c
    else throw .badDirective
  let c := c.skipWhile isBlank
  let c := if c.next? == some '#' then c.skipLine else c
  if !atBreakOrEnd c.rest then throw .badDirective
  return (token, c.nextLine)

end ExamVariants.Document.Yaml
