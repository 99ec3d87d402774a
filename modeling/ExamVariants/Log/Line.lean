import ExamVariants.Document.JsonText
import ExamVariants.Log.Record

namespace ExamVariants.Log

open Document

inductive Format where
  | pretty
  | compact
  | json
  deriving DecidableEq, Repr, Inhabited

namespace Format

def name : Format → String
  | pretty => "pretty"
  | compact => "compact"
  | json => "json"

def all : List Format := [pretty, compact, json]

def ofName? (s : String) : Option Format := all.find? (·.name == s)

end Format

inductive Paint where
  | bold
  | dim
  | italic
  | level (l : Level)
  deriving DecidableEq, Repr

def Paint.code : Paint → Nat
  | bold => 1
  | dim => 2
  | italic => 3
  | level .error => 31
  | level .warn => 33
  | level .info => 32
  | level .debug => 34
  | level .trace => 35

/-- A text between the signs that a terminal takes for paint; as it is without colour. -/
def paint (colour : Bool) (p : Paint) (s : String) : String :=
  if colour then s!"\x1b[{p.code}m" ++ s ++ "\x1b[0m" else s

def levelText (colour : Bool) (l : Level) : String :=
  paint colour (.level l) ("".pushn ' ' (5 - l.name.length) ++ l.name)

/-- The characters that a terminal would take for commands are written as escapes. -/
def shieldChar (c : Char) : List Char :=
  if ['\x07', '\x08', '\x0c', '\x1b', '\x7f'].contains c then
    ['\\', 'x', Json.hexDigit (c.toNat / 16), Json.hexDigit (c.toNat % 16)]
  else if '\u0080' ≤ c && c ≤ '\u009f' then
    '\\' :: 'u' :: '\x7b' :: Nat.toDigits 16 c.toNat ++ ['\x7d']
  else [c]

def shield (s : String) : String := String.ofList (s.toList.flatMap shieldChar)

def fieldText (colour : Bool) (f : Field) : String :=
  paint colour .italic f.name ++ paint colour .dim "=" ++ f.value

def fieldsText (colour : Bool) (fs : List Field) : String :=
  " ".intercalate (fs.map (fieldText colour))

def eventText (colour : Bool) (e : Event) : String :=
  " ".intercalate (shield e.message :: e.fields.map (fieldText colour))

def prettySpan (colour : Bool) (s : Span) : String :=
  let fields :=
    if s.fields.isEmpty then ""
    else paint colour .bold "\x7b" ++ fieldsText colour s.fields ++ paint colour .bold "\x7d"
  paint colour .bold s.name ++ fields ++ paint colour .dim ":"

def compactSpan (colour : Bool) (s : Span) : String := paint colour .bold s.name ++ ":"

def spanTexts (text : Span → String) (spans : List Span) : String :=
  if spans.isEmpty then "" else String.join (spans.map text) ++ " "

def prettyLine (colour : Bool) (spans : List Span) (e : Event) : String :=
  levelText colour e.level ++ " " ++ spanTexts (prettySpan colour) spans ++ eventText colour e

/-- The fields of the spans stand at the end. -/
def compactLine (colour : Bool) (spans : List Span) (e : Event) : String :=
  let fields := spans.filter fun s => !s.fields.isEmpty
  levelText colour e.level ++ " " ++ spanTexts (compactSpan colour) spans ++ eventText colour e ++
    String.join (fields.map fun s => " " ++ paint colour .dim (fieldsText colour s.fields))

def jsonFields (fs : List Field) : List (String × Value) :=
  fs.map fun f => (f.name, .text f.value)

def jsonSpan (s : Span) : Value := .ofEntries (("name", .text s.name) :: jsonFields s.fields)

def jsonLine (level : Level) (target message : String) (fields : List Field) (spans : List Span) :
    String :=
  Json.write (.ofEntries
    [("level", .text level.name), ("target", .text target),
      ("fields", .ofEntries (("message", .text message) :: jsonFields fields)),
      ("spans", .list (spans.map jsonSpan))])

/-- The line of a record; the end of a span is written in JSON only. -/
def line? (format : Format) (colour : Bool) : Record → Option String
  | .event spans e =>
    match format with
    | .pretty => some (prettyLine colour spans e)
    | .compact => some (compactLine colour spans e)
    | .json => some (jsonLine e.level e.target e.message e.fields spans)
  | .spanEnd spans =>
    match format, spans.getLast? with
    | .json, some s => some (jsonLine s.level s.target "close" [] spans)
    | _, _ => none

end ExamVariants.Log
