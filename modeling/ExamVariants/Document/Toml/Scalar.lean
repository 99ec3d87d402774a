import ExamVariants.Decimal.Digits
import ExamVariants.Document.Toml.Problem
import ExamVariants.Document.Value
import ExamVariants.Text.Lines

namespace ExamVariants.Document.Toml

def isBlank (c : Char) : Bool := c == ' ' || c == '\t'

/-- The characters that no comment and no string may hold as they are. -/
def isControl (c : Char) : Bool := (c < ' ' && c != '\t') || c == '\x7f'

def skipBlanks (cs : List Char) : List Char := cs.dropWhile isBlank

/-- What follows a line break that stands in front. -/
def afterBreak? : List Char → Option (List Char)
  | '\n' :: rest => some rest
  | '\r' :: '\n' :: rest => some rest
  | _ => none

/-- Removes as many characters from the front as another text has, if it stands there. -/
def after? (front : String) (cs : List Char) : Option (List Char) :=
  if front.toList.isPrefixOf cs then some (cs.drop front.length) else none

def escapeChar? : Char → Option Char
  | 'b' => some '\x08'
  | 't' => some '\t'
  | 'n' => some '\n'
  | 'f' => some '\x0c'
  | 'r' => some '\r'
  | 'e' => some '\x1b'
  | '"' => some '"'
  | '\\' => some '\\'
  | _ => none

/-- How many hexadecimal digits follow the letter of an escape. -/
def escapeLength? : Char → Option Nat
  | 'x' => some 2
  | 'u' => some 4
  | 'U' => some 8
  | _ => none

def codeChar? (ds : List Char) : Option Char := do
  let n ← ds.foldlM (fun n d => (Decimal.hexValue? d).map (n * 16 + ·)) 0
  if n > 0x10ffff || (0xd800 ≤ n && n ≤ 0xdfff) then none else some (Char.ofNat n)

/-- The character of an escape whose mark is already passed. -/
def escape : List Char → Except Problem (Char × List Char)
  | [] => .error .badEscape
  | c :: cs =>
    match escapeChar? c, escapeLength? c with
    | some ch, _ => .ok (ch, cs)
    | none, some n =>
      match if (cs.take n).length = n then codeChar? (cs.take n) else none with
      | some ch => .ok (ch, cs.drop n)
      | none => .error .badEscape
    | none, none => .error .badEscape

/-- A string of one line from behind its opening quote. -/
def lineString (basic : Bool) : Nat → List Char → Except Problem (List Char × List Char)
  | 0, _ | _, [] => .error .unclosedString
  | fuel + 1, c :: cs => do
    if c == (if basic then '"' else '\'') then return ([], cs)
    else if isControl c then throw .controlCharacter
    else
      let (c, cs) ← if basic && c == '\\' then escape cs else pure (c, cs)
      let (text, cs) ← lineString basic fuel cs
      return (c :: text, cs)

/-- Blanks and breaks behind an escaped end of a line. -/
def skipMargin : Nat → List Char → List Char
  | 0, cs => cs
  | fuel + 1, cs =>
    let cs := skipBlanks cs
    match afterBreak? cs with
    | some rest => skipMargin fuel rest
    | none => cs

/-- A string of several lines from behind its opening quotes; up to two more quotes may stand in
front of the closing ones. -/
def blockString (basic : Bool) : Nat → List Char → Except Problem (List Char × List Char)
  | 0, _ | _, [] => .error .unclosedString
  | fuel + 1, c :: cs => do
    let quote := if basic then '"' else '\''
    let quotes := ((c :: cs).takeWhile (· == quote)).length
    if 3 ≤ quotes then
      let inner := min (quotes - 3) 2
      return (List.replicate inner quote, (c :: cs).drop (inner + 3))
    else
      match afterBreak? (c :: cs) with
      | some rest =>
        let (text, rest) ← blockString basic fuel rest
        return ('\n' :: text, rest)
      | none =>
        if isControl c then throw .controlCharacter
        else if basic && c == '\\' then
          if (afterBreak? (skipBlanks cs)).isSome then
            blockString basic fuel (skipMargin (cs.length + 1) cs)
          else
            let (c, cs) ← escape cs
            let (text, cs) ← blockString basic fuel cs
            return (c :: text, cs)
        else
          let (text, cs) ← blockString basic fuel cs
          return (c :: text, cs)

def lineString? (cs : List Char) : Option (Except Problem (List Char × List Char)) :=
  match cs with
  | '"' :: rest => some (lineString true (cs.length + 1) rest)
  | '\'' :: rest => some (lineString false (cs.length + 1) rest)
  | _ => none

/-- A string of either sort, if one starts here. A break right behind the opening quotes of a string
of several lines does not belong to it. -/
def string? (cs : List Char) : Option (Except Problem (List Char × List Char)) :=
  match after? "\"\"\"" cs, after? "'''" cs with
  | some rest, _ => some (blockString true (cs.length + 1) ((afterBreak? rest).getD rest))
  | none, some rest => some (blockString false (cs.length + 1) ((afterBreak? rest).getD rest))
  | none, none => lineString? cs

/-- Digits with single underscores between them, without these. -/
def grouped? (isDigit : Char → Bool) (cs : List Char) : Option (List Char) :=
  let groups := Text.splitChars '_' cs
  if groups.all fun g => !g.isEmpty && g.all isDigit then some groups.flatten else none

def natOfBase? (base : Nat) (cs : List Char) : Option Nat := do
  let ds ← grouped? (fun c => (Decimal.hexValue? c).any (· < base)) cs
  return ds.foldl (fun n d => n * base + (Decimal.hexValue? d).getD 0) 0

/-- Decimal digits without a leading zero. -/
def wholeDigits? (cs : List Char) : Option (List Char) := do
  let ds ← grouped? Char.isDigit cs
  match ds with
  | '0' :: _ :: _ => none
  | ds => some ds

def cutSign : List Char → Bool × List Char
  | '-' :: cs => (true, cs)
  | '+' :: cs => (false, cs)
  | cs => (false, cs)

/-- The places behind a point; none without a point. -/
def places? : List Char → Option (List Char)
  | [] => some []
  | '.' :: ds => grouped? Char.isDigit ds
  | _ => none

/-- The power of ten behind its letter; zero without the letter. -/
def power? : List Char → Option Int
  | [] => some 0
  | _ :: cs => do
    let (negative, ds) := cutSign cs
    let n : Int := Decimal.natOfDigits (← grouped? Char.isDigit ds)
    return if negative then -n else n

def real? (cs : List Char) : Option Float := do
  let isMark := fun c => c == 'e' || c == 'E'
  let power ← power? (cs.dropWhile fun c => !isMark c)
  let digits := cs.takeWhile fun c => !isMark c
  let whole ← wholeDigits? (digits.takeWhile (· != '.'))
  let places ← places? (digits.dropWhile (· != '.'))
  return Decimal.nearest (Decimal.natOfDigits (whole ++ places)) (power - places.length)

def integerValue (i : Int) : Except Problem Value :=
  if Number.minInteger ≤ i && i ≤ Number.maxInteger then .ok (.number (.integer i))
  else .error .numberRange

/-- A number. The words for the infinite and for what is no number stand for nothing. -/
def number (cs : List Char) : Except Problem Value :=
  let based (base : Nat) (ds : List Char) :=
    match natOfBase? base ds with
    | some n => integerValue n
    | none => .error .badNumber
  match cs with
  | '0' :: 'x' :: ds => based 16 ds
  | '0' :: 'o' :: ds => based 8 ds
  | '0' :: 'b' :: ds => based 2 ds
  | cs =>
    let (negative, digits) := cutSign cs
    if digits = "inf".toList || digits = "nan".toList then .ok .null
    else
      match wholeDigits? digits, real? digits with
      | some ds, _ =>
        let n : Int := Decimal.natOfDigits ds
        integerValue (if negative then -n else n)
      | none, some x =>
        if x.isFinite then .ok (.number (.real (if negative then -x else x)))
        else .error .numberRange
      | none, none => .error .badNumber

/-- The key under which a date or a time is kept. -/
def dateKey : String := "$__toml_private_datetime"

def isLeap (year : Nat) : Bool := year % 4 == 0 && (year % 100 != 0 || year % 400 == 0)

def monthLength (year month : Nat) : Nat :=
  if month = 2 then if isLeap year then 29 else 28
  else if [4, 6, 9, 11].contains month then 30
  else 31

/-- A number of just so many digits, with the characters left. -/
def fixedNat? (count : Nat) (cs : List Char) : Option (Nat × List Char) :=
  let ds := cs.take count
  if ds.length = count && ds.all Char.isDigit then some (Decimal.natOfDigits ds, cs.drop count)
  else none

def date? (cs : List Char) : Option (List Char × List Char) := do
  let (year, rest) ← fixedNat? 4 cs
  let (month, rest) ← fixedNat? 2 (← after? "-" rest)
  let (day, rest) ← fixedNat? 2 (← after? "-" rest)
  if 1 ≤ month && month ≤ 12 && 1 ≤ day && day ≤ monthLength year month then
    some (cs.take 10, rest)
  else none

/-- The digits of a fraction of a second: nine at most, and no zeros at the end but the first. -/
def fractionText (ds : List Char) : List Char :=
  match ((ds.take 9).reverse.dropWhile (· == '0')).reverse with
  | [] => ['0']
  | kept => kept

def seconds? (cs : List Char) : Option (List Char × List Char) :=
  match after? ":" cs with
  | none => some ([], cs)
  | some digits => do
    let (second, rest) ← fixedNat? 2 digits
    if second > 60 then none
    match after? "." rest with
    | none => some (cs.take 3, rest)
    | some places =>
      let ds := places.takeWhile Char.isDigit
      if ds.isEmpty then none
      else some (cs.take 3 ++ '.' :: fractionText ds, places.dropWhile Char.isDigit)

def time? (cs : List Char) : Option (List Char × List Char) := do
  let (hour, rest) ← fixedNat? 2 cs
  let (minute, rest) ← fixedNat? 2 (← after? ":" rest)
  if hour > 23 || minute > 59 then none
  let (seconds, rest) ← seconds? rest
  return (cs.take 5 ++ seconds, rest)

/-- A distance from universal time; none of no length is negative. -/
def offset? (cs : List Char) : Option (List Char × List Char) :=
  match cs with
  | [] => some ([], [])
  | c :: rest =>
    if c == 'Z' || c == 'z' then some (['Z'], rest)
    else if c == '+' || c == '-' then do
      let (hours, after) ← fixedNat? 2 rest
      let (minutes, after) ← fixedNat? 2 (← after? ":" after)
      if hours > 24 || minutes > 59 || hours * 60 + minutes > 24 * 60 then none
      let sign := if hours + minutes = 0 then '+' else c
      return (sign :: rest.take 5, after)
    else none

def dateTime? (cs : List Char) : Option (List Char) :=
  match date? cs with
  | some (date, []) => some date
  | some (date, mark :: rest) => do
    if !(mark == 'T' || mark == 't' || mark == ' ') then none
    let (time, rest) ← time? rest
    let (offset, rest) ← offset? rest
    if rest.isEmpty then some (date ++ 'T' :: time ++ offset) else none
  | none =>
    match time? cs with
    | some (time, []) => some time
    | _ => none

def dateValue (text : List Char) : Value := .mapping [(dateKey, .text (String.ofList text))]

def looksDated (cs : List Char) : Bool :=
  ((cs.take 4).all Char.isDigit && cs[4]? == some '-') ||
    ((cs.take 2).all Char.isDigit && cs[2]? == some ':')

def isScalarChar (c : Char) : Bool :=
  c.isAlphanum || c == '+' || c == '-' || c == '_' || c == '.' || c == ':'

/-- The longest scalar without quotes ahead; a date takes the time behind a single blank too. -/
def scalarRun (cs : List Char) : List Char :=
  let run := cs.takeWhile isScalarChar
  match cs.drop run.length with
  | ' ' :: rest =>
    if run.length = 10 && looksDated run && rest.head?.any Char.isDigit then
      run ++ ' ' :: rest.takeWhile isScalarChar
    else run
  | _ => run

def bareScalar (cs : List Char) : Except Problem (Value × List Char) := do
  let run := scalarRun cs
  let rest := cs.drop run.length
  if run.isEmpty then throw .missingValue
  else if run = "true".toList then return (.bool true, rest)
  else if run = "false".toList then return (.bool false, rest)
  else if looksDated run then
    match dateTime? run with
    | some text => return (dateValue text, rest)
    | none => throw .badDate
  else return (← number run, rest)

end ExamVariants.Document.Toml
