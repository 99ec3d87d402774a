import ExamVariants.Decimal.Digits
import ExamVariants.Document.Value

namespace ExamVariants.Document.Json

open Decimal

inductive Error where
  | unexpectedEnd
  | unexpected (c : Char)
  | controlCharacter (c : Char)
  | badEscape
  | numberOutOfRange
  | tooDeep
  deriving DecidableEq, Repr

def Error.message : Error → String
  | unexpectedEnd => "unexpected end of text"
  | unexpected c => s!"unexpected character U+{String.ofList (Nat.toDigits 16 c.toNat)}"
  | controlCharacter c =>
    s!"control character U+{String.ofList (Nat.toDigits 16 c.toNat)} in a string"
  | badEscape => "invalid escape in a string"
  | numberOutOfRange => "number out of range"
  | tooDeep => "nesting too deep"

/-- A reader takes characters from the front and gives back the rest. -/
abbrev Reader (α : Type) := List Char → Except Error (α × List Char)

def unexpectedAt {α : Type} : List Char → Except Error α
  | [] => .error .unexpectedEnd
  | c :: _ => .error (.unexpected c)

def isSpace (c : Char) : Bool := c == ' ' || c == '\n' || c == '\t' || c == '\r'

def skipSpace (cs : List Char) : List Char := cs.dropWhile isSpace

def hexUnit : Reader Nat
  | a :: b :: c :: d :: rest =>
    match hexValue? a, hexValue? b, hexValue? c, hexValue? d with
    | some a, some b, some c, some d => .ok (((a * 16 + b) * 16 + c) * 16 + d, rest)
    | _, _, _, _ => .error .badEscape
  | _ => .error .badEscape

/-- The character of a `\u` escape; two halves of a pair are joined, and a lone half is refused. -/
def unicodeEscape : Reader Char := fun cs => do
  let (high, rest) ← hexUnit cs
  if 0xDC00 ≤ high ∧ high ≤ 0xDFFF then .error .badEscape
  else if 0xD800 ≤ high ∧ high ≤ 0xDBFF then
    match rest with
    | '\\' :: 'u' :: rest =>
      let (low, rest) ← hexUnit rest
      if 0xDC00 ≤ low ∧ low ≤ 0xDFFF then
        .ok (Char.ofNat (0x10000 + (high - 0xD800) * 0x400 + (low - 0xDC00)), rest)
      else .error .badEscape
    | _ => .error .badEscape
  else .ok (Char.ofNat high, rest)

def simpleEscape? : Char → Option Char
  | '"' => some '"'
  | '\\' => some '\\'
  | '/' => some '/'
  | 'b' => some '\x08'
  | 'f' => some '\x0c'
  | 'n' => some '\n'
  | 'r' => some '\r'
  | 't' => some '\t'
  | _ => none

/-- The characters up to the closing quote, from the latest; the fuel is the length of the text. -/
def stringBody : Nat → List Char → Reader (List Char)
  | 0, _, _ => .error .unexpectedEnd
  | _, _, [] => .error .unexpectedEnd
  | _, taken, '"' :: rest => .ok (taken, rest)
  | fuel + 1, taken, '\\' :: 'u' :: rest => do
    let (c, rest) ← unicodeEscape rest
    stringBody fuel (c :: taken) rest
  | fuel + 1, taken, '\\' :: c :: rest =>
    match simpleEscape? c with
    | some c => stringBody fuel (c :: taken) rest
    | none => .error .badEscape
  | fuel + 1, taken, c :: rest =>
    if c.toNat < 0x20 then .error (.controlCharacter c)
    else if c = '\\' then .error .unexpectedEnd
    else stringBody fuel (c :: taken) rest

/-- A string whose opening quote is already read. -/
def stringRest : Reader String := fun cs => do
  let (taken, rest) ← stringBody (cs.length + 1) [] cs
  .ok (String.ofList taken.reverse, rest)

/-- Digits appended to a 64-bit number as far as they fit, with the count of those that do not. -/
def significand (n : Nat) : List Char → Nat × Nat
  | [] => (n, 0)
  | c :: cs =>
    let m := n * 10 + digitValue c
    if m < 0x10000000000000000 then significand m cs else (n, cs.length + 1)

/-- Scales by a power of ten: one product or quotient, after quotients by `1e308` for the smallest
numbers. The fuel bounds the quotients, after which nothing is left of the number. -/
def scaled (x : Float) (exponent : Int) : Nat → Except Error Float
  | 0 => .ok 0
  | fuel + 1 =>
    if exponent.natAbs ≤ 308 then
      let power := Float.ofScientific 1 false exponent.natAbs
      if exponent ≥ 0 then
        let y := x * power
        if y.isInf then .error .numberOutOfRange else .ok y
      else .ok (x / power)
    else if x == 0 then .ok x
    else if exponent ≥ 0 then .error .numberOutOfRange
    else scaled (x / 1e308) (exponent + 308) fuel

def signed (negative : Bool) (x : Float) : Float := if negative then -x else x

/-- The digits at the front; there must be one. -/
def digits1 : Reader (List Char) := fun cs =>
  match cs.takeWhile Char.isDigit with
  | [] => unexpectedAt cs
  | ds => .ok (ds, cs.dropWhile Char.isDigit)

/-- The integer digits: a leading zero stands alone. -/
def wholeDigits : Reader (List Char)
  | '0' :: c :: cs => if c.isDigit then .error (.unexpected c) else .ok (['0'], c :: cs)
  | cs => digits1 cs

def fractionDigits : Reader (Option (List Char))
  | '.' :: cs => (fun (ds, rest) => (some ds, rest)) <$> digits1 cs
  | cs => .ok (none, cs)

def exponentPart : Reader (Option Int)
  | c :: cs =>
    if c = 'e' ∨ c = 'E' then do
      let (negative, cs) := match cs with
        | '-' :: cs => (true, cs)
        | '+' :: cs => (false, cs)
        | cs => (false, cs)
      let (ds, rest) ← digits1 cs
      let n : Int := natOfDigits ds
      .ok (some (if negative then -n else n), rest)
    else .ok (none, c :: cs)
  | [] => .ok (none, [])

/-- The value of a number by its parts. Digits that do not fit in 64 bits only scale the number, and
an exponent above `2 ^ 31 - 1` is out of range unless it makes the number a zero. -/
def realValue (negative : Bool) (whole fraction : List Char) (exponent : Int) :
    Except Error Number := do
  let (n, dropped) := significand 0 whole
  let (n, lost) := significand n fraction
  let shift : Int := dropped - (fraction.length - lost : Nat)
  if exponent.natAbs > 0x7FFFFFFF then
    if n ≠ 0 ∧ exponent > 0 then .error .numberOutOfRange
    else .ok (.real (signed negative 0))
  else
    let x ← scaled (UInt64.ofNat n).toFloat (shift + exponent) 8
    .ok (.real (signed negative x))

/-- A number. Integers of 64 bits stay integers; a negative zero and all else is a real. -/
def number : Reader Number := fun cs => do
  let (negative, cs) := match cs with
    | '-' :: cs => (true, cs)
    | cs => (false, cs)
  let (whole, cs) ← wholeDigits cs
  let (fraction, cs) ← fractionDigits cs
  let (exponent, cs) ← exponentPart cs
  let n : Int := natOfDigits whole
  let i := if negative then -n else n
  let plain := fraction.isNone && exponent.isNone
  if plain && Number.minInteger ≤ i && i ≤ Number.maxInteger && !(negative && n = 0) then
    .ok (.integer i, cs)
  else do
    let x ← realValue negative whole (fraction.getD []) (exponent.getD 0)
    .ok (x, cs)

def literal (word : List Char) (v : Value) : Reader Value := fun cs =>
  match word, cs with
  | [], cs => .ok (v, cs)
  | w :: ws, c :: cs => if w = c then literal ws v cs else .error (.unexpected c)
  | _ :: _, [] => .error .unexpectedEnd

mutual

/-- A value with at most `depth` nested lists and mappings. Each step of the readers spends fuel,
and each takes a character. -/
def value (fuel depth : Nat) (cs : List Char) : Except Error (Value × List Char) :=
  match fuel with
  | 0 => .error .unexpectedEnd
  | fuel + 1 =>
    match skipSpace cs with
    | [] => .error .unexpectedEnd
    | '"' :: cs => (fun (s, rest) => (.text s, rest)) <$> stringRest cs
    | 't' :: cs => literal ['r', 'u', 'e'] (.bool true) cs
    | 'f' :: cs => literal ['a', 'l', 's', 'e'] (.bool false) cs
    | 'n' :: cs => literal ['u', 'l', 'l'] .null cs
    | '[' :: cs =>
      match depth with
      | 0 => .error .tooDeep
      | depth + 1 =>
        match skipSpace cs with
        | ']' :: rest => .ok (.list [], rest)
        | cs => items fuel depth [] cs
    | '\x7b' :: cs =>
      match depth with
      | 0 => .error .tooDeep
      | depth + 1 =>
        match skipSpace cs with
        | '\x7d' :: rest => .ok (.mapping [], rest)
        | cs => entries fuel depth [] cs
    | c :: cs =>
      if c = '-' ∨ c.isDigit then (fun (n, rest) => (.number n, rest)) <$> number (c :: cs)
      else .error (.unexpected c)

/-- The items of a list from the next one on; `taken` holds those before, from the latest. -/
def items (fuel depth : Nat) (taken : List Value) (cs : List Char) :
    Except Error (Value × List Char) :=
  match fuel with
  | 0 => .error .unexpectedEnd
  | fuel + 1 => do
    let (v, rest) ← value fuel depth cs
    match skipSpace rest with
    | ',' :: rest => items fuel depth (v :: taken) rest
    | ']' :: rest => .ok (.list (v :: taken).reverse, rest)
    | rest => unexpectedAt rest

/-- The entries of a mapping from the next one on; `taken` holds those before, from the latest. -/
def entries (fuel depth : Nat) (taken : List (String × Value)) (cs : List Char) :
    Except Error (Value × List Char) :=
  match fuel with
  | 0 => .error .unexpectedEnd
  | fuel + 1 =>
    match skipSpace cs with
    | '"' :: cs => do
      let (key, rest) ← stringRest cs
      match skipSpace rest with
      | ':' :: rest =>
        let (v, rest) ← value fuel depth rest
        match skipSpace rest with
        | ',' :: rest => entries fuel depth ((key, v) :: taken) rest
        | '\x7d' :: rest => .ok (.ofEntries ((key, v) :: taken).reverse, rest)
        | rest => unexpectedAt rest
      | rest => unexpectedAt rest
    | cs => unexpectedAt cs

end

def maxDepth : Nat := 127

/-- A text that holds one value, nested at most `depth` deep, and nothing else. -/
def readNested (depth : Nat) (text : String) : Except Error Value := do
  let cs := text.toList
  let (v, rest) ← value (2 * cs.length + 2) depth cs
  match skipSpace rest with
  | [] => .ok v
  | c :: _ => .error (.unexpected c)

def read (text : String) : Except Error Value := readNested maxDepth text

end ExamVariants.Document.Json
