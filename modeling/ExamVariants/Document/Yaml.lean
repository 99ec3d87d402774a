import ExamVariants.Document.Value
import ExamVariants.Document.Yaml.Node

namespace ExamVariants.Document.Yaml

def isNullWord (s : String) : Bool := ["null", "Null", "NULL", "~"].contains s

def truth? (s : String) : Option Bool :=
  if ["true", "True", "TRUE"].contains s then some true
  else if ["false", "False", "FALSE"].contains s then some false
  else none

/-- Digits behind a leading zero: no number. -/
def isZeroLed (cs : List Char) : Bool :=
  match cs with
  | '0' :: ds => !ds.isEmpty && ds.all Char.isDigit
  | _ => false

def cutSign : List Char → Option Char × List Char
  | '-' :: cs => (some '-', cs)
  | '+' :: cs => (some '+', cs)
  | cs => (none, cs)

def natOfBase? (base : Nat) (ds : List Char) : Option Nat :=
  if ds.isEmpty then none
  else ds.foldlM (fun n d => (Decimal.hexValue? d).bind fun v =>
    if v < base then some (n * base + v) else none) 0

/-- A natural number, in a base that its first two characters may tell. -/
def natural? : List Char → Option Nat
  | '0' :: 'x' :: ds => natOfBase? 16 ds
  | '0' :: 'o' :: ds => natOfBase? 8 ds
  | '0' :: 'b' :: ds => natOfBase? 2 ds
  | ds => if isZeroLed ds then none else natOfBase? 10 ds

def integer? (cs : List Char) : Option Int :=
  let (sign, digits) := cutSign cs
  (natural? digits).map fun n => if sign = some '-' then -n else n

/-- Whether a spelling of an integer is one by size too: 128 bits with or without a sign. -/
def isWideInteger (i : Int) : Bool :=
  -0x80000000000000000000000000000000 ≤ i && i < 0x100000000000000000000000000000000

/-- An integer, refused if it is kept neither as an integer nor as a fraction. -/
def integerValue? (cs : List Char) : Option (Except Problem Value) :=
  match integer? cs with
  | some i =>
    if Number.minInteger ≤ i && i ≤ Number.maxInteger then some (.ok (.number (.integer i)))
    else if isWideInteger i then some (.error .numberRange)
    else none
  | none => none

/-- Spellings of numbers that are no numbers of a document. -/
def isBoundless (cs : List Char) : Bool :=
  let (sign, word) := cutSign cs
  [".inf", ".Inf", ".INF"].contains (String.ofList word) ||
    (sign.isNone && [".nan", ".NaN", ".NAN"].contains (String.ofList word))

def real? (cs : List Char) : Option Value :=
  if isBoundless cs then some .null
  else
    let (sign, digits) := cutSign cs
    ((Decimal.unsigned? digits).filter Float.isFinite).map fun x =>
      .number (.real (if sign = some '-' then -x else x))

/-- What a plain scalar without a tag means. -/
def plainValue (cs : List Char) : Except Problem Value :=
  let s := String.ofList cs
  if cs.isEmpty || isNullWord s then .ok .null
  else
    match truth? s, integerValue? cs with
    | some b, _ => .ok (.bool b)
    | none, some v => v
    | none, none =>
      if isZeroLed (cutSign cs).2 then .ok (.text s) else .ok ((real? cs).getD (.text s))

/-- The common tags whose scalars are checked. -/
inductive ScalarTag where
  | null
  | bool
  | int
  | float
  deriving DecidableEq, Repr

def scalarTag? (tag : Tag) : Option ScalarTag :=
  match String.ofList tag with
  | "tag:yaml.org,2002:null" => some .null
  | "tag:yaml.org,2002:bool" => some .bool
  | "tag:yaml.org,2002:int" => some .int
  | "tag:yaml.org,2002:float" => some .float
  | _ => none

def taggedValue? (cs : List Char) : ScalarTag → Option (Except Problem Value)
  | .null => if isNullWord (String.ofList cs) then some (.ok .null) else none
  | .bool => (truth? (String.ofList cs)).map fun b => .ok (.bool b)
  | .int => integerValue? cs
  | .float => (real? cs).map .ok

/-- Tags of the document's own have no meaning here. -/
def checkTag (tag : Option Tag) : Except Problem Unit :=
  if tag.any (·.head? == some '!') then .error .unsupportedTag else .ok ()

def scalarValue (tag : Option Tag) (plain : Bool) (cs : List Char) : Except Problem Value := do
  checkTag tag
  match tag with
  | none => if plain then plainValue cs else return .text (String.ofList cs)
  | some t =>
    match scalarTag? t with
    | some t => (taggedValue? cs t).getD (.error .tagMismatch)
    | none => return .text (String.ofList cs)

def maxDepth : Nat := 128

/-- How often aliases may be followed for each part of a document. -/
def aliasesPerPart : Nat := 100

/-- Resolution with the number of aliases that may still be followed. -/
abbrev Resolution := StateT Nat (Except Problem)

def followAlias : Resolution Unit := do
  match ← get with
  | 0 => throw .tooDeep
  | n + 1 => set n

namespace Node

mutual

def partCount : Node → Nat
  | .scalar _ _ _ => 1
  | .shared _ => 1
  | .list _ items => 2 + partCounts items
  | .mapping _ entries => 2 + entryPartCounts entries

def partCounts : List Node → Nat
  | [] => 0
  | n :: ns => partCount n + partCounts ns

def entryPartCounts : List (Node × Node) → Nat
  | [] => 0
  | (k, v) :: es => partCount k + partCount v + entryPartCounts es

end

def keyText : Node → Resolution String
  | .scalar _ _ text => return String.ofList text
  | .shared n => do
    followAlias
    keyText n
  | _ => throw .keyShape

mutual

/-- What a node means, within `depth` levels of collections. -/
def resolve (depth : Nat) : Node → Resolution Value
  | .scalar tag plain text => scalarValue tag plain text
  | .list tag items => do
    checkTag tag
    match depth with
    | 0 => throw .tooDeep
    | depth + 1 => return .list (← resolveAll depth items)
  | .mapping tag entries => do
    checkTag tag
    match depth with
    | 0 => throw .tooDeep
    | depth + 1 => return .ofEntries (← resolveEntries depth entries)
  | .shared n => do
    followAlias
    resolve depth n

def resolveAll (depth : Nat) : List Node → Resolution (List Value)
  | [] => return []
  | n :: ns => do
    let v ← resolve depth n
    return v :: (← resolveAll depth ns)

def resolveEntries (depth : Nat) : List (Node × Node) → Resolution (List (String × Value))
  | [] => return []
  | (k, v) :: es => do
    let key ← keyText k
    let value ← resolve depth v
    return (key, value) :: (← resolveEntries depth es)

end

def toValue (n : Node) : Except Problem Value :=
  (n.resolve maxDepth).run' (aliasesPerPart * n.partCount)

end Node

/-- The documents of a text; empty ones do not count. -/
def read (text : String) : Except Problem (List Value) := do
  let ts ← tokens text
  let roots ← readDocuments true (ts.length + 1) ts
  return (← roots.mapM Node.toValue).filter fun v => !v.isNull

end ExamVariants.Document.Yaml
