import ExamVariants.Decimal.Digits
import ExamVariants.Log.Record
import ExamVariants.Text.Alphanumeric
import ExamVariants.Text.Blank
import ExamVariants.Text.Lines

namespace ExamVariants.Log

/-- A bound on levels; none lets nothing pass. -/
abbrev Bound := Option Level

namespace Bound

def admits (b : Bound) (l : Level) : Bool := b.any fun m => l.rank ≤ m.rank

def ofRank : Nat → Bound
  | 0 => none
  | 1 => some .error
  | 2 => some .warn
  | 3 => some .info
  | 4 => some .debug
  | _ => some .trace

def rankOfDigits? (s : String) : Option Nat :=
  let ds := match s.toList with
    | '+' :: ds => ds
    | ds => ds
  if ds.isEmpty || !ds.all Char.isDigit then none
  else if Decimal.natOfDigits ds ≤ 5 then some (Decimal.natOfDigits ds)
  else none

/-- Reads a bound: a rank, a name in any letter case, or nothing for errors alone. -/
def ofText? (s : String) : Option Bound :=
  match rankOfDigits? s with
  | some n => some (ofRank n)
  | none =>
    if s.isEmpty then some (some .error)
    else if Text.lower s = "off" then some none
    else (Level.all.find? fun l => Text.lower l.name == Text.lower s).map some

end Bound

structure Directive where
  /-- Other targets are not concerned. -/
  target : Option String
  /-- Other spans are not concerned. -/
  span : Option String
  bound : Bound
  deriving DecidableEq, Repr

namespace Directive

def boundOf? (s : List Char) : Option Bound :=
  if s.isEmpty then some (some .trace) else Bound.ofText? (String.ofList s)

def isTargetStart (c : Char) : Bool :=
  Text.isAlphanumeric c || c == '-' || c == ':' || c == '_'

/-- Reads what follows the target: a span in brackets and a bound, of which each may be missing. -/
def ofTail? (target : Option String) (cs : List Char) : Option Directive :=
  match cs with
  | '[' :: rest =>
    let name := rest.takeWhile (· != ']')
    let after := (rest.dropWhile (· != ']')).drop 1
    let closed := name.length < rest.length
    if !closed || name.contains '\x7b' then none
    else
      match after with
      | [] => some ⟨target, some (String.ofList name), some .trace⟩
      | '=' :: bound => (boundOf? bound).map fun b => ⟨target, some (String.ofList name), b⟩
      | _ => none
  | '=' :: bound => (boundOf? bound).map fun b => ⟨target, none, b⟩
  | _ => none

/-- Reads a directive: a bound alone, or a target with a span and a bound. -/
def ofText? (s : String) : Option Directive :=
  let cs := Text.stripChars s.toList
  let isName := fun c => c != '=' && c != '['
  let name := cs.takeWhile isName
  match cs with
  | [] => some ⟨none, none, some .trace⟩
  | '[' :: _ => ofTail? none cs
  | c :: _ =>
    if !isTargetStart c then none
    else if name.length < cs.length then ofTail? (some (String.ofList name)) (cs.drop name.length)
    else
      match Bound.ofText? (String.ofList cs) with
      | some b => some ⟨none, none, b⟩
      | none => some ⟨some (String.ofList cs), none, some .trace⟩

def concerns (d : Directive) (target : String) : Bool :=
  d.target.all fun t => t.toList.isPrefixOf target.toList

/-- How much of a target the directive names. -/
def precision (d : Directive) : Nat := (d.target.map String.length).getD 0

end Directive

abbrev Filter := List Directive

namespace Filter

/-- The program's own targets log up to a bound, all else up to warnings. -/
def standard (bound : Bound) : Filter :=
  let targets := ["examgen", "examgen_cli", "examgen_ingest", "examgen_model", "examgen_report"]
  ⟨none, none, some .warn⟩ :: targets.map fun t => ⟨some t, none, bound⟩

/-- Reads directives with commas between them; of none, errors alone pass. -/
def ofText? (s : String) : Option Filter :=
  match (Text.split ',' s).filter fun d => !d.isEmpty with
  | [] => some [⟨none, none, some .error⟩]
  | ds => ds.mapM Directive.ofText?

/-- The bound for a target outside of spans: that of the directive that names most of it, of two the
later one. -/
def boundFor (f : Filter) (target : String) : Bound :=
  let concerned := f.filter fun d => d.span.isNone && d.concerns target
  let best := concerned.foldl (fun (best : Option Directive) d =>
    if best.any fun b => d.precision < b.precision then best else some d) none
  best.bind Directive.bound

def about (f : Filter) (s : Span) : List Directive :=
  f.filter fun d => d.span == some s.name && d.concerns s.target

/-- Whether a span around what is noted lets a level pass. -/
def openedBy (f : Filter) (spans : List Span) (l : Level) : Bool :=
  spans.any fun s => (f.about s).any fun d => Bound.admits d.bound l

def showsSpan (f : Filter) (outer : List Span) (s : Span) : Bool :=
  !(f.about s).isEmpty || f.openedBy outer s.level ||
    Bound.admits (f.boundFor s.target) s.level

def showsEvent (f : Filter) (spans : List Span) (e : Event) : Bool :=
  f.openedBy spans e.level || Bound.admits (f.boundFor e.target) e.level

def shownSpans (f : Filter) (outer : List Span) : List Span → List Span
  | [] => []
  | s :: ss =>
    let inner := f.shownSpans (outer ++ [s]) ss
    if f.showsSpan outer s then s :: inner else inner

def shown? (f : Filter) : Record → Option Record
  | .event spans e =>
    if f.showsEvent spans e then some (.event (f.shownSpans [] spans) e) else none
  | .spanEnd spans =>
    match spans.getLast? with
    | some s =>
      if f.showsSpan spans.dropLast s then some (.spanEnd (f.shownSpans [] spans)) else none
    | none => none

end Filter

end ExamVariants.Log
