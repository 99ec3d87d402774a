import ExamVariants.CommandLine.Flag
import ExamVariants.Generate.Plan
import ExamVariants.Log.Filter

namespace ExamVariants.CommandLine

/-- Why arguments ask for no work. -/
inductive Stop where
  | usage
  | help
  | version
  deriving DecidableEq, Repr

/-- The flags and words that stand before a command, or behind it. -/
structure Given where
  flags : List (Flag × String)
  words : List String

namespace Given

def empty : Given := ⟨[], []⟩

def has (g : Given) (f : Flag) : Bool := g.flags.any (·.1 == f)

def count (g : Given) (f : Flag) : Nat := g.flags.countP (·.1 == f)

def values (g : Given) (f : Flag) : List String :=
  (g.flags.filter (·.1 == f)).map Prod.snd

/-- Adds a flag with its value; one without a value has an empty one. -/
def add (g : Given) (f : Flag) (value : String) : Except Stop Given :=
  match f with
  | .help => .error .help
  | .version => .error .version
  | f =>
    if (f.takesValue && !f.accepts value) || (g.has f && !f.repeats) then .error .usage
    else .ok { g with flags := g.flags ++ [(f, value)] }

def addWord (g : Given) (w : String) : Given := { g with words := g.words ++ [w] }

/-- No two flags that exclude each other. -/
def isConsistent (g : Given) : Bool :=
  !(g.has .verbose && g.has .quiet) && !(g.has .typeset && g.has .dryRun)

end Given

/-- What may stand at a level: its flags, and how many words; a word behind the last ends it. -/
structure Grammar where
  flags : List Flag
  words : Nat

def Grammar.flagNamed? (l : Grammar) (name : List Char) : Option Flag :=
  l.flags.find? fun f => f.name.toList == name

def Grammar.flagOfLetter? (l : Grammar) (c : Char) : Option Flag :=
  l.flags.find? fun f => f.letter? == some c

def isFlag (a : String) : Bool :=
  match a.toList with
  | '-' :: _ :: _ => true
  | _ => false

def addLetters (l : Grammar) : List Char → Given → Except Stop Given
  | [], g => .ok g
  | c :: cs, g =>
    match l.flagOfLetter? c with
    | some f => do addLetters l cs (← g.add f "")
    | none => .error .usage

/-- The arguments of one level, with those left from the word that ends it. -/
def readLevel (l : Grammar) : List String → Given → Except Stop (Given × List String)
  | [], g => .ok (g, [])
  | a :: as, g =>
    match a.toList with
    | ['-', '-'] =>
      let g := as.foldl Given.addWord g
      if g.words.length ≤ l.words then .ok (g, []) else .error .usage
    | '-' :: '-' :: cs =>
      let name := cs.takeWhile (· != '=')
      match l.flagNamed? name with
      | none => .error .usage
      | some f =>
        if name.length < cs.length then
          if f.takesValue then do
            readLevel l as (← g.add f (String.ofList (cs.drop (name.length + 1))))
          else .error .usage
        else if f.takesValue then
          match as with
          | [] => .error .usage
          | value :: as =>
            if isFlag value && !f.takesHyphens then .error .usage
            else do readLevel l as (← g.add f value)
        else do readLevel l as (← g.add f "")
    | '-' :: c :: cs => do readLevel l as (← addLetters l (c :: cs) g)
    | _ =>
      if g.words.length < l.words then readLevel l as (g.addWord a)
      else .ok (g, a :: as)

structure LogSettings where
  verbose : Nat
  quiet : Nat
  level : Option Log.Level
  format : Log.Format
  colour : ColourChoice
  file : Option String
  showContent : Bool

structure GenerateArguments where
  input : String
  outputDirectory : Option String
  targets : List Notation
  seed : Option Int64
  limit : Option Nat
  typeset : Bool
  dryRun : Bool

inductive Command where
  | generate (arguments : GenerateArguments)
  | notations

structure Invocation where
  log : LogSettings
  command : Command

def programLevel : Grammar := ⟨Flag.version :: Flag.all.filter Flag.isGlobal, 0⟩

def generateLevel : Grammar := ⟨Flag.all.filter (· != .version), 1⟩

def notationsLevel : Grammar := ⟨Flag.all.filter Flag.isGlobal, 0⟩

/-- The value of a flag of the whole program; behind the command it counts more. -/
def globalValue? (outer inner : Given) (f : Flag) : Option String :=
  (inner.values f).head?.or (outer.values f).head?

def globalCount (outer inner : Given) (f : Flag) : Nat :=
  if inner.has f then inner.count f else outer.count f

def LogSettings.ofGiven (outer inner : Given) : LogSettings where
  verbose := globalCount outer inner .verbose
  quiet := globalCount outer inner .quiet
  level := (globalValue? outer inner .logLevel).bind levelOfName?
  format := ((globalValue? outer inner .logFormat).bind Log.Format.ofName?).getD .pretty
  colour := ((globalValue? outer inner .color).bind ColourChoice.ofName?).getD .auto
  file := globalValue? outer inner .logFile
  showContent := outer.has .logContent || inner.has .logContent

/-- The notations named, without repeats, or the common one if none is named. -/
def targetsOf (names : List String) : List Notation :=
  match (names.filterMap Notation.ofName?).eraseDups with
  | [] => [.latexMidterm]
  | targets => targets

def GenerateArguments.ofGiven (input : String) (g : Given) : GenerateArguments where
  input
  outputDirectory := (g.values .outputDirectory).head?
  targets := targetsOf (g.values .target)
  seed := (g.values .seed).head?.bind seed?
  limit := (g.values .limit).head?.bind count?
  typeset := g.has .typeset
  dryRun := g.has .dryRun

/-- Reads the arguments behind a command, which may leave nothing over. -/
def readCommand (l : Grammar) (outer : Given) (as : List String) : Except Stop Given := do
  let (inner, rest) ← readLevel l as .empty
  if rest.isEmpty && outer.isConsistent && inner.isConsistent then return inner
  else throw .usage

namespace Invocation

/-- The files that a run may read. -/
def inputs (i : Invocation) : List String :=
  let documents := match i.command with
    | .generate a => [a.input]
    | .notations => []
  documents ++ i.log.file.toList

def typesets (i : Invocation) : Bool :=
  match i.command with
  | .generate a => a.typeset
  | .notations => false

def ofArguments (as : List String) : Except Stop Invocation := do
  let (outer, rest) ← readLevel programLevel as .empty
  match rest with
  | "generate" :: rest =>
    let inner ← readCommand generateLevel outer rest
    match inner.words with
    | [input] =>
      if input.isEmpty then throw .usage
      return ⟨.ofGiven outer inner, .generate (.ofGiven input inner)⟩
    | _ => throw .usage
  | "notations" :: rest =>
    let inner ← readCommand notationsLevel outer rest
    return ⟨.ofGiven outer inner, .notations⟩
  | "help" :: _ => throw .help
  | _ => throw .usage

end Invocation

end ExamVariants.CommandLine
