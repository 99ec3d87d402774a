import ExamVariants.Decimal.Digits
import ExamVariants.Log.Line
import ExamVariants.Notation

namespace ExamVariants.CommandLine

/-- When the log is in colour. -/
inductive ColourChoice where
  | auto
  | always
  | never
  deriving DecidableEq, Repr, Inhabited

def ColourChoice.ofName? : String → Option ColourChoice
  | "auto" => some auto
  | "always" => some always
  | "never" => some never
  | _ => none

def levelOfName? (s : String) : Option Log.Level :=
  Log.Level.all.find? fun l => Text.lower l.name == s

def digits? (cs : List Char) : Option Nat :=
  if cs.isEmpty || !cs.all Char.isDigit then none else some (Decimal.natOfDigits cs)

/-- A natural number of 64 bits; a plus sign may stand in front. -/
def count? (s : String) : Option Nat :=
  let n := match s.toList with
    | '+' :: ds => digits? ds
    | ds => digits? ds
  n.filter (· < 0x10000000000000000)

/-- An integer of 64 bits with or without a sign. -/
def seed? (s : String) : Option Int64 :=
  let n : Option Int := match s.toList with
    | '-' :: ds => (digits? ds).map fun n => -(n : Int)
    | '+' :: ds => (digits? ds).map Int.ofNat
    | ds => (digits? ds).map Int.ofNat
  (n.filter fun i => -0x8000000000000000 ≤ i && i < 0x8000000000000000).map Int64.ofInt

inductive Flag where
  | help
  | version
  | verbose
  | quiet
  | color
  | logLevel
  | logFormat
  | logFile
  | logContent
  | outputDirectory
  | target
  | seed
  | limit
  | typeset
  | dryRun
  deriving DecidableEq, Repr, Inhabited

namespace Flag

def all : List Flag :=
  [help, version, verbose, quiet, color, logLevel, logFormat, logFile, logContent,
    outputDirectory, target, seed, limit, typeset, dryRun]

theorem mem_all (f : Flag) : f ∈ all := by cases f <;> decide

/-- The name behind two hyphens. -/
def name : Flag → String
  | help => "help"
  | version => "version"
  | verbose => "verbose"
  | quiet => "quiet"
  | color => "color"
  | logLevel => "log-level"
  | logFormat => "log-format"
  | logFile => "log-file"
  | logContent => "log-content"
  | outputDirectory => "output-dir"
  | target => "notation"
  | seed => "seed"
  | limit => "limit"
  | typeset => "typeset"
  | dryRun => "dry-run"

def letter? : Flag → Option Char
  | help => some 'h'
  | version => some 'V'
  | verbose => some 'v'
  | quiet => some 'q'
  | _ => none

/-- The flags that hold for the whole program, before its command or behind it. -/
def isGlobal : Flag → Bool
  | help | verbose | quiet | color | logLevel | logFormat | logFile | logContent => true
  | _ => false

def takesValue : Flag → Bool
  | color | logLevel | logFormat | logFile | outputDirectory | target | seed | limit => true
  | _ => false

/-- Whether the flag may be given again. -/
def repeats : Flag → Bool
  | verbose | quiet | target => true
  | _ => false

/-- Whether a value with a hyphen in front may stand behind the flag on its own. -/
def takesHyphens : Flag → Bool
  | seed => true
  | _ => false

def accepts (value : String) : Flag → Bool
  | color => (ColourChoice.ofName? value).isSome
  | logLevel => (levelOfName? value).isSome
  | logFormat => (Log.Format.ofName? value).isSome
  | logFile | outputDirectory => !value.isEmpty
  | target => (Notation.ofName? value).isSome
  | seed => (seed? value).isSome
  | limit => (count? value).isSome
  | _ => false

end Flag

end ExamVariants.CommandLine
