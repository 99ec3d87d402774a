import ExamVariants.CommandLine.Invocation
import ExamVariants.Summary

namespace ExamVariants.CommandLine

open Generate

structure Outcome where
  exitCode : Nat
  stdout : String
  stderr : String
  session : Session

def versionText : String := "examgen 0.1.0\n"

def usageText : String :=
  "Usage: examgen [OPTIONS] <COMMAND>\n\nCommands:\n" ++
    "  generate   Generate examinations and solutions from a specification file\n" ++
    "  notations  List the supported output notations\n"

def usageCode : Nat := 2

namespace LogSettings

/-- The bound of the flags: a level in full, or as many steps from warnings as flags are given. -/
def bound (l : LogSettings) : Log.Bound :=
  match l.level with
  | some level => some level
  | none => Log.Bound.ofRank (2 + l.verbose - l.quiet)

def isExplicit (l : LogSettings) : Bool := 0 < l.verbose || 0 < l.quiet || l.level.isSome

/-- The filter of the environment counts only if no flag says how much is logged. -/
def filter (l : LogSettings) (environment : Option String) : Log.Filter :=
  match if l.isExplicit then none else environment.bind Log.Filter.ofText? with
  | some f => f
  | none => .standard l.bound

def text (l : LogSettings) (environment : Option String) (records : List Log.Record) : String :=
  let shown := records.filterMap (l.filter environment).shown?
  let colour := l.colour = .always
  String.join ((shown.filterMap (Log.line? l.format colour)).map (· ++ "\n"))

end LogSettings

def appended (old : Option Content) (text : String) : Content :=
  match old with
  | none => .text text
  | some (.text s) => .text (s ++ text)
  | some (.binary bytes) => .binary (bytes ++ text.toUTF8)

def GenerateArguments.options (a : GenerateArguments) (seed : Int64) : Options where
  outputDirectory := a.outputDirectory.getD (Output.defaultDirectory a.input)
  targets := a.targets
  seed
  limit := a.limit
  typeset := a.typeset
  dryRun := a.dryRun

/-- Generates the documents of a file; without a seed the drawn one is taken. -/
def runGenerate (a : GenerateArguments) (showContent : Bool) (drawn : Int64) (s : Session) :
    Outcome :=
  let s := if a.seed.isSome then s else s.event [] (randomSeed drawn)
  match Generate.run (a.options (a.seed.getD drawn)) showContent a.input s with
  | (.ok r, s) => ⟨if r.hasErrors then 1 else 0, Summary.text r, Summary.errorText r, s⟩
  | (.error e, s) => ⟨1, "", s!"error: {loadFailure a.input e}\n", s⟩

def runNotations (s : Session) : Outcome := ⟨0, Summary.notations.render ++ "\n", "", s⟩

/-- Carries out an invocation. The log goes to its file, or comes before the errors. -/
def Invocation.run (i : Invocation) (environment : Option String) (drawn : Int64) (s : Session) :
    Outcome :=
  let o := match i.command with
    | .generate a => runGenerate a i.log.showContent drawn s
    | .notations => runNotations s
  let text := i.log.text environment o.session.log.reverse
  match i.log.file with
  | none => { o with stderr := text ++ o.stderr }
  | some path =>
    let content := appended (o.session.files.read? path) text
    { o with session := { o.session with files := o.session.files.write path content } }

/-- Runs the program. `environment` is the filter of the log that the environment gives, and `drawn`
the seed for a run that is given none. -/
def run (arguments : List String) (environment : Option String) (drawn : Int64) (s : Session) :
    Outcome :=
  match Invocation.ofArguments arguments with
  | .error .usage => ⟨usageCode, "", usageText, s⟩
  | .error .help => ⟨0, usageText, "", s⟩
  | .error .version => ⟨0, versionText, "", s⟩
  | .ok i => i.run environment drawn s

end ExamVariants.CommandLine
