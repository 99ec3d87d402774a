import ExamVariants.FileTree
import ExamVariants.Log.Record

namespace ExamVariants

/-- How a run of the typesetter ends: by itself with a code, or by a signal. -/
inductive ExitStatus where
  | code (value : Nat)
  | signal (number : Nat) (coreDumped : Bool)
  deriving DecidableEq, Repr, Inhabited

namespace ExitStatus

instance : Coe Nat ExitStatus := ⟨code⟩

/-- The signals of Linux by number, from 1 on. -/
def signalNames : List String :=
  ["SIGHUP", "SIGINT", "SIGQUIT", "SIGILL", "SIGTRAP", "SIGABRT", "SIGBUS", "SIGFPE", "SIGKILL",
    "SIGUSR1", "SIGSEGV", "SIGUSR2", "SIGPIPE", "SIGALRM", "SIGTERM", "SIGSTKFLT", "SIGCHLD",
    "SIGCONT", "SIGSTOP", "SIGTSTP", "SIGTTIN", "SIGTTOU", "SIGURG", "SIGXCPU", "SIGXFSZ",
    "SIGVTALRM", "SIGPROF", "SIGWINCH", "SIGIO", "SIGPWR", "SIGSYS"]

def text : ExitStatus → String
  | code value => s!"exit status: {value}"
  | signal number coreDumped =>
    let name := ("" :: signalNames.map fun name => s!" ({name})").getD number ""
    s!"signal: {number}" ++ name ++ if coreDumped then " (core dumped)" else ""

example : (signal 9 false).text = "signal: 9 (SIGKILL)" := by decide +kernel

end ExitStatus

/-- The outcome of one run of the typesetter. -/
structure TypesetterRun where
  exitStatus : ExitStatus
  output : String
  /-- The paths of the files that the run leaves. -/
  left : List (String × Content)
  deriving Inhabited

def TypesetterRun.silent : TypesetterRun := ⟨.code 0, "", []⟩

structure Session where
  files : FileTree
  /-- The outcomes of the runs to come; later ones are silent. -/
  upcoming : List TypesetterRun
  /-- The arguments of the runs so far, from the latest. -/
  calls : List (List String)
  /-- The records so far, from the latest. -/
  log : List Log.Record
  deriving Inhabited

namespace Session

def ofFiles (files : FileTree) : Session := ⟨files, [], [], []⟩

def note (s : Session) (r : Log.Record) : Session := { s with log := r :: s.log }

def noteAll (s : Session) (rs : List Log.Record) : Session :=
  { s with log := rs.reverse ++ s.log }

def event (s : Session) (spans : List Log.Span) (e : Log.Event) : Session :=
  s.note (.event spans e)

def write (s : Session) (path text : String) : Session :=
  { s with files := s.files.write path (.text text) }

def runTypesetter (s : Session) (arguments : List String) : TypesetterRun × Session :=
  let run := s.upcoming.headD .silent
  let files := run.left.foldl (fun t (path, c) => t.write path c) s.files
  (run, { s with files, upcoming := s.upcoming.tail, calls := arguments :: s.calls })

end Session

end ExamVariants
