import ScriptShell.Guard
import ScriptShell.Host
import ScriptShell.Report.Rendering

namespace ScriptShell

def exitFailure : Int32 := 3

structure Session where
  out : String
  err : String
  exitCode : Int32
  quitting : Bool
  showWarnings : Bool
  guard : Guard
  deriving DecidableEq, Repr

namespace Session

def new (stackBase : Nat) : Session :=
  ⟨"", "", 0, false, true, .new stackBase⟩

def write (text : String) (s : Session) : Session :=
  { s with out := s.out ++ text }

def writeError (text : String) (s : Session) : Session :=
  { s with err := s.err ++ text }

def report (r : Report) (s : Session) : Session :=
  if r.isWarning then if s.showWarnings then s.writeError r.render else s
  else { s.writeError r.render with exitCode := exitFailure }

def onBranch (filename : Option String) (line : Nat) (s : Session) : BranchAction × Session :=
  let (tick, guard) := s.guard.tick
  let s := { s with guard }
  match tick with
  | .continue_ => (.continue_, s)
  | .collect => (.collect, s)
  | .limitReached =>
    (.abort, s.report ((Report.error "script branches too much").locate filename line))

def requestQuit (code : Option Int32) (s : Session) : Session :=
  { s with exitCode := code.getD s.exitCode, quitting := true }

/-- A session as the host of scripts, with the files there are. -/
def host (file : String → FileState) : Host Session where
  report := report
  onBranch := onBranch
  write := write
  requestQuit := requestQuit
  file := file

end Session

end ScriptShell
