import ScriptShell.Host.Recording

namespace ScriptShell

/-- What can be seen of a run. -/
inductive Event where
  | report (r : Report)
  | branch (filename : Option String) (line : Nat) (answer : BranchAction)
  | write (text : String)
  | quit (code : Option Int32)
  | moment (m : Moment) (runtime : Runtime) (frame : Frame)

namespace Event

/-- Whether the host answers that the run is to stop, or the script wishes to. -/
def stops : Event → Bool
  | .branch _ _ answer => answer = .abort
  | .quit _ => true
  | _ => false

def isCallEnd : Event → Bool
  | .moment .callEnds _ _ => true
  | _ => false

/-- How many calls have begun and not ended, by a trace with the latest event first. -/
def active : List Event → Nat
  | [] => 0
  | .moment .callBegins _ _ :: trace => active trace + 1
  | .moment .callEnds _ _ :: trace => active trace - 1
  | _ :: trace => active trace

/-- The statement that began last in the unit itself and in each call that is active, the innermost
call first. Nothing has begun at first, nor when a call begins. -/
def running : List Event → List (Option Stmt)
  | [] => [none]
  | .moment (.statement s) _ _ :: trace => some s :: (running trace).tail
  | .moment .callBegins _ _ :: trace => none :: running trace
  | .moment .callEnds _ _ :: trace => (running trace).tail
  | _ :: trace => running trace

end Event

/-- A host beside a trace of what it is told, latest first. -/
def Host.traced {σ : Type} (h : Host σ) : Host (σ × List Event) where
  report r s := (h.report r s.1, .report r :: s.2)
  onBranch filename line s :=
    let (answer, state) := h.onBranch filename line s.1
    (answer, (state, .branch filename line answer :: s.2))
  write text s := (h.write text s.1, .write text :: s.2)
  requestQuit code s := (h.requestQuit code s.1, .quit code :: s.2)
  file := h.file
  observe m runtime frame s := (h.observe m runtime frame s.1, .moment m runtime frame :: s.2)

def recorder : Host Recording :=
  Recording.host fun _ => .failed .notFound

end ScriptShell
