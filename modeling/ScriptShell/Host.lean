import ScriptShell.Report
import ScriptShell.Runtime

namespace ScriptShell

/-- The answer to the news that a loop goes round again. -/
inductive BranchAction where
  | continue_
  /-- Go on after a collection if one is due. -/
  | collect
  /-- Stop for good. -/
  | abort
  deriving DecidableEq, Repr

inductive FileError where
  | notFound
  | notDirectory
  | isDirectory
  | other (text : String)
  deriving DecidableEq, Repr

def FileError.message : FileError → String
  | .notFound => "No such file or directory"
  | .notDirectory => "Not a directory"
  | .isDirectory => "Is a directory"
  | .other text => text

/-- What is known about a file. -/
inductive FileState where
  | bytes (content : List UInt8)
  | failed (error : FileError)
  /-- Nobody has looked yet. -/
  | unknown

/-- The moments of a run that an onlooker is told about. -/
inductive Moment where
  | statement (s : Stmt)
  /-- A function is called, and the call has been counted. -/
  | callBegins
  | callEnds
  | handlerBegins
  | finalizerBegins
  /-- The host is about to hear that a loop goes round again. -/
  | notifies
  /-- The host is about to hear that the script wants to stop. -/
  | quits
  /-- A jump has left a body that takes no such jump. -/
  | strayJump
  /-- An assignment goes to an expression that is no target. -/
  | noTarget
  /-- An exception gets its position, with the unit and line that raised it. -/
  | raised (value : Value) (filename : Option String) (line : Nat)
  /-- On entering a body, the name of a function that it declares has been bound to the function. -/
  | functionBound (f : FunctionDef) (value : Value)
  /-- A variable is about to be looked up. -/
  | reads (name : String)
  /-- A value is about to be assigned to a variable. -/
  | assigns (name : String) (value : Value)

/-- The surroundings of a run, with a state of their own. -/
structure Host (σ : Type) where
  report : Report → σ → σ
  /-- A loop of this unit goes round again at this line. -/
  onBranch : Option String → Nat → σ → BranchAction × σ
  write : String → σ → σ
  /-- The script wants to stop, perhaps with an exit code. -/
  requestQuit : Option Int32 → σ → σ
  file : String → FileState
  /-- What an onlooker makes of a moment of the run, seeing all of its state. -/
  observe : Moment → Runtime → Frame → σ → σ := fun _ _ _ s => s

end ScriptShell
