import ScriptShell.Compilation
import ScriptShell.Input
import ScriptShell.Invocation
import ScriptShell.Session

namespace ScriptShell

/-- Why a shell could not go on. -/
inductive Interruption where
  | fault (f : Fault)
  /-- A file is needed that nobody has looked up. -/
  | wanting (name : String)
  /-- The bound on the depth of evaluation was reached. -/
  | outOfFuel

structure Shell where
  session : Session
  runtime : Runtime
  input : Input

namespace Shell

def exitNoFile : Int32 := 4

def inputName : String := "-"

def new (machine : Machine) (input : Input) : Shell :=
  ⟨.new machine.stackBase, .forShell machine, input⟩

def withInput (input : Input) (s : Shell) : Shell :=
  { s with input }

def defineArguments (args : List String) (s : Shell) : Shell :=
  let (id, heap) := s.runtime.heap.allocate (.ofKind (.array (args.map Value.text).toArray))
  { s with runtime := { s.runtime with heap }.defineGlobal "arguments" (.object id) }

/-- Compiles a source and runs it. Gives its value if it has one and nothing went wrong; what
went wrong has been reported. -/
def runSource (file : String → FileState) (filename : String) (startLine : Nat)
    (source : String) (s : Shell) : Except Interruption (Option Value × Shell) :=
  let host := Session.host file
  let runtime := { s.runtime with stackLimit := s.session.guard.stackLimit }
  match runtime.compile host (some filename) startLine source s.session with
  | (.error _, session) => .ok (none, { s with runtime, session })
  | (.ok p, session) =>
    let (outcome, runtime, session) :=
      runtime.execute host Evaluation.plenty (some filename) p session
    let s := { s with runtime, session }
    match outcome with
    | .value v => .ok (some v, s)
    | .stopped (.thrown _ _ _) | .stopped .aborted => .ok (none, s)
    | .stopped (.fault f) => .error (.fault f)
    | .stopped (.wanting name) => .error (.wanting name)
    | .stopped .outOfFuel => .error .outOfFuel

theorem runSource_withInput {file : String → FileState} (filename : String) (line : Nat)
    (source : String) (s : Shell) (input : Input) :
    runSource file filename line source (s.withInput input) =
      (runSource file filename line source s).map fun ran => (ran.1, ran.2.withInput input) := by
  simp only [runSource, withInput]
  split
  · rfl
  · split <;> rfl

def readScript (input : Input) : Except String String × Input :=
  let (skipped, reader) := (SourceReader.ofInput input).skipShebang
  match skipped with
  | .error message => (.error message, reader.input)
  | .ok () =>
    let (text, reader) := reader.rest
    (text, reader.input)

/-- The source of a script, or why it cannot be read. -/
def readUnit (file : String → FileState) (name : String) (s : Shell) :
    Except Interruption (Except String String × Shell) :=
  if name = inputName then
    let (source, input) := readScript s.input
    .ok (source, { s with input })
  else
    match file name with
    | .bytes content => .ok ((readScript ⟨[content], none⟩).1, s)
    | .failed e => .ok (.error e.message, s)
    | .unknown => .error (.wanting name)

def reportUnreadable (name message : String) (s : Shell) : Shell :=
  let session := s.session.report (Report.error ("can't open " ++ name ++ ": " ++ message))
  { s with session := { session with exitCode := exitNoFile } }

def runUnit (file : String → FileState) (name : String) (s : Shell) :
    Except Interruption Shell := do
  match ← s.readUnit file name with
  | (.error message, s) => return s.reportUnreadable name message
  | (.ok source, s) => return (← s.runSource file name 1 source).2

/-- Carries out what a flag asks for. -/
def perform (file : String → FileState) (s : Shell) : Action → Except Interruption Shell
  | .setVersion version => .ok { s with runtime := { s.runtime with version } }
  | .showWarnings on => .ok { s with session := { s.session with showWarnings := on } }
  | .toggleStrict => .ok { s with runtime := s.runtime.toggleStrict.2 }
  | .sealGlobals => .ok { s with runtime := s.runtime.sealGlobals.2 }
  | .chunkSize size => .ok { s with runtime := s.runtime.setChunkSize size }
  | .branchLimit limit =>
    .ok { s with
      session := { s.session with guard := s.session.guard.setBranchLimit limit }
      runtime := { s.runtime with tellsBranches := true } }
  | .runFile name => s.runUnit file name
  | .maxStack size =>
    .ok { s with session := { s.session with guard := s.session.guard.setMaxStack size } }

end Shell

end ScriptShell
