import ScriptShell.Heap.Conversion
import ScriptShell.Host
import ScriptShell.Program.Parser

namespace ScriptShell

/-- Why evaluation ended early. -/
inductive Stop where
  /-- An exception that scripts can catch, with the unit and line that raised it. -/
  | thrown (value : Value) (filename : Option String) (line : Nat)
  /-- The host or the script itself stopped the run. -/
  | aborted
  | fault (f : Fault)
  /-- A file is needed that nobody has looked up. -/
  | wanting (name : String)
  /-- The bound on the depth of evaluation was reached. -/
  | outOfFuel

/-- How a statement ended. -/
inductive Completion where
  | normal
  | return_ (value : Value)
  | break_
  | continue_

namespace Evaluation

structure State (σ : Type) where
  runtime : Runtime
  frame : Frame
  host : σ

end Evaluation

/-- Evaluation beside a host with state `σ`. What happened before a stop stays done. -/
abbrev Eval (σ : Type) := EStateM Stop (Evaluation.State σ)

namespace Evaluation

variable {σ α : Type}

def maxCallDepth : Nat := 3000

def letVersion : UInt32 := 170

def liftFault (r : Except Fault α) : Eval σ α :=
  match r with
  | .ok a => pure a
  | .error f => throw (.fault f)

def modifyRuntime (f : Runtime → Runtime) : Eval σ Unit :=
  modify fun s => { s with runtime := f s.runtime }

def modifyFrame (f : Frame → Frame) : Eval σ Unit :=
  modify fun s => { s with frame := f s.frame }

def modifyHeap (f : Heap → Heap) : Eval σ Unit :=
  modifyRuntime fun r => { r with heap := f r.heap }

def setLine (line : Nat) : Eval σ Unit :=
  modifyFrame fun f => { f with line }

def setLastValue (v : Value) : Eval σ Unit :=
  modifyFrame fun f => { f with lastValue := v }

def frame : Eval σ Frame := do
  return (← get).frame

def look (f : Heap → α) : Eval σ α := do
  return f (← get).runtime.heap

def ask (f : Heap → Except Fault α) : Eval σ α := do
  liftFault (← look f)

def Runtime.allocate (r : Runtime) (o : Object) : ObjectId × Runtime :=
  let (id, heap) := r.heap.allocate o
  (id, { r with heap })

def allocate (o : Object) : Eval σ Value :=
  modifyGet fun s =>
    let (id, runtime) := Runtime.allocate s.runtime o
    (.object id, { s with runtime })

def newArray (elements : Array Value) : Eval σ Value :=
  allocate (.ofKind (.array elements))

def newError (kind : ErrorKind) (message : String) : Eval σ Value :=
  allocate ⟨.error, .ofList [("name", .text kind.name), ("message", .text message)]⟩

def observe (host : Host σ) (m : Moment) : Eval σ Unit :=
  modify fun s => { s with host := host.observe m s.runtime s.frame s.host }

def throwAt (host : Host σ) (v : Value) (filename : Option String) (line : Nat) : Eval σ α := do
  observe host (.raised v filename line)
  throw (.thrown v filename line)

def raise (host : Host σ) (kind : ErrorKind) (message : String) : Eval σ α := do
  let v ← newError kind message
  let frame ← frame
  throwAt host v frame.filename frame.line

def noFunction (host : Host σ) (description : String) : Eval σ α :=
  raise host .typeError (description ++ " is not a function")

def noProperties (host : Host σ) (description : String) : Eval σ α :=
  raise host .typeError (description ++ " has no properties")

def report (host : Host σ) (r : Report) : Eval σ Unit :=
  modify fun s => { s with host := host.report r s.host }

def isStrict : Eval σ Bool := do
  return (← get).runtime.strict

def strictWarning (host : Host σ) (message : String) : Eval σ Unit := do
  if ← isStrict then
    let frame ← frame
    report host ((Report.warning message true).locate frame.filename frame.line)

/-- Runs an evaluation and gives its end as a value. -/
def attempt (x : Eval σ α) : Eval σ (Except Stop α) := fun s =>
  match x s with
  | .ok a s => .ok (.ok a) s
  | .error e s => .ok (.error e) s

def conclude : Except Stop α → Eval σ α
  | .ok a => pure a
  | .error e => throw e

def inScope (scope : ScopeId) (x : Eval σ α) : Eval σ α := do
  let saved := (← get).frame.scope
  modifyFrame fun f => { f with scope := some scope }
  let r ← attempt x
  modifyFrame fun f => { f with scope := saved }
  conclude r

def inFrame (frame : Frame) (x : Eval σ α) : Eval σ α := do
  let saved := (← get).frame
  modifyFrame fun _ => frame
  let r ← attempt x
  modifyFrame fun _ => saved
  conclude r

def oneDeeper (host : Host σ) (x : Eval σ α) : Eval σ α := do
  modifyRuntime fun r => { r with callDepth := r.callDepth + 1 }
  observe host .callBegins
  let r ← attempt x
  modifyRuntime fun r => { r with callDepth := r.callDepth - 1 }
  observe host .callEnds
  conclude r

def tooDeep : Eval σ Bool := do
  let r := (← get).runtime
  let address := r.machine.stackAddress r.callDepth
  let past := (r.stackLimit.map fun limit => decide (address < limit)).getD false
  return past || maxCallDepth ≤ r.callDepth

def deeper (host : Host σ) (x : Eval σ α) : Eval σ α := do
  if ← tooDeep then raise host .internalError "too much recursion"
  else oneDeeper host x

def openScope (isFunction : Bool) (parent : Option ScopeId) : Eval σ ScopeId :=
  modifyGet fun s =>
    let (id, scopes) := s.runtime.scopes.open_ parent isFunction
    (id, { s with runtime := { s.runtime with scopes } })

def inBlockScope (x : ScopeId → Eval σ α) : Eval σ α := do
  let id ← openScope false (← frame).scope
  inScope id (x id)

def declareIn (scope : ScopeId) (name : String) (v : Value) (isMutable : Bool) : Eval σ Unit :=
  modifyRuntime fun r => { r with scopes := r.scopes.declare scope name v isMutable }

def declareLocal (name : String) (v : Value) (isMutable : Bool) : Eval σ Unit := do
  match (← frame).scope with
  | some scope => declareIn scope name v isMutable
  | none => modifyRuntime fun r => { r with globals := r.globals.define name v isMutable }

/-- The value of a variable as seen from a scope. -/
def Runtime.lookup? (r : Runtime) (scope : Option ScopeId) (name : String) : Option Value :=
  match scope.bind fun id => r.scopes.lookup? id name with
  | some v => some v
  | none => r.globals.get? name

def lookup? (name : String) : Eval σ (Option Value) := do
  let s ← get
  return Runtime.lookup? s.runtime s.frame.scope name

def lookup (host : Host σ) (name : String) : Eval σ Value := do
  match ← lookup? name with
  | some v => return v
  | none => raise host .referenceError (name ++ " is not defined")

def constantError (host : Host σ) (name : String) : Eval σ α :=
  raise host .typeError ("invalid assignment to const " ++ name)

/-- Writes to a variable of the chain of scopes. -/
def assignLocal (scope : Option ScopeId) (name : String) (v : Value) : Eval σ Assigned :=
  match scope with
  | none => return .notFound
  | some id =>
    modifyGet fun s =>
      let (r, scopes) := s.runtime.scopes.assign id name v
      (r, { s with runtime := { s.runtime with scopes } })

def assignGlobal (name : String) (v : Value) : Eval σ Assigned :=
  modifyGet fun s =>
    let (r, globals) := s.runtime.globals.assign name v
    (r, { s with runtime := { s.runtime with globals } })

def defineGlobal (name : String) (v : Value) : Eval σ Unit :=
  modifyRuntime fun r => { r with globals := r.globals.define name v true }

/-- Assigns to a global variable, a new one if there is none. A sealed one keeps its value. -/
def assignGlobally (host : Host σ) (name : String) (v : Value) : Eval σ Unit := do
  match ← assignGlobal name v with
  | .done => return
  | .constant => constantError host name
  | .sealedOff => strictWarning host (name ++ " is read-only")
  | .notFound =>
    strictWarning host ("assignment to undeclared variable " ++ name)
    defineGlobal name v

/-- Assigns to the nearest binding of a name, or to a new global one. -/
def assignVariable (host : Host σ) (name : String) (v : Value) : Eval σ Unit := do
  match ← assignLocal (← frame).scope name v with
  | .done => return
  | .constant => constantError host name
  | _ => assignGlobally host name v

def readVariable (host : Host σ) (name : String) : Eval σ Value := do
  observe host (.reads name)
  lookup host name

def readVariable? (host : Host σ) (name : String) : Eval σ (Option Value) := do
  observe host (.reads name)
  lookup? name

def writeVariable (host : Host σ) (name : String) (v : Value) : Eval σ Unit := do
  observe host (.assigns name v)
  assignVariable host name v

def textProperty (s : String) (key : String) : Value :=
  if key = "length" then .number (Number.ofNat (Text.unitCount s))
  else
    match (arrayIndex? key).bind (Text.unitAt? s) with
    | some u => .text (Text.ofUnits [u])
    | none => .undefined

def ownProperty (id : ObjectId) (key : String) : Eval σ (Option Value) :=
  look fun h => (h.object id).get? key

/-- Reads a property. -/
def getProperty (host : Host σ) (base : Value) (key description : String) : Eval σ Value := do
  match base with
  | .undefined | .null => noProperties host description
  | .text s => return textProperty s key
  | .object id =>
    match ← ownProperty id key with
    | some v => return v
    | none =>
      strictWarning host ("reference to undefined property " ++ key)
      return .undefined
  | _ => return .undefined

def setProperty (id : ObjectId) (key : String) (v : Value) : Eval σ Unit := do
  let change ← ask (·.propertyChange id key v)
  modifyHeap (·.modify id change)

/-- Writes a property; what has none drops it. -/
def putProperty (host : Host σ) (base : Value) (key : String) (v : Value)
    (description : String) : Eval σ Unit := do
  match base with
  | .undefined | .null => noProperties host description
  | .object id => setProperty id key v
  | _ => return

/-- Tells the host that a loop goes round again. -/
def branch (host : Host σ) (line : Nat) : Eval σ Unit := do
  if (← get).runtime.tellsBranches then
    observe host .notifies
    let s ← get
    let (action, state) := host.onBranch s.frame.filename line s.host
    modify fun s => { s with host := state }
    match action with
    | .continue_ => return
    | .collect => modifyHeap fun h => h.maybeCollect.2
    | .abort => throw .aborted

def located (host : Host σ) (x : Eval σ α) : Eval σ α := do
  match ← attempt x with
  | .error (.thrown v none 0) =>
    let frame ← frame
    throwAt host v frame.filename frame.line
  | r => conclude r

end Evaluation

/-- How sources are read in a language version. -/
def Runtime.parseOptions (r : Runtime) (startLine : Nat) : ParseOptions :=
  { startLine
    letKeywords := r.version = 0 || Evaluation.letVersion ≤ r.version
    strict := r.strict }

end ScriptShell
