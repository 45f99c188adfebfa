import ScriptShell.Library.Functions
import ScriptShell.Operator
import ScriptShell.Text.Utf8

namespace ScriptShell.Evaluation

variable {σ : Type}

/-- A target of an assignment whose parts have been evaluated. -/
inductive Reference where
  | variable (name : String)
  | property (base : Value) (key : String)

def describeBase : Expr → String
  | .member object _ _ | .index object _ _ => object.describe
  | e => e.describe

def makeClosure (f : FunctionDef) : Eval σ Value := do
  let frame ← frame
  allocate (.ofKind (.function (.script ⟨f, frame.scope, frame.filename⟩)))

def bindFunction (host : Host σ) (f : FunctionDef) : Eval σ Unit := do
  let v ← makeClosure f
  if let some name := f.name then
    declareLocal name v true
    observe host (.functionBound f v)

def hoistFunctions (host : Host σ) : List Stmt → Eval σ Unit
  | [] => return
  | .function f _ :: rest => do
    bindFunction host f
    hoistFunctions host rest
  | _ :: rest => hoistFunctions host rest

def getReference (host : Host σ) (target : Expr) : Reference → Eval σ Value
  | .variable name => readVariable host name
  | .property base key => getProperty host base key (describeBase target)

def putReference (host : Host σ) (target : Expr) (v : Value) : Reference → Eval σ Unit
  | .variable name => writeVariable host name v
  | .property base key => putProperty host base key v (describeBase target)

def declareParameters (scope : ScopeId) : List String → List Value → Eval σ Unit
  | [], _ => return
  | name :: names, args => do
    declareIn scope name (args.headD .undefined) true
    declareParameters scope names args.tail

def hoistIn (scope : ScopeId) (names : List String) : Eval σ Unit :=
  modifyRuntime fun r =>
    { r with scopes := names.foldl (fun s name => s.hoist scope name) r.scopes }

/-- Binds what a call starts with in its scope: the function's own name, its parameters, the array
of arguments and its `var` names. -/
def fillScope (scope : ScopeId) (callee : Value) (c : Closure) (args : List Value) :
    Eval σ Unit := do
  if let some name := c.def_.name then declareIn scope name callee true
  declareParameters scope c.def_.params args
  if !c.def_.params.contains "arguments" then
    let v ← newArray args.toArray
    declareIn scope "arguments" v true
  hoistIn scope c.def_.varNames

def openCall (callee : Value) (c : Closure) (args : List Value) : Eval σ ScopeId := do
  let scope ← openScope true c.scope
  fillScope scope callee c args
  return scope

def callResult (host : Host σ) : Completion → Eval σ Value
  | .return_ v => return v
  | .normal => return .undefined
  | _ => do
    observe host .strayJump
    return .undefined

/-- Runs the body of a call in its scope and unit, one call deeper. -/
def inCall (host : Host σ) (callee : Value) (c : Closure) (args : List Value)
    (body : Eval σ Completion) : Eval σ Value :=
  deeper host do
    let scope ← openCall callee c args
    let line := (← frame).line
    inFrame ⟨some scope, c.filename, line, .undefined⟩ do
      hoistFunctions host c.def_.body
      callResult host (← body)

def reportWarnings (host : Host σ) (warnings : List ParseWarning) (source : String)
    (filename : Option String) : Eval σ Unit :=
  warnings.forM fun w =>
    report host (((Report.warning w.remark.message w.remark.isStrict).locate filename
      w.place.line).withSource source w.place.offset)

def parseOptions : Eval σ ParseOptions := do
  return (← get).runtime.parseOptions 1

/-- Reads a source from inside a script; its faults become exceptions. -/
def compileNested (host : Host σ) (source filename : String) : Eval σ Program := do
  match Program.ofSource (← parseOptions) source with
  | .ok (p, warnings) =>
    reportWarnings host warnings source (some filename)
    return p
  | .error e =>
    let v ← newError .syntaxError e.fault.message
    throwAt host v (some filename) e.place.line

def openUnit (host : Host σ) (name : String) : Eval σ Program := do
  let content ← Library.readFile host name
  compileNested host (Text.readUtf8 content) name

def hoistGlobals (names : List String) : Eval σ Unit :=
  modifyRuntime fun r => { r with globals := names.foldl Globals.hoist r.globals }

def declareProgram (host : Host σ) (p : Program) : Eval σ Unit := do
  hoistGlobals p.varNames
  hoistFunctions host p.body

def programEnd (host : Host σ) : Completion → Eval σ Unit
  | .normal => return
  | _ => observe host .strayJump

def unitFrame (filename : Option String) : Frame :=
  ⟨none, filename, 0, .undefined⟩

def opensScope : Option Stmt → Bool
  | some (.declare kind _ _) => kind ≠ .var
  | _ => false

def receiverProperty (receiver : Value) (key : String) : Eval σ (Option Value) :=
  match receiver with
  | .object id => ownProperty id key
  | _ => return none

def holds : Option (Eval σ Value) → Eval σ Bool
  | some c => do
    let v ← c
    return v.isTruthy
  | none => return true

def advance (line : Nat) : Option (Eval σ Value) → Eval σ Unit
  | some step => do
    setLine line
    let _ ← step
  | none => return

def caught? : Except Stop Completion → Option Value
  | .error (.thrown v _ _) => some v
  | _ => none

def runsFinalizer : Except Stop Completion → Bool
  | .ok _ | .error (.thrown ..) => true
  | _ => false

def handledBy (host : Host σ) (handler : Option (Value → Eval σ Completion))
    (r : Except Stop Completion) : Eval σ (Except Stop Completion) :=
  match handler, caught? r with
  | some handle, some v => do
    observe host .handlerBegins
    attempt (handle v)
  | _, _ => return r

def overriddenBy (r : Except Stop Completion) : Completion → Eval σ Completion
  | .normal => conclude r
  | c => return c

/-- Runs the final part unless the run was stopped. A final part that ends abruptly overrides
what came before. -/
def finishedBy (host : Host σ) (finalizer : Option (Eval σ Completion))
    (r : Except Stop Completion) : Eval σ Completion :=
  match finalizer with
  | none => conclude r
  | some last =>
    if runsFinalizer r then do
      observe host .finalizerBegins
      overriddenBy r (← last)
    else conclude r

def guarded (host : Host σ) (body : Eval σ Completion)
    (handler : Option (Value → Eval σ Completion)) (finalizer : Option (Eval σ Completion)) :
    Eval σ Completion := do
  let r ← handledBy host handler (← attempt body)
  finishedBy host finalizer r

mutual

def expr (host : Host σ) : Nat → Expr → Eval σ Value
  | 0, _ => throw .outOfFuel
  | n + 1, e =>
    match e with
    | .number x _ => return .number x
    | .text s _ => return .text s
    | .bool b _ => return .bool b
    | .null _ => return .null
    | .name x _ => readVariable host x
    | .array es _ => do
      let vs ← exprs host n es
      newArray vs.toArray
    | .object es _ => do
      let v ← allocate (.ofKind .plain)
      entries host n v es
      return v
    | .function f _ => makeClosure f
    | .unary op e _ => unary host n op e
    | .update op before e _ => update host n op before e
    | .binary op a b _ => do
      let v ← expr host n a
      let w ← expr host n b
      ask (·.binary op v w)
    | .logical op a b _ => do
      let v ← expr host n a
      if v.isTruthy = (op = .or) then return v else expr host n b
    | .assign op e value _ => assign host n op e value
    | .conditional c a b _ => do
      let v ← expr host n c
      if v.isTruthy then expr host n a else expr host n b
    | .member e key _ => do
      let base ← expr host n e
      getProperty host base key e.describe
    | .index e i _ => do
      let base ← expr host n e
      let v ← expr host n i
      let key ← ask (·.propertyKey v)
      getProperty host base key e.describe
    | .call f args place => call host n f args place
    | .sequence es _ => sequence host n es
termination_by structural n => n

/-- Values of expressions from left to right. -/
def exprs (host : Host σ) : Nat → List Expr → Eval σ (List Value)
  | 0, _ => throw .outOfFuel
  | _ + 1, [] => return []
  | n + 1, e :: es => do
    let v ← expr host n e
    let vs ← exprs host n es
    return v :: vs
termination_by structural n => n

/-- The value of the last expression. -/
def sequence (host : Host σ) : Nat → List Expr → Eval σ Value
  | 0, _ => throw .outOfFuel
  | _ + 1, [] => return .undefined
  | n + 1, [e] => expr host n e
  | n + 1, e :: es => do
    let _ ← expr host n e
    sequence host n es
termination_by structural n => n

/-- Evaluates the entries of an object literal into the object. -/
def entries (host : Host σ) : Nat → Value → List (String × Expr) → Eval σ Unit
  | 0, _, _ => throw .outOfFuel
  | _ + 1, _, [] => return
  | n + 1, o, (key, e) :: es => do
    let v ← expr host n e
    putProperty host o key v ""
    entries host n o es
termination_by structural n => n

def unary (host : Host σ) : Nat → UnaryOp → Expr → Eval σ Value
  | 0, _, _ => throw .outOfFuel
  | n + 1, op, e =>
    match op, e with
    | .typeof, .name x _ => do
      let v ← readVariable? host x
      return .text (← look (·.typeName (v.getD .undefined)))
    | _, _ => do
      let v ← expr host n e
      ask (·.unary op v)
termination_by structural n => n

/-- Evaluates the parts of an assignment's target, once. -/
def reference (host : Host σ) : Nat → Expr → Eval σ Reference
  | 0, _ => throw .outOfFuel
  | n + 1, e =>
    match e with
    | .name x _ => return .variable x
    | .member e key _ => do
      let base ← expr host n e
      return .property base key
    | .index e i _ => do
      let base ← expr host n e
      let v ← expr host n i
      return .property base (← ask (·.propertyKey v))
    | _ => do
      observe host .noTarget
      raise host .referenceError "invalid assignment left-hand side"
termination_by structural n => n

def update (host : Host σ) : Nat → UpdateOp → Bool → Expr → Eval σ Value
  | 0, _, _, _ => throw .outOfFuel
  | n + 1, op, before, e => do
    let r ← reference host n e
    let v ← getReference host e r
    let old ← ask (·.number v)
    let new := op.apply old
    putReference host e (.number new) r
    return .number (if before then new else old)
termination_by structural n => n

def assign (host : Host σ) : Nat → Option BinaryOp → Expr → Expr → Eval σ Value
  | 0, _, _, _ => throw .outOfFuel
  | n + 1, op, e, value => do
    let r ← reference host n e
    match op with
    | none =>
      let v ← expr host n value
      putReference host e v r
      return v
    | some op =>
      let old ← getReference host e r
      let w ← expr host n value
      let v ← ask (·.binary op old w)
      putReference host e v r
      return v
termination_by structural n => n

def call (host : Host σ) : Nat → Expr → List Expr → Location → Eval σ Value
  | 0, _, _, _ => throw .outOfFuel
  | n + 1, f, args, place =>
    match f with
    | .member e key _ => do
      let receiver ← expr host n e
      let vs ← exprs host n args
      setLine place.line
      callMethod host n receiver key vs f
    | .index e i _ => do
      let receiver ← expr host n e
      let v ← expr host n i
      let key ← ask (·.propertyKey v)
      let vs ← exprs host n args
      setLine place.line
      callMethod host n receiver key vs f
    | _ => do
      let v ← expr host n f
      let vs ← exprs host n args
      setLine place.line
      callValue host n v vs f.describe
termination_by structural n => n

/-- Calls a method: a property of the receiver if it has it, else one that it has by its type. -/
def callMethod (host : Host σ) : Nat → Value → String → List Value → Expr → Eval σ Value
  | 0, _, _, _, _ => throw .outOfFuel
  | n + 1, receiver, key, args, f =>
    if receiver.isNothing then noProperties host (describeBase f)
    else do
      match ← receiverProperty receiver key with
      | some v => callValue host n v args f.describe
      | none =>
        match ← located host (Library.method receiver key args) with
        | some v => return v
        | none => noFunction host f.describe
termination_by structural n => n

/-- Calls a value, which messages refer to by a description. -/
def callValue (host : Host σ) : Nat → Value → List Value → String → Eval σ Value
  | 0, _, _, _ => throw .outOfFuel
  | n + 1, callee, args, description => do
    match ← look (·.callable? callee) with
    | some (.script c) => inCall host callee c args (statements host n c.def_.body)
    | some (.native .load) => located host (load host n args)
    | some (.native f) => located host (Library.call host f args)
    | none => noFunction host description
termination_by structural n => n

/-- Runs files one after the other at the top level. -/
def load (host : Host σ) : Nat → List Value → Eval σ Value
  | 0, _ => throw .outOfFuel
  | _ + 1, [] => return .undefined
  | n + 1, v :: vs => do
    let name ← ask (·.text v)
    let p ← openUnit host name
    let _ ← inFrame (unitFrame (some name)) (program host n p)
    load host n vs
termination_by structural n => n

/-- Runs a program at the top level and gives the value of its last expression statement. -/
def program (host : Host σ) : Nat → Program → Eval σ Value
  | 0, _ => throw .outOfFuel
  | n + 1, p => do
    declareProgram host p
    programEnd host (← statements host n p.body)
    return (← frame).lastValue
termination_by structural n => n

/-- Runs statements up to the first that ends abruptly. -/
def statements (host : Host σ) : Nat → List Stmt → Eval σ Completion
  | 0, _ => throw .outOfFuel
  | _ + 1, [] => return .normal
  | n + 1, s :: rest => do
    match ← statement host n s with
    | .normal => statements host n rest
    | c => return c
termination_by structural n => n

def block (host : Host σ) : Nat → List Stmt → Eval σ Completion
  | 0, _ => throw .outOfFuel
  | n + 1, body =>
    inBlockScope fun _ => do
      hoistFunctions host body
      statements host n body
termination_by structural n => n

def statement (host : Host σ) : Nat → Stmt → Eval σ Completion
  | 0, _ => throw .outOfFuel
  | n + 1, s => do
    setLine s.place.line
    observe host (.statement s)
    match s with
    | .declare kind ds _ => declarators host n kind ds
    | .function _ _ => return .normal
    | .expr e _ =>
      let v ← expr host n e
      setLastValue v
      return .normal
    | .if_ c yes no _ =>
      let v ← expr host n c
      if v.isTruthy then statement host n yes
      else
        match no with
        | some no => statement host n no
        | none => return .normal
    | .while c body place => whileLoop host n c body place.line
    | .doWhile body c place => doLoop host n body c place.line
    | .for_ init c step body place =>
      if opensScope init then
        inBlockScope fun _ => forLoop host n init c step body place.line
      else forLoop host n init c step body place.line
    | .block body _ => block host n body
    | .return_ e _ =>
      match e with
      | some e => return .return_ (← expr host n e)
      | none => return .return_ .undefined
    | .break_ _ => return .break_
    | .continue_ _ => return .continue_
    | .throw e _ =>
      let line := (← frame).line
      let v ← expr host n e
      throwAt host v (← frame).filename line
    | .try_ body handler finalizer _ => tryBlock host n body handler finalizer
    | .empty _ => return .normal
termination_by structural n => n

def declarators (host : Host σ) : Nat → DeclKind → List Declarator → Eval σ Completion
  | 0, _, _ => throw .outOfFuel
  | _ + 1, _, [] => return .normal
  | n + 1, kind, .mk name init place :: rest => do
    setLine place.line
    match kind, init with
    | .var, none => pure ()
    | .var, some e =>
      let v ← expr host n e
      writeVariable host name v
    | _, none => declareLocal name .undefined (kind = .let_)
    | _, some e =>
      let v ← expr host n e
      declareLocal name v (kind = .let_)
    declarators host n kind rest
termination_by structural n => n

def whileLoop (host : Host σ) : Nat → Expr → Stmt → Nat → Eval σ Completion
  | 0, _, _, _ => throw .outOfFuel
  | n + 1, c, body, line => do
    setLine line
    let v ← expr host n c
    if v.isTruthy then
      match ← statement host n body with
      | .normal | .continue_ =>
        branch host line
        whileLoop host n c body line
      | .break_ => return .normal
      | .return_ v => return .return_ v
    else return .normal
termination_by structural n => n

def doLoop (host : Host σ) : Nat → Stmt → Expr → Nat → Eval σ Completion
  | 0, _, _, _ => throw .outOfFuel
  | n + 1, body, c, line => do
    match ← statement host n body with
    | .normal | .continue_ =>
      setLine line
      let v ← expr host n c
      if v.isTruthy then
        branch host line
        doLoop host n body c line
      else return .normal
    | .break_ => return .normal
    | .return_ v => return .return_ v
termination_by structural n => n

def forLoop (host : Host σ) :
    Nat → Option Stmt → Option Expr → Option Expr → Stmt → Nat → Eval σ Completion
  | 0, _, _, _, _, _ => throw .outOfFuel
  | n + 1, init, c, step, body, line => do
    match init with
    | some s =>
      let _ ← statement host n s
    | none => pure ()
    forRounds host n c step body line
termination_by structural n => n

/-- The rounds of a `for` loop. -/
def forRounds (host : Host σ) :
    Nat → Option Expr → Option Expr → Stmt → Nat → Eval σ Completion
  | 0, _, _, _, _ => throw .outOfFuel
  | n + 1, c, step, body, line => do
    setLine line
    if ← holds (c.map (expr host n)) then
      match ← statement host n body with
      | .normal | .continue_ =>
        advance line (step.map (expr host n))
        branch host line
        forRounds host n c step body line
      | .break_ => return .normal
      | .return_ v => return .return_ v
    else return .normal
termination_by structural n => n

def tryBlock (host : Host σ) :
    Nat → List Stmt → Option CatchClause → Option (List Stmt) → Eval σ Completion
  | 0, _, _, _ => throw .outOfFuel
  | n + 1, body, handler, finalizer =>
    guarded host (block host n body)
      (handler.map fun (.mk param body) v =>
        inBlockScope fun _ => do
          declareLocal param v true
          block host n body)
      (finalizer.map fun body => block host n body)

termination_by structural n => n
end

/-- A bound on the depth of evaluation that no machine reaches. -/
def plenty : Nat := 0x4000000000000000

end ScriptShell.Evaluation
