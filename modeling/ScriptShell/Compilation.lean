import ScriptShell.Evaluation

namespace ScriptShell

namespace Runtime

def toggleStrict (r : Runtime) : Bool × Runtime :=
  (!r.strict, { r with strict := !r.strict })

def sealGlobals (r : Runtime) : Bool × Runtime :=
  let (first, globals) := r.globals.close
  (first, { r with globals })

def setChunkSize (r : Runtime) (size : Nat) : Runtime :=
  { r with heap := r.heap.setChunkSize size }

def isCompilable (r : Runtime) (source : String) : Bool :=
  ScriptShell.isCompilable (r.parseOptions 1) source

end Runtime

def Report.inSource (r : Report) (filename : Option String) (source : String) (place : Location) :
    Report :=
  (r.locate filename place.line).withSource source place.offset

/-- Compiles a source and reports what is wrong or questionable about it. -/
def Runtime.compile {σ : Type} (r : Runtime) (host : Host σ) (filename : Option String)
    (startLine : Nat) (source : String) (state : σ) : Except ParseError Program × σ :=
  match Program.ofSource (r.parseOptions startLine) source with
  | .ok (p, warnings) =>
    (.ok p, warnings.foldl (fun state w =>
      host.report ((Report.warning w.remark.message w.remark.isStrict).inSource filename source
        w.place) state) state)
  | .error e =>
    (.error e, host.report ((Report.error e.fault.message).inSource filename source e.place) state)

/-- How a unit ended. -/
inductive Outcome where
  | value (v : Value)
  | stopped (s : Stop)

def uncaughtMessage (h : Heap) (v : Value) : Except Fault String := do
  let text ← h.text v
  match v with
  | .object id => return if (h.object id).isError then text else "uncaught exception: " ++ text
  | _ => return "uncaught exception: " ++ text

/-- The end of a unit that an exception left, which is reported. -/
def Runtime.uncaught {σ : Type} (host : Host σ) (v : Value) (file : Option String) (line : Nat)
    (s : Evaluation.State σ) : Outcome × Runtime × σ :=
  match uncaughtMessage s.runtime.heap v with
  | .ok message =>
    (.stopped (.thrown v file line), s.runtime,
      host.report ((Report.error message).locate file line) s.host)
  | .error f => (.stopped (.fault f), s.runtime, s.host)

/-- Runs a compiled unit at the top level and reports an exception that leaves it. -/
def Runtime.execute {σ : Type} (r : Runtime) (host : Host σ) (fuel : Nat)
    (filename : Option String) (p : Program) (state : σ) : Outcome × Runtime × σ :=
  match Evaluation.program host fuel p ⟨r, Evaluation.unitFrame filename, state⟩ with
  | .ok v s => (.value v, s.runtime, s.host)
  | .error (.thrown v file line) s => Runtime.uncaught host v file line s
  | .error stop s => (.stopped stop, s.runtime, s.host)

end ScriptShell
