import ScriptShell.Library.Methods

namespace ScriptShell.Library

open Evaluation

variable {σ α : Type}

def arg (args : List Value) (i : Nat) : Value :=
  args.getD i .undefined

/-- The largest or smallest number of all; of two that are equal the last one. -/
def extreme (better : Float → Float → Bool) (start : Float) (xs : List Float) : Float :=
  if xs.any Float.isNaN then Number.nan
  else xs.foldl (fun best x => if better best x then best else x) start

def math (f : MathFunction) (args : List Value) : Eval σ Value := do
  let one (g : Float → Float) : Eval σ Value := do
    return .number (g (← ask (·.number (arg args 0))))
  match f with
  | .floor => one Float.floor
  | .ceil => one Float.ceil
  | .abs => one Float.abs
  | .round => one fun x => (x + 0.5).floor
  | .sqrt => one Float.sqrt
  | .pow =>
    let base ← ask (·.number (arg args 0))
    let exponent ← ask (·.number (arg args 1))
    return .number (base ^ exponent)
  | .max =>
    let xs ← ask fun h => args.mapM h.number
    return .number (extreme (· > ·) (-Number.infinity) xs)
  | .min =>
    let xs ← ask fun h => args.mapM h.number
    return .number (extreme (· < ·) Number.infinity xs)

def newArrayOf (host : Host σ) (args : List Value) : Eval σ Value := do
  match args with
  | [.number x] =>
    if x < 0 || x != Number.truncate x || !x.isFinite || Number.ofNat (Number.words32 - 1) < x then
      raise host .rangeError "invalid array length"
    else newArray (Array.replicate (Number.toSize x) .undefined)
  | _ => newArray args.toArray

def eightDigits (n : Nat) : String :=
  let digits := Nat.toDigits 16 n
  String.ofList (List.replicate (8 - digits.length) '0' ++ digits)

def statisticsLine (s : Heap.Statistics) (programBreak : Nat) : String :=
  "before " ++ toString s.before ++ ", after " ++ toString s.after ++ ", break " ++
    eightDigits programBreak ++ "\n"

def readFile (host : Host σ) (name : String) : Eval σ (List UInt8) := do
  match host.file name with
  | .bytes content => return content
  | .failed e => raise host .error ("can't open " ++ name ++ ": " ++ e.message)
  | .unknown => throw (.wanting name)

def write (host : Host σ) (text : String) : Eval σ Unit :=
  modify fun s => { s with host := host.write text s.host }

def versionOf (x : Float) : UInt32 :=
  let n := Number.toInt64 x
  if 0 ≤ n ∧ n < Number.words32 then UInt32.ofNat n.toNat else 0

def addressArg (args : List Value) (i : Nat) : Eval σ Nat := do
  return addressOf (← ask (·.number (arg args i)))

def setMemory (r : Except Fault Memory) : Eval σ Unit := do
  let memory ← liftFault r
  modifyRuntime fun r => { r with memory }

def memory : Eval σ Memory := do
  return (← get).runtime.memory

def machine : Eval σ Machine := do
  return (← get).runtime.machine

def version : Eval σ UInt32 := do
  return (← get).runtime.version

def collect : Eval σ (Heap.Statistics × Nat) :=
  modifyGet fun s =>
    let (statistics, heap) := s.runtime.heap.collect
    let programBreak := s.runtime.machine.programBreak heap
    ((statistics, programBreak), { s with runtime := { s.runtime with heap } })

def quit (host : Host σ) (code : Option Int32) : Eval σ α := do
  observe host .quits
  modify fun s => { s with host := host.requestQuit code s.host }
  throw .aborted

/-- Calls a function that was given to scripts. -/
def call (host : Host σ) (f : Native) (args : List Value) : Eval σ Value := do
  match f with
  | .toText =>
    if args.isEmpty then return .text ""
    else return .text (← ask (·.text (arg args 0)))
  | .toNumber =>
    if args.isEmpty then return .number 0
    else return .number (← ask (·.number (arg args 0)))
  | .newArray => newArrayOf host args
  | .newError kind =>
    let message ← match arg args 0 with
      | .undefined => pure ""
      | v => ask (·.text v)
    newError kind message
  | .parseInt =>
    let text ← ask (·.text (arg args 0))
    let base ← match arg args 1 with
      | .undefined => pure 0
      | v => do pure (← ask (·.int32 v)).toInt
    return .number (Number.ofTextIn base text)
  | .parseFloat => return .number (Number.ofTextPrefix (← ask (·.text (arg args 0))))
  | .isNaN => return .bool (← ask (·.number (arg args 0))).isNaN
  | .fromCharCode =>
    let codes ← ask fun h => args.mapM h.uint32
    return .text (Text.ofUnits (codes.map fun n => n.toNat % 0x10000))
  | .math f => math f args
  | .print =>
    let texts ← ask fun h => args.mapM h.text
    write host (" ".intercalate texts ++ "\n")
    return .undefined
  | .quit =>
    let code ← match arg args 0 with
      | .undefined => pure none
      | v => some <$> ask (·.int32 v)
    quit host code
  | .collect =>
    let (statistics, programBreak) ← collect
    write host (statisticsLine statistics programBreak)
    return .undefined
  | .read =>
    let content ← readFile host (← ask (·.text (arg args 0)))
    return .text (String.ofList (content.map fun b => Char.ofNat b.toNat))
  | .version =>
    let previous ← version
    match arg args 0 with
    | .number x => modifyRuntime fun r => { r with version := versionOf x }
    | _ => pure ()
    return .number (Number.ofNat previous.toNat)
  | .symbolFinder => return .number (Number.ofNat (← machine).symbolFinder)
  | .callAddress =>
    match arg args 0 with
    | .number x =>
      let (word, later) ← liftFault
        ((← machine).call (← memory) (addressOf x) ((args.drop 1).map ForeignArg.ofValue))
      modifyRuntime fun r => { r with memory := later }
      return .number (Number.ofInt word)
    | _ => raise host .typeError "ffi_call target is not a number"
  | .peekByte =>
    let b ← liftFault ((← memory).readByte (← addressArg args 0))
    return .number (Number.ofNat b.toNat)
  | .pokeByte =>
    let x ← ask (·.number (arg args 1))
    let byte := UInt8.ofNat ((if x.isFinite then Number.toInt64 x else 0) % 256).toNat
    let address ← addressArg args 0
    setMemory ((← memory).writeByte address byte)
    return .undefined
  | .peekWord =>
    let w ← liftFault ((← memory).readWord (← addressArg args 0))
    return .number (Number.ofInt w.toInt)
  | .pokeWord =>
    let w ← ask (·.int32 (arg args 1))
    let address ← addressArg args 0
    setMemory ((← memory).writeWord address w)
    return .undefined
  | .embedded name _ => return (← machine).answer name args
  | .load => return .undefined

def allocateNative (f : Native) (h : Heap) : Value × Heap :=
  let (id, h) := h.allocate (.ofKind (.function (.native f)))
  (.object id, h)

end ScriptShell.Library

namespace ScriptShell.Runtime

def initial (machine : Machine) : Runtime :=
  { machine
    globals := .empty
    scopes := .empty
    heap := .new 8192
    version := 0
    strict := false
    stackLimit := none
    tellsBranches := false
    callDepth := 0
    memory := machine.memory }

def defineGlobal (r : Runtime) (name : String) (v : Value) : Runtime :=
  { r with globals := r.globals.define name v true }

def defineFunctions (r : Runtime) (fs : List Native) : Runtime :=
  fs.foldl (fun r f =>
    let (v, heap) := Library.allocateNative f r.heap
    { r with heap }.defineGlobal f.name v) r

def attach (r : Runtime) (id : ObjectId) (f : Native) : Runtime :=
  let (v, heap) := Library.allocateNative f r.heap
  { r with heap := heap.modify id (·.setProperty f.name v) }

def defineMath (r : Runtime) : Runtime :=
  let (id, heap) := r.heap.allocate default
  let r := MathFunction.all.foldl (fun r f => r.attach id (.math f)) { r with heap }
  let pi := Value.number (Float.ofBits 0x400921FB54442D18)
  { r with heap := r.heap.modify id (·.setProperty "PI" pi) }.defineGlobal "Math" (.object id)

/-- A runtime with the library of the language. -/
def new (machine : Machine) : Runtime :=
  let r := (initial machine).defineFunctions Native.library
  let r := r.defineGlobal "NaN" (.number Number.nan)
  let r := r.defineGlobal "Infinity" (.number Number.infinity)
  let r := r.defineGlobal "undefined" .undefined
  let r :=
    match r.globals.get? "String" with
    | some (.object id) => r.attach id .fromCharCode
    | _ => r
  r.defineMath

def forShell (machine : Machine) : Runtime :=
  ((new machine).defineFunctions Native.shell).defineFunctions Native.bridge

end ScriptShell.Runtime
