import ScriptShell.Evaluation.State
import ScriptShell.Number.Radix
import ScriptShell.Text.Case
import ScriptShell.Text.Split

namespace ScriptShell.Library

open Evaluation

variable {σ : Type}

def sizeValue (n : Nat) : Value :=
  .number (Number.ofNat n)

def foundValue (place : Option Nat) : Value :=
  (place.map sizeValue).getD (.number (-1))

/-- A place in a sequence; negative ones count from the end. -/
def relativeIndex (v : Option Value) (length default : Nat) : Eval σ Nat := do
  match v with
  | none | some .undefined => return default
  | some v =>
    let x ← ask (·.number v)
    let n := if x.isNaN then 0 else Number.truncate x
    let size := Number.ofNat length
    if n < 0 then return Number.toSize (if size + n < 0 then 0 else size + n)
    else return Number.toSize (if n < size then n else size)

/-- A place in a sequence, moved to the nearest one there is. -/
def clampedIndex (v : Option Value) (length default : Nat) : Eval σ Nat := do
  match v with
  | none | some .undefined => return default
  | some v =>
    let x ← ask (·.number v)
    let size := Number.ofNat length
    if x.isNaN then return 0
    else return Number.toSize (if x < 0 then 0 else if size < x then size else x)

def unitAt? (s : String) (v : Option Value) : Eval σ (Option Nat) := do
  let x ← match v with
    | none => pure 0
    | some v => ask (·.number v)
  return if 0 ≤ x then Text.unitAt? s (Number.toSize x) else none

def substring (s : String) (args : List Value) : Eval σ Value := do
  let length := Text.unitCount s
  let a ← clampedIndex args[0]? length 0
  let b ← clampedIndex args[1]? length length
  return .text (Text.cut s (min a b) (max a b))

def sliceBounds (length : Nat) (args : List Value) : Eval σ (Nat × Nat) := do
  let start ← relativeIndex args[0]? length 0
  let stop ← relativeIndex args[1]? length length
  return (start, stop)

def findText (s needle : String) (start : Nat) : Option Nat :=
  if needle.isEmpty then some (min start (Text.unitCount s))
  else (Text.indexOf? (Text.units needle) (Text.unitsFrom s start)).map (· + start)

def splitText (s : String) (separator : Option Value) : Eval σ (List Value) := do
  match separator with
  | none | some .undefined => return [.text s]
  | some v =>
    let t ← ask (·.text v)
    if t.isEmpty then return (Text.units s).map fun u => .text (Text.ofUnits [u])
    else return (Text.splitAt t s).map .text

def textMethod (s : String) (key : String) (args : List Value) : Eval σ (Option Value) := do
  match key with
  | "charAt" =>
    let u ← unitAt? s args[0]?
    return some (.text (Text.ofUnits u.toList))
  | "charCodeAt" =>
    let u ← unitAt? s args[0]?
    return some ((u.map sizeValue).getD (.number Number.nan))
  | "indexOf" =>
    let needle ← ask (·.text (args.getD 0 .undefined))
    let start ← clampedIndex args[1]? (Text.unitCount s) 0
    return some (foundValue (findText s needle start))
  | "split" =>
    let parts ← splitText s args[0]?
    some <$> newArray parts.toArray
  | "substring" => some <$> substring s args
  | "slice" =>
    let (start, stop) ← sliceBounds (Text.unitCount s) args
    return some (.text (Text.cut s start stop))
  | "toUpperCase" => return some (.text (Text.toUpper s))
  | "toLowerCase" => return some (.text (Text.toLower s))
  | "toString" => return some (.text s)
  | _ => return none

/-- Raises an error whose position the caller fills in. -/
def rangeError {α : Type} (message : String) : Eval σ α := do
  let v ← newError .rangeError message
  throw (.thrown v none 0)

def radixOf (v : Option Value) : Eval σ Int := do
  match v with
  | none | some .undefined => return 10
  | some v => return (← ask (·.int32 v)).toInt

def placesOf (v : Option Value) : Eval σ Float := do
  match v with
  | none => return 0
  | some v =>
    let x ← ask (·.number v)
    return if x.isNaN then 0 else Number.truncate x

def numberMethod (x : Float) (key : String) (args : List Value) : Eval σ (Option Value) := do
  match key with
  | "toString" =>
    let base ← radixOf args[0]?
    if 2 ≤ base ∧ base ≤ 36 then return some (.text (Number.radixText base.toNat x))
    else rangeError "illegal radix"
  | "toFixed" =>
    let places ← placesOf args[0]?
    if 0 ≤ places && places ≤ 20 then
      if !x.isFinite || 1e21 ≤ x.abs then return some (.text (Number.text x))
      else return some (.text (Number.fixedText (Number.toSize places) x))
    else rangeError "precision out of range"
  | _ => return none

def elementText (h : Heap) (v : Value) : Except Fault String :=
  if v.isNothing then .ok "" else h.text v

def joined (elements : List Value) (separator : Option Value) : Eval σ Value := do
  let separator ← match separator with
    | none | some .undefined => pure ","
    | some v => ask (·.text v)
  let parts ← ask fun h => elements.mapM (elementText h)
  return .text (separator.intercalate parts)

def spread (h : Heap) (v : Value) : Array Value :=
  match v with
  | .object id => (h.object id).elements?.getD #[v]
  | _ => #[v]

def push (elements : Array Value) (args : List Value) : Array Value :=
  args.foldl Array.push elements

def modifyElements (id : ObjectId) (f : Array Value → Array Value) : Eval σ Unit :=
  modifyHeap (·.modify id (·.modifyElements f))

def elementsOf (id : ObjectId) : Eval σ (Array Value) :=
  look fun h => (h.object id).elements?.getD #[]

def lastElement (id : ObjectId) : Eval σ Value := do
  return (← elementsOf id).back?.getD .undefined

def arrayMethod (id : ObjectId) (key : String) (args : List Value) : Eval σ (Option Value) := do
  match key with
  | "push" =>
    modifyElements id (push · args)
    return some (sizeValue (← elementsOf id).size)
  | "pop" =>
    let last ← lastElement id
    modifyElements id Array.pop
    return some last
  | "join" =>
    let elements ← elementsOf id
    some <$> joined elements.toList args[0]?
  | "slice" =>
    let elements ← elementsOf id
    let (start, stop) ← sliceBounds elements.size args
    some <$> newArray (elements.extract start stop)
  | "indexOf" =>
    let elements ← elementsOf id
    let start ← relativeIndex args[1]? elements.size 0
    let rest := elements.extract start elements.size
    let place := rest.findIdx? (·.strictEquals (args.getD 0 .undefined))
    return some (foundValue (place.map (· + start)))
  | "concat" =>
    let elements ← elementsOf id
    let all ← look fun h => args.foldl (fun all v => all ++ spread h v) elements
    some <$> newArray all
  | _ => return none

/-- Methods of every object. -/
def objectMethod (id : ObjectId) (key : String) (args : List Value) : Eval σ (Option Value) := do
  match key with
  | "toString" => return some (.text (← ask (·.text (.object id))))
  | "hasOwnProperty" =>
    let name ← match args with
      | [] => pure ""
      | v :: _ => ask (·.text v)
    return some (.bool (← ownProperty id name).isSome)
  | _ => return none

/-- Calls a method that the receiver has by its type; nothing if there is none. -/
def method (receiver : Value) (key : String) (args : List Value) : Eval σ (Option Value) := do
  match receiver with
  | .text s => textMethod s key args
  | .number x => numberMethod x key args
  | .bool b =>
    return if key = "toString" then some (.text (if b then "true" else "false")) else none
  | .object id =>
    if ← look fun h => (h.object id).elements?.isNone then objectMethod id key args
    else
      match ← arrayMethod id key args with
      | some v => return some v
      | none => objectMethod id key args
  | _ => return none

end ScriptShell.Library
