import ScriptShell.Heap
import ScriptShell.Number.Literal
import ScriptShell.Number.Text

namespace ScriptShell

namespace Heap

def callable? (h : Heap) : Value → Option Callable
  | .object id => (h.object id).callable?
  | _ => none

def isCallable (h : Heap) (v : Value) : Bool :=
  (h.callable? v).isSome

/-- The name of a value's type. -/
def typeName (h : Heap) (v : Value) : String :=
  match v with
  | .undefined => "undefined"
  | .null => "object"
  | .bool _ => "boolean"
  | .number _ => "number"
  | .text _ => "string"
  | .object _ => if h.isCallable v then "function" else "object"

/-- The text of a value, with objects nested at most so deep. -/
def textWithin (h : Heap) (busy : Option ObjectId) : Nat → Value → Except Fault String
  | _, .undefined => .ok "undefined"
  | _, .null => .ok "null"
  | _, .bool b => .ok (if b then "true" else "false")
  | _, .number x => .ok (Number.text x)
  | _, .text s => .ok s
  | 0, .object _ => .error .cyclicText
  | depth + 1, .object id =>
    if busy = some id then .error .busyObject
    else
      let o := h.object id
      match o.kind with
      | .plain => .ok "[object Object]"
      | .array elements => do
        let parts ← elements.toList.mapM fun v =>
          if v.isNothing then .ok "" else h.textWithin busy depth v
        .ok (",".intercalate parts)
      | .error => do
        let name ← ((o.properties.get? "name").map (h.textWithin busy depth)).getD (.ok "Error")
        let message ← ((o.properties.get? "message").map (h.textWithin busy depth)).getD (.ok "")
        .ok (if message.isEmpty then name else name ++ ": " ++ message)
      | .function f => .ok f.text

/-- The text of a value. Objects nested deeper than there are objects contain themselves. -/
def text (h : Heap) (v : Value) : Except Fault String :=
  h.textWithin none h.objects.size v

/-- The number a value stands for while an object may be busy. -/
def numberUnless (h : Heap) (busy : Option ObjectId) : Value → Except Fault Float
  | .undefined => .ok Number.nan
  | .null => .ok 0
  | .bool b => .ok (if b then 1 else 0)
  | .number x => .ok x
  | .text s => .ok (Number.ofText s)
  | .object id =>
    if busy = some id then .error .busyObject
    else if (h.object id).elements?.isSome then
      (h.textWithin busy h.objects.size (.object id)).map Number.ofText
    else .ok Number.nan

def number (h : Heap) (v : Value) : Except Fault Float :=
  h.numberUnless none v

def int32 (h : Heap) (v : Value) : Except Fault Int32 :=
  (h.number v).map Number.toInt32

def uint32 (h : Heap) (v : Value) : Except Fault UInt32 :=
  (h.number v).map Number.toUInt32

def primitive (h : Heap) (v : Value) : Except Fault Value :=
  match v with
  | .object _ => (h.text v).map .text
  | _ => .ok v

end Heap

/-- Equality without conversion. Objects are equal to themselves only. -/
def Value.strictEquals : Value → Value → Bool
  | .undefined, .undefined | .null, .null => true
  | .bool a, .bool b => a = b
  | .number a, .number b => a == b
  | .text a, .text b => a = b
  | .object a, .object b => a = b
  | _, _ => false

namespace Heap

def withoutBool : Value → Value
  | .bool b => .number (if b then 1 else 0)
  | v => v

/-- Equality of values that are neither truth values nor nothing. -/
def unboxedEquals (h : Heap) : Value → Value → Except Fault Bool
  | .object a, .object b => .ok (a = b)
  | .object a, v => do
    let s ← h.text (.object a)
    match v with
    | .number y => .ok (Number.ofText s == y)
    | v => .ok (Value.strictEquals (.text s) v)
  | v, .object b => do
    let s ← h.text (.object b)
    match v with
    | .number x => .ok (x == Number.ofText s)
    | v => .ok (Value.strictEquals v (.text s))
  | .number x, .text s => .ok (x == Number.ofText s)
  | .text s, .number x => .ok (Number.ofText s == x)
  | v, w => .ok (v.strictEquals w)

/-- Equality after conversion: undefined and null equal each other only, truth values count as
numbers, objects as their texts, and texts as numbers beside a number. -/
def looseEquals (h : Heap) (v w : Value) : Except Fault Bool :=
  if v.isNothing || w.isNothing then .ok (v.isNothing && w.isNothing)
  else h.unboxedEquals (withoutBool v) (withoutBool w)

/-- What setting a property does to an object. The length of an array cuts or pads it, an index
beyond its end pads it, and a length that is no size changes nothing. -/
def propertyChange (h : Heap) (id : ObjectId) (key : String) (v : Value) :
    Except Fault (Object → Object) :=
  match (h.object id).kind with
  | .array elements =>
    if key = "length" then do
      let length ← h.numberUnless (some id) v
      if 0 ≤ length && length.isFinite then
        let n := Number.toSize length
        (checkLength elements n).map fun _ o => o.modifyElements (resized · n)
      else .ok fun o => o
    else
      match arrayIndex? key with
      | some i =>
        (checkLength elements (i + 1)).map fun _ o => o.modifyElements (Object.setElement · i v)
      | none => .ok fun o => o.setProperty key v
  | _ => .ok fun o => o.setProperty key v

def setProperty (h : Heap) (id : ObjectId) (key : String) (v : Value) : Except Fault Heap :=
  (h.propertyChange id key v).map (h.modify id)

end Heap

end ScriptShell
