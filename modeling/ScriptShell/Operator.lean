import ScriptShell.Heap.Conversion

namespace ScriptShell

namespace Heap

def add (h : Heap) (v w : Value) : Except Fault Value := do
  match ← h.primitive v, ← h.primitive w with
  | .text s, w => return .text (s ++ (← h.text w))
  | v, .text t => return .text ((← h.text v) ++ t)
  | v, w => return .number ((← h.number v) + (← h.number w))

def compare (h : Heap) (texts : String → String → Bool) (numbers : Float → Float → Bool)
    (v w : Value) : Except Fault Value := do
  match ← h.primitive v, ← h.primitive w with
  | .text s, .text t => return .bool (texts s t)
  | v, w => return .bool (numbers (← h.number v) (← h.number w))

def arithmetic (h : Heap) (f : Float → Float → Float) (v w : Value) : Except Fault Value := do
  return .number (f (← h.number v) (← h.number w))

def bitwise (h : Heap) (f : Int32 → Int32 → Int32) (v w : Value) : Except Fault Value := do
  return .number (Number.ofInt (f (← h.int32 v) (← h.int32 w)).toInt)

def shiftAmount (h : Heap) (v : Value) : Except Fault UInt32 := do
  return (← h.uint32 v) &&& 31

def binary (h : Heap) (op : BinaryOp) (v w : Value) : Except Fault Value :=
  match op with
  | .add => h.add v w
  | .sub => h.arithmetic (· - ·) v w
  | .mul => h.arithmetic (· * ·) v w
  | .div => h.arithmetic (· / ·) v w
  | .mod => h.arithmetic Number.remainder v w
  | .eq => (h.looseEquals v w).map .bool
  | .ne => (h.looseEquals v w).map fun b => .bool !b
  | .strictEq => .ok (.bool (v.strictEquals w))
  | .strictNe => .ok (.bool !v.strictEquals w)
  | .lt => h.compare (· < ·) (· < ·) v w
  | .le => h.compare (· ≤ ·) (· ≤ ·) v w
  | .gt => h.compare (· > ·) (· > ·) v w
  | .ge => h.compare (· ≥ ·) (· ≥ ·) v w
  | .bitAnd => h.bitwise (· &&& ·) v w
  | .bitOr => h.bitwise (· ||| ·) v w
  | .bitXor => h.bitwise (· ^^^ ·) v w
  | .shiftLeft => do
    return .number (Number.ofInt ((← h.int32 v) <<< (← h.shiftAmount w).toInt32).toInt)
  | .shiftRight => do
    return .number (Number.ofInt ((← h.int32 v) >>> (← h.shiftAmount w).toInt32).toInt)
  | .shiftRightZero => do
    return .number (Number.ofNat ((← h.uint32 v) >>> (← h.shiftAmount w)).toNat)

def unary (h : Heap) (op : UnaryOp) (v : Value) : Except Fault Value :=
  match op with
  | .neg => (h.number v).map fun x => .number (-x)
  | .plus => (h.number v).map .number
  | .not => .ok (.bool !v.isTruthy)
  | .bitNot => (h.int32 v).map fun n => .number (Number.ofInt (~~~n).toInt)
  | .typeof => .ok (.text (h.typeName v))
  | .void => .ok .undefined

end Heap

def UpdateOp.apply : UpdateOp → Float → Float
  | .increment, x => x + 1
  | .decrement, x => x - 1

def Heap.propertyKey (h : Heap) (v : Value) : Except Fault String :=
  h.text v

end ScriptShell
