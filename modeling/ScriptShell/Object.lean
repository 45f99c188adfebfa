import ScriptShell.Dict
import ScriptShell.Native
import ScriptShell.Number.Literal
import ScriptShell.Program
import ScriptShell.Text.Class
import ScriptShell.Value

namespace ScriptShell

/-- A function of a script with the scope it was made in, none at the top level, and the
name of the unit it comes from. -/
structure Closure where
  def_ : FunctionDef
  scope : Option ScopeId
  filename : Option String

inductive Callable where
  | script (closure : Closure)
  | native (f : Native)

inductive ObjectKind where
  | plain
  | array (elements : Array Value)
  | error
  | function (f : Callable)

structure Object where
  kind : ObjectKind
  properties : Dict Value

instance : Inhabited Object :=
  ⟨⟨.plain, .empty⟩⟩

/-- The element a property name denotes: a decimal without leading zeros that fits 64 bits. -/
def arrayIndex? (key : String) : Option Nat :=
  let digits := key.toList
  if digits.isEmpty || (digits.length > 1 && digits.head? = some '0') then none
  else if !digits.all Char.isDigit then none
  else
    let n := Number.ofDigits digits
    if n < Number.words64 then some n else none

/-- The most elements of 24 bytes that a signed word can count the bytes of. -/
def maxLength : Nat := (Nat.pow 2 63 - 1) / 24

def checkLength (elements : Array Value) (length : Nat) : Except Fault Unit :=
  if length ≤ elements.size then .ok ()
  else if Number.words64 ≤ length then .error .indexOverflow
  else if maxLength < length then .error .capacityOverflow
  else .ok ()

def resized (elements : Array Value) (length : Nat) : Array Value :=
  if length < elements.size then elements.shrink length
  else elements ++ Array.replicate (length - elements.size) .undefined

namespace Callable

def name : Callable → String
  | .script c => c.def_.name.getD ""
  | .native f => f.name

def arity : Callable → Nat
  | .script c => c.def_.params.length
  | .native f => f.arity

def text : Callable → String
  | .script c =>
    "function " ++ c.def_.name.getD "" ++ "(" ++ ", ".intercalate c.def_.params ++
      ") \x7b\n    [script code]\n\x7d"
  | .native f => "function " ++ f.name ++ "() \x7b\n    [native code]\n\x7d"

end Callable

namespace Object

def ofKind (kind : ObjectKind) : Object :=
  ⟨kind, .empty⟩

def className (o : Object) : String :=
  match o.kind with
  | .plain => "Object"
  | .array _ => "Array"
  | .error => "Error"
  | .function _ => "Function"

def elements? (o : Object) : Option (Array Value) :=
  match o.kind with
  | .array elements => some elements
  | _ => none

def callable? (o : Object) : Option Callable :=
  match o.kind with
  | .function f => some f
  | _ => none

def isError (o : Object) : Bool :=
  match o.kind with
  | .error => true
  | _ => false

/-- A property of the object: of an array also its length and elements, of a function also
its name and length unless they were overwritten. -/
def get? (o : Object) (key : String) : Option Value :=
  match o.kind with
  | .array elements =>
    if key = "length" then some (.number (Number.ofNat elements.size))
    else
      match arrayIndex? key with
      | some i => elements[i]?
      | none => o.properties.get? key
  | .function f =>
    match o.properties.get? key with
    | some v => some v
    | none =>
      if key = "length" then some (.number (Number.ofNat f.arity))
      else if key = "name" then some (.text f.name)
      else none
  | _ => o.properties.get? key

def setProperty (o : Object) (key : String) (v : Value) : Object :=
  { o with properties := o.properties.insert key v }

def setElement (elements : Array Value) (i : Nat) (v : Value) : Array Value :=
  if i < elements.size then elements.set! i v
  else (resized elements i).push v

def modifyElements (o : Object) (f : Array Value → Array Value) : Object :=
  match o with
  | ⟨.array elements, properties⟩ => ⟨.array (f elements), properties⟩
  | o => o

/-- Memory taken by an object, counted in the units that statistics are given in. -/
def footprint (o : Object) : Nat :=
  let elements := (o.elements?.map Array.size).getD 0
  72 + o.properties.keys.foldr (fun k n => k.utf8ByteSize + 24 + n) 0 + elements * 24

def cleared : Object :=
  ⟨.plain, .empty⟩

end Object

end ScriptShell
