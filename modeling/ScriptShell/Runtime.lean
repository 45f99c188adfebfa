import ScriptShell.Machine
import ScriptShell.Scope

namespace ScriptShell

/-- What outlives a unit: variables, objects, options and memory. -/
structure Runtime where
  machine : Machine
  globals : Globals
  scopes : Scopes
  heap : Heap
  version : UInt32
  strict : Bool
  /-- The address that the stack must not pass on a call. -/
  stackLimit : Option Nat
  /-- Whether the host is told about loops. -/
  tellsBranches : Bool
  callDepth : Nat
  memory : Memory

/-- Where evaluation stands: the innermost scope, none at the top level, the unit and line, and
the value of the last expression statement. -/
structure Frame where
  scope : Option ScopeId
  filename : Option String
  line : Nat
  lastValue : Value

end ScriptShell
