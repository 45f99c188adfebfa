namespace ScriptShell

abbrev ObjectId := Nat

abbrev ScopeId := Nat

inductive Value where
  | undefined
  | null
  | bool (value : Bool)
  | number (value : Float)
  | text (value : String)
  | object (id : ObjectId)

namespace Value

instance : Inhabited Value :=
  ⟨.undefined⟩

def isNothing : Value → Bool
  | .undefined | .null => true
  | _ => false

/-- Whether a condition holds. -/
def isTruthy : Value → Bool
  | .undefined | .null => false
  | .bool b => b
  | .number x => x != 0 && !x.isNaN
  | .text s => !s.isEmpty
  | .object _ => true

end Value

/-- What stops a run without being an exception of the script: states from which there is no
way on. -/
inductive Fault where
  /-- The text of an array or error was asked for that contains itself. -/
  | cyclicText
  /-- An object was read in the middle of a change to it. -/
  | busyObject
  /-- The largest index has no successor. -/
  | indexOverflow
  /-- An array would take more bytes than a signed word counts. -/
  | capacityOverflow
  /-- An address where there is no memory or no function. -/
  | badAddress
  deriving DecidableEq, Repr

end ScriptShell
