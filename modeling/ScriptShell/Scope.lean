import ScriptShell.Dict
import ScriptShell.Value

namespace ScriptShell

structure Binding where
  value : Value
  isMutable : Bool

/-- What became of writing to a name. -/
inductive Assigned where
  | done
  /-- The name is a constant. -/
  | constant
  /-- The name is bound in the sealed globals only. -/
  | sealedOff
  | notFound
  deriving DecidableEq, Repr

def hoist (bindings : Dict Binding) (name : String) : Dict Binding :=
  if bindings.contains name then bindings else bindings.insert name ⟨.undefined, true⟩

structure Scope where
  bindings : Dict Binding
  parent : Option ScopeId
  isFunction : Bool

instance : Inhabited Scope :=
  ⟨⟨.empty, none, false⟩⟩

/-- All scopes that were ever opened. A parent is always older than its children. -/
structure Scopes where
  scopes : Array Scope

namespace Scopes

def empty : Scopes :=
  ⟨#[]⟩

def open_ (s : Scopes) (parent : Option ScopeId) (isFunction : Bool) : ScopeId × Scopes :=
  (s.scopes.size, ⟨s.scopes.push ⟨.empty, parent, isFunction⟩⟩)

def modify (s : Scopes) (id : ScopeId) (f : Scope → Scope) : Scopes :=
  ⟨s.scopes.modify id f⟩

def declare (s : Scopes) (id : ScopeId) (name : String) (v : Value) (isMutable : Bool) : Scopes :=
  s.modify id fun scope => { scope with bindings := scope.bindings.insert name ⟨v, isMutable⟩ }

def hoist (s : Scopes) (id : ScopeId) (name : String) : Scopes :=
  s.modify id fun scope => { scope with bindings := ScriptShell.hoist scope.bindings name }

def contains (s : Scopes) (id : ScopeId) (name : String) : Bool :=
  ((s.scopes[id]?.map fun scope => scope.bindings.contains name)).getD false

/-- The nearest scope on the chain with a property, at most so many links away. -/
def nearest? (s : Scopes) (p : Scope → Bool) : Nat → ScopeId → Option ScopeId
  | 0, _ => none
  | links + 1, id =>
    match s.scopes[id]? with
    | none => none
    | some scope => if p scope then some id else scope.parent.bind (s.nearest? p links)

def find? (s : Scopes) (id : ScopeId) (name : String) : Option (ScopeId × Binding) :=
  (s.nearest? (fun scope => scope.bindings.contains name) s.scopes.size id).bind fun owner =>
    (s.scopes[owner]?.bind fun scope => scope.bindings.get? name).map fun b => (owner, b)

def lookup? (s : Scopes) (id : ScopeId) (name : String) : Option Value :=
  (s.find? id name).map fun found => found.2.value

/-- Writes to the nearest binding of a name. -/
def assign (s : Scopes) (id : ScopeId) (name : String) (v : Value) : Assigned × Scopes :=
  match s.find? id name with
  | none => (.notFound, s)
  | some (owner, b) =>
    if b.isMutable then (.done, s.declare owner name v true) else (.constant, s)

def outermost (s : Scopes) : Nat → ScopeId → ScopeId
  | 0, id => id
  | links + 1, id =>
    match s.scopes[id]?.bind (·.parent) with
    | none => id
    | some parent => s.outermost links parent

def functionScope (s : Scopes) (id : ScopeId) : ScopeId :=
  (s.nearest? (·.isFunction) s.scopes.size id).getD (s.outermost s.scopes.size id)

def clear (s : Scopes) (id : ScopeId) : Scopes :=
  s.modify id fun scope => { scope with bindings := .empty, parent := none }

end Scopes

/-- The global variables: the bindings that can be written, above those that were sealed. -/
structure Globals where
  top : Dict Binding
  below : Option (Dict Binding)

namespace Globals

def empty : Globals :=
  ⟨.empty, none⟩

def belowBinding? (g : Globals) (name : String) : Option Binding :=
  g.below.bind (·.get? name)

def get? (g : Globals) (name : String) : Option Value :=
  match g.top.get? name with
  | some b => some b.value
  | none => (g.belowBinding? name).map (·.value)

def contains (g : Globals) (name : String) : Bool :=
  g.top.contains name || (g.belowBinding? name).isSome

def define (g : Globals) (name : String) (v : Value) (isMutable : Bool) : Globals :=
  { g with top := g.top.insert name ⟨v, isMutable⟩ }

def hoist (g : Globals) (name : String) : Globals :=
  { g with top := ScriptShell.hoist g.top name }

def assign (g : Globals) (name : String) (v : Value) : Assigned × Globals :=
  match g.top.get? name with
  | some b => if b.isMutable then (.done, g.define name v true) else (.constant, g)
  | none => (if (g.belowBinding? name).isSome then .sealedOff else .notFound, g)

def isSealed (g : Globals) : Bool :=
  g.below.isSome

def close (g : Globals) : Bool × Globals :=
  if g.isSealed then (false, g) else (true, ⟨.empty, some g.top⟩)

def values (g : Globals) : List Value :=
  (g.top.values ++ (g.below.map Dict.values).getD []).map (·.value)

end Globals

end ScriptShell
