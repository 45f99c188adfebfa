namespace ScriptShell

def collectMask : UInt32 := 0x3fff

/-- The outcome of counting one round of a loop. -/
inductive Tick where
  | continue_
  | collect
  /-- The limit was reached and the count starts again. -/
  | limitReached
  deriving DecidableEq, Repr

structure Guard where
  branchCount : UInt32
  /-- Zero for no limit. -/
  branchLimit : UInt32
  stackBase : Nat
  /-- Zero for no limit. -/
  maxStack : Nat
  deriving DecidableEq, Repr

namespace Guard

def new (stackBase : Nat) : Guard :=
  ⟨0, 0, stackBase, 0⟩

def setBranchLimit (g : Guard) (limit : UInt32) : Guard :=
  { g with branchLimit := limit }

def setMaxStack (g : Guard) (size : Nat) : Guard :=
  { g with maxStack := size }

/-- Counts one round of a loop. -/
def tick (g : Guard) : Tick × Guard :=
  let count := g.branchCount + 1
  if g.branchLimit ≠ 0 ∧ g.branchLimit ≤ count then (.limitReached, { g with branchCount := 0 })
  else
    (if count &&& collectMask = collectMask then .collect else .continue_,
      { g with branchCount := count })

/-- The address that a stack from `base` downwards must not pass. -/
def stackLimitBelow (base maxStack : Nat) : Option Nat :=
  if maxStack = 0 then none else some (base - maxStack)

def stackLimit (g : Guard) : Option Nat :=
  stackLimitBelow g.stackBase g.maxStack

end Guard

end ScriptShell
