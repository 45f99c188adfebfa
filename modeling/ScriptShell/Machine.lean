import ScriptShell.Heap
import ScriptShell.Memory

namespace ScriptShell

abbrev ForeignFunction : Type :=
  List Int → Memory → Except Fault (Int × Memory)

/-- The process that a shell runs in, as far as scripts can tell one from another. -/
structure Machine where
  /-- The address of the stack where a session begins. -/
  stackBase : Nat
  /-- The address of the stack at a depth of calls. -/
  stackAddress : Nat → Nat
  /-- The end of the data segment beside a heap. -/
  programBreak : Heap → Nat
  /-- The memory at the start. -/
  memory : Memory
  /-- The address of the function that finds functions by their names. -/
  symbolFinder : Nat
  function? : Nat → Option ForeignFunction
  /-- Where copies of texts are laid out for a call. -/
  textArea : Nat
  /-- What functions answer that were added from outside, by their names. -/
  answer : String → List Value → Value

namespace Machine

/-- A machine with nothing in reach of scripts. -/
def bare : Machine where
  stackBase := 0
  stackAddress _ := 0
  programBreak _ := 0
  memory := ⟨[]⟩
  symbolFinder := 0
  function? _ := none
  textArea := 0
  answer _ _ := .undefined

def slots : Nat := 8

/-- Calls the function at an address; missing arguments are zero. The copies of texts lie behind
the memory there was, and are dropped after the call. -/
def call (machine : Machine) (m : Memory) (address : Nat) (args : List ForeignArg) :
    Except Fault (Int × Memory) :=
  match machine.function? address with
  | none => .error .badAddress
  | some f => do
    let (words, placed) := ForeignArg.place m machine.textArea (args.take slots)
    let (word, later) ← f (words ++ List.replicate (slots - words.length) 0) placed
    return (word, ⟨later.regions.take m.regions.length⟩)

end Machine

end ScriptShell
