import ScriptShell.Machine

namespace ScriptShell.Machine.Hosted

def size (m : Memory) : Nat :=
  m.regions.foldr (fun r n => r.bytes.size + n) 0

def textFrom (m : Memory) : Nat → Nat → Except Fault (List UInt8)
  | 0, _ => .error .badAddress
  | n + 1, address => do
    let b ← m.readByte address
    if b = 0 then return []
    else
      let rest ← textFrom m n (address + 1)
      return b :: rest

def text (m : Memory) (address : Nat) : Except Fault (List UInt8) :=
  textFrom m (size m + 1) address

def word (words : List Int) (i : Nat) : Int :=
  words.getD i 0

def symbolFinder : Nat := 0x100000

def textLength : Nat := 0x100010

def absolute : Nat := 0x100020

def addressOfSymbol (name : List UInt8) : Nat :=
  if name = "strlen".toUTF8.toList then textLength
  else if name = "labs".toUTF8.toList then absolute
  else 0

def function? (address : Nat) : Option ForeignFunction :=
  if address = symbolFinder then some fun words m => do
    return (addressOfSymbol (← text m (addressOfWord (word words 1))), m)
  else if address = textLength then some fun words m => do
    return ((← text m (addressOfWord (word words 0))).length, m)
  else if address = absolute then some fun words m =>
    return (wrapWord (word words 0).natAbs, m)
  else none

/-- The machine as a program finds it: a call takes 256 bytes of the stack. -/
def machine : Machine where
  stackBase := 0x800000000000
  stackAddress depth := 0x800000000000 - 256 * (depth + 1)
  programBreak _ := 0
  memory := ⟨[]⟩
  symbolFinder := symbolFinder
  function? := function?
  textArea := 0x400000
  answer _ _ := .undefined

end ScriptShell.Machine.Hosted
