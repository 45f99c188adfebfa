import ScriptShell.Number.Integer
import ScriptShell.Value

namespace ScriptShell

structure Region where
  start : Nat
  bytes : Array UInt8
  deriving DecidableEq, Repr

structure Memory where
  regions : List Region
  deriving DecidableEq, Repr

def wrapWord (n : Int) : Int :=
  Int.bmod n Number.words64

def addressOfWord (word : Int) : Nat :=
  (word % Number.words64).toNat

def addressOf (x : Float) : Nat :=
  if x.isFinite then addressOfWord (Number.toInt64 x) else 0

def Region.holds (r : Region) (address : Nat) : Bool :=
  r.start ≤ address && address < r.start + r.bytes.size

namespace Memory

def readByte (m : Memory) (address : Nat) : Except Fault UInt8 :=
  match m.regions.find? (·.holds address) with
  | some r => .ok (r.bytes.getD (address - r.start) 0)
  | none => .error .badAddress

def writeIn (address : Nat) (b : UInt8) : List Region → Option (List Region)
  | [] => none
  | r :: rest =>
    if r.holds address then
      some ({ r with bytes := r.bytes.setIfInBounds (address - r.start) b } :: rest)
    else (writeIn address b rest).map (r :: ·)

def writeByte (m : Memory) (address : Nat) (b : UInt8) : Except Fault Memory :=
  match writeIn address b m.regions with
  | some regions => .ok ⟨regions⟩
  | none => .error .badAddress

/-- Four bytes, the lowest first, as a signed number. -/
def readWord (m : Memory) (address : Nat) : Except Fault Int32 := do
  let b₀ ← m.readByte address
  let b₁ ← m.readByte (address + 1)
  let b₂ ← m.readByte (address + 2)
  let b₃ ← m.readByte (address + 3)
  let low := b₀.toUInt32 ||| b₁.toUInt32 <<< 8
  let high := b₂.toUInt32 <<< 16 ||| b₃.toUInt32 <<< 24
  return (low ||| high).toInt32

def writeWord (m : Memory) (address : Nat) (word : Int32) : Except Fault Memory := do
  let w := word.toUInt32
  let m ← m.writeByte address w.toUInt8
  let m ← m.writeByte (address + 1) (w >>> 8).toUInt8
  let m ← m.writeByte (address + 2) (w >>> 16).toUInt8
  m.writeByte (address + 3) (w >>> 24).toUInt8

end Memory

/-- An argument of a call by address. -/
inductive ForeignArg where
  | integer (word : Int)
  /-- Passed as the address of a copy with a zero behind it. -/
  | text (bytes : List UInt8)
  | absent
  deriving DecidableEq, Repr

namespace ForeignArg

def ofText (s : String) : ForeignArg :=
  .text (s.toUTF8.toList.takeWhile (· ≠ 0))

def ofValue : Value → ForeignArg
  | .number x => .integer (if x.isFinite then Number.toInt64 x else 0)
  | .text s => ofText s
  | _ => .absent

/-- The words of arguments, with copies of texts laid out from an address on. -/
def place (m : Memory) (address : Nat) : List ForeignArg → List Int × Memory
  | [] => ([], m)
  | .integer n :: rest =>
    let (words, m) := place m address rest
    (n :: words, m)
  | .absent :: rest =>
    let (words, m) := place m address rest
    (0 :: words, m)
  | .text bytes :: rest =>
    let region : Region := ⟨address, (bytes ++ [0]).toArray⟩
    let (words, m) := place ⟨m.regions ++ [region]⟩ (address + bytes.length + 1) rest
    (address :: words, m)

end ForeignArg

end ScriptShell
