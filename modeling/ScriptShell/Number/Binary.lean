import ScriptShell.Number.Rounding

namespace ScriptShell.Number

/-- The number `mantissa * 2 ^ exponent`, negated if `negative`. -/
structure Binary where
  negative : Bool
  mantissa : Nat
  exponent : Int
  deriving DecidableEq, Repr

def leadingBit : Nat := 0x10000000000000

/-- The exact value of a finite number. -/
def Binary.ofFloat (x : Float) : Binary :=
  let bits := x.toBits.toNat
  let negative := bits / 0x8000000000000000 = 1
  let field : Nat := bits / leadingBit % 2048
  let fraction : Nat := bits % leadingBit
  if field = 0 then ⟨negative, fraction, -1074⟩
  else ⟨negative, leadingBit + fraction, (field : Int) - 1075⟩

def scaled (n d : Nat) (e : Int) : Nat × Nat :=
  if 0 ≤ e then (n * Nat.pow 2 e.toNat, d) else (n, d * Nat.pow 2 (-e).toNat)

/-- The bits of the number nearest to `num / den`, halfway the one with an even last bit.
A quotient that is rounded up to the next power of two carries into the exponent field. -/
def nearestBits (num den : Nat) : Nat :=
  if num = 0 then 0
  else
    let k : Int := (num.log2 : Int) - den.log2
    let at_k := scaled num den (-k)
    let e := max (-1074) (if at_k.1 < at_k.2 then k - 53 else k - 52)
    let q := scaled num den (-e)
    let m := roundDiv q.1 q.2
    let bits := if m < leadingBit then m else (e + 1074).toNat * leadingBit + m
    min bits (2047 * leadingBit)

def ofRatio (num den : Nat) : Float :=
  Float.ofBits (nearestBits num den).toUInt64

def ofScaled (m : Nat) (e : Int) : Float :=
  let q := scaled m 1 e
  ofRatio q.1 q.2

end ScriptShell.Number
