import ScriptShell.Number.Binary

namespace ScriptShell.Number

def words32 : Nat := 0x100000000

def words64 : Nat := 0x10000000000000000

def wholePart (m : Nat) (e : Int) : Nat :=
  if 0 ≤ e then m * Nat.pow 2 e.toNat else m / Nat.pow 2 (-e).toNat

/-- A finite number cut toward zero. -/
def integerPart (x : Float) : Int :=
  let b := Binary.ofFloat x
  let n : Int := wholePart b.mantissa b.exponent
  if b.negative then -n else n

def toUInt32 (x : Float) : UInt32 :=
  if x.isFinite then UInt32.ofNat (integerPart x % words32).toNat else 0

def toInt32 (x : Float) : Int32 :=
  (toUInt32 x).toInt32

def maxInt64 : Int := 0x7fffffffffffffff

def minInt64 : Int := -0x8000000000000000

def toInt64 (x : Float) : Int :=
  if x.isNaN then 0
  else if x.isFinite then max minInt64 (min maxInt64 (integerPart x))
  else if 0 < x then maxInt64
  else minInt64

/-- The integer part as a size of at most 64 bits, zero below one. -/
def toSize (x : Float) : Nat :=
  if x.isNaN then 0
  else if x.isFinite then min (words64 - 1) (integerPart x).toNat
  else if 0 < x then words64 - 1
  else 0

def ofInt (n : Int) : Float :=
  if n < 0 then -ofRatio n.natAbs 1 else ofRatio n.natAbs 1

def ofNat (n : Nat) : Float :=
  ofRatio n 1

/-- How many of the bits of a number stand for fractions: all but the sign if it is smaller than
one, none if it is too large to have a fraction or not finite. -/
def fractionBits (bits : Nat) : Nat :=
  let field := bits / leadingBit % 2048
  if field < 1023 then 63 else 1075 - field

def truncate (x : Float) : Float :=
  let bits := x.toBits.toNat
  Float.ofBits (bits - bits % Nat.pow 2 (fractionBits bits)).toUInt64

/-- What division of `x` by `y` leaves, with the sign of `x`. -/
def remainder (x y : Float) : Float :=
  if x.isNaN || y.isNaN || !x.isFinite || y == 0 then 0.0 / 0.0
  else if !y.isFinite then x
  else
    let a := Binary.ofFloat x
    let b := Binary.ofFloat y
    let e := min a.exponent b.exponent
    let p := a.mantissa * Nat.pow 2 (a.exponent - e).toNat
    let q := b.mantissa * Nat.pow 2 (b.exponent - e).toNat
    let size := ofScaled (p % q) e
    if a.negative then -size else size

end ScriptShell.Number
