import ScriptShell.Number.Binary

namespace ScriptShell.Number

/-- The number `digits * 10 ^ exponent`. -/
structure Decimal where
  digits : Nat
  exponent : Int
  deriving DecidableEq, Repr

/-- The numbers between `low / den` and `high / den`, around `mid / den`. -/
structure Interval where
  low : Nat
  mid : Nat
  high : Nat
  den : Nat
  closed : Bool

/-- What reads back as the number `m * 2 ^ e`. The gap below a power of two is half as wide
as the gap above it. -/
def readingBack (m : Nat) (e : Int) : Interval :=
  let below := if m = leadingBit && -1074 < e then 1 else 2
  let up := (e - 2).toNat
  let down := (2 - e).toNat
  { low := (4 * m - below) * Nat.pow 2 up
    mid := 4 * m * Nat.pow 2 up
    high := (4 * m + 2) * Nat.pow 2 up
    den := Nat.pow 2 down
    closed := m % 2 = 0 }

def Interval.inUnits (i : Interval) (p : Int) : Interval :=
  let up := (-p).toNat
  { i with
    low := i.low * Nat.pow 10 up
    mid := i.mid * Nat.pow 10 up
    high := i.high * Nat.pow 10 up
    den := i.den * Nat.pow 10 p.toNat }

/-- The whole number in the interval that is nearest to its middle; of two at the same
distance the larger one. -/
def Interval.nearest? (i : Interval) : Option Nat :=
  let q := i.mid / i.den
  let lower := if i.closed then i.low ≤ q * i.den else i.low < q * i.den
  let upper := if i.closed then (q + 1) * i.den ≤ i.high else (q + 1) * i.den < i.high
  let rest := i.mid - q * i.den
  if lower && upper then some (if 2 * rest < i.den then q else q + 1)
  else if lower then some q
  else if upper then some (q + 1)
  else none

/-- Searches the grids of `10 ^ p`, `10 ^ (p - 1)`, …, at most `tries + 1` of them. -/
def Interval.coarsest (i : Interval) (p : Int) : Nat → Decimal
  | 0 => ⟨(i.inUnits p).mid / (i.inUnits p).den, p⟩
  | tries + 1 =>
    match (i.inUnits p).nearest? with
    | some n => ⟨n, p⟩
    | none => i.coarsest (p - 1) tries

def placesAtMost (m : Nat) (e : Int) : Int :=
  Int.fdiv ((m.log2 + e + 1) * 30103) 100000 + 1

def shortest (m : Nat) (e : Int) : Decimal :=
  if e ≤ 0 && m % Nat.pow 2 (-e).toNat = 0 then ⟨m / Nat.pow 2 (-e).toNat, 0⟩
  else (readingBack m e).coarsest (placesAtMost m e) 24

end ScriptShell.Number
