import ScriptShell.Number.Shortest
import ScriptShell.Text.Class

namespace ScriptShell.Number

def decimalDigits (n : Nat) : List Char :=
  Nat.toDigits 10 n

def Decimal.stripped (d : Decimal) : Nat → Decimal
  | 0 => d
  | tries + 1 =>
    if d.digits ≠ 0 ∧ d.digits % 10 = 0 then
      Decimal.stripped ⟨d.digits / 10, d.exponent + 1⟩ tries
    else d

def withPoint (digits : List Char) (places : Nat) : List Char :=
  if places = 0 then digits
  else
    let padded := List.replicate (places + 1 - digits.length) '0' ++ digits
    padded.take (padded.length - places) ++ '.' :: padded.drop (padded.length - places)

def Decimal.positional (d : Decimal) : List Char :=
  withPoint (decimalDigits d.digits ++ List.replicate d.exponent.toNat '0') (-d.exponent).toNat

def Decimal.scientific (d : Decimal) : List Char :=
  let digits := decimalDigits d.digits
  let exponent := d.exponent + (digits.length - 1 : Nat)
  let sign := if exponent < 0 then '-' else '+'
  withPoint digits (digits.length - 1) ++ 'e' :: sign :: decimalDigits exponent.natAbs

def digitsOf (b : Binary) : Decimal :=
  if b.mantissa = 0 then ⟨0, 0⟩ else (shortest b.mantissa b.exponent).stripped 400

def signed (negative : Bool) (text : List Char) : String :=
  String.ofList (if negative then '-' :: text else text)

def plainText (x : Float) : String :=
  if x.isNaN then "NaN"
  else if !x.isFinite then if 0 < x then "inf" else "-inf"
  else
    let b := Binary.ofFloat x
    signed b.negative (digitsOf b).positional

/-- The text of a number in a script; both zeros look alike. -/
def text (x : Float) : String :=
  if x.isNaN then "NaN"
  else if !x.isFinite then if 0 < x then "Infinity" else "-Infinity"
  else if x == 0 then "0"
  else
    let b := Binary.ofFloat x
    let d := digitsOf b
    let size := x.abs
    signed b.negative
      (if 1e-6 ≤ size && size < 1e21 then d.positional else d.scientific)

def fixedText (places : Nat) (x : Float) : String :=
  let b := Binary.ofFloat x
  let q := scaled (b.mantissa * Nat.pow 10 places) 1 b.exponent
  signed b.negative (withPoint (decimalDigits (roundDiv q.1 q.2)) places)

end ScriptShell.Number
