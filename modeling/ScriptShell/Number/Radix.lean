import ScriptShell.Number.Integer
import ScriptShell.Number.Text

namespace ScriptShell.Number

def digitOf (x : Float) : Nat :=
  (toUInt32 x).toNat

/-- The digits of a whole number, put in front of `done`. A finite number has at most 1024. -/
def wholeDigits (base whole : Float) (done : List Char) : Nat → List Char
  | 0 => done
  | tries + 1 =>
    let digits := Text.digitChar (digitOf (remainder whole base)) :: done
    let rest := truncate (whole / base)
    if rest < 1 then digits else wholeDigits base rest digits tries

def fractionDigits (base fraction : Float) : Nat → List Char
  | 0 => []
  | places + 1 =>
    let shifted := fraction * base
    let digit := digitOf (truncate shifted)
    let rest := shifted - ofNat digit
    Text.digitChar digit :: if rest ≤ 0 then [] else fractionDigits base rest places

/-- A number in a base between 2 and 36. -/
def radixText (base : Nat) (x : Float) : String :=
  if base = 10 || !x.isFinite then text x
  else
    let size := x.abs
    let whole := truncate size
    let fraction := size - whole
    let tail := if 0 < fraction then '.' :: fractionDigits (ofNat base) fraction 52 else []
    signed (x < 0) (wholeDigits (ofNat base) whole [] 1100 ++ tail)

end ScriptShell.Number
