import ScriptShell.Number.Binary
import ScriptShell.Number.Integer
import ScriptShell.Text.Class

namespace ScriptShell.Number

def ofDigitsFrom (n : Nat) (digits : List Char) : Nat :=
  digits.foldl (fun n c => n * 10 + (c.toNat - '0'.toNat)) n

theorem ofDigitsFrom_eq (n : Nat) (digits : List Char) :
    ofDigitsFrom n digits = n * Nat.pow 10 digits.length + ofDigitsFrom 0 digits := by
  induction digits generalizing n with
  | nil => simp [ofDigitsFrom]
  | cons c digits ih =>
    have step (m : Nat) : ofDigitsFrom m (c :: digits) =
        ofDigitsFrom (m * 10 + (c.toNat - '0'.toNat)) digits := rfl
    rw [step, step, ih, ih (0 * 10 + _)]
    simp only [List.length_cons, Nat.pow_eq, Nat.pow_succ, Nat.add_mul, Nat.zero_mul, Nat.zero_add,
      Nat.mul_assoc, Nat.mul_comm 10, Nat.add_assoc]

/-- The same number, with the digits halved so many times first: the numbers that are
multiplied then have about the same size. -/
def ofDigitsHalved : Nat → List Char → Nat
  | 0, digits => ofDigitsFrom 0 digits
  | times + 1, digits =>
    let half := digits.length / 2
    ofDigitsHalved times (digits.take half) * Nat.pow 10 (digits.length - half) +
      ofDigitsHalved times (digits.drop half)

theorem ofDigitsHalved_eq (times : Nat) (digits : List Char) :
    ofDigitsHalved times digits = ofDigitsFrom 0 digits := by
  induction times generalizing digits with
  | zero => rfl
  | succ times ih =>
    have cut := ofDigitsFrom_eq (ofDigitsFrom 0 (digits.take (digits.length / 2)))
      (digits.drop (digits.length / 2))
    rw [List.length_drop] at cut
    simp only [ofDigitsHalved, ih, ← cut]
    simp only [ofDigitsFrom, ← List.foldl_append, List.take_append_drop]

def ofDigits (digits : List Char) : Nat :=
  ofDigitsHalved (digits.length.log2 - 6) digits

theorem ofDigits_eq (digits : List Char) : ofDigits digits = ofDigitsFrom 0 digits :=
  ofDigitsHalved_eq _ digits

/-- What the digits of an exponent count for: they are no longer read once they denote
`2 ^ 16` or more, as so great an exponent outweighs every mantissa of fewer digits. -/
def exponentSize (digits : List Char) : Nat :=
  digits.foldl (fun n c => if n < 0x10000 then n * 10 + (c.toNat - '0'.toNat) else n) 0

/-- The number nearest to `digits * 10 ^ exponent`. Exponents far out of range are settled
without computing the power. -/
def ofDecimal (digits : Nat) (exponent : Int) : Float :=
  if digits = 0 then 0
  else if 400 < exponent then 1.0 / 0.0
  else if exponent + digits.log2 / 3 + 1 < -400 then 0
  else ofRatio (digits * Nat.pow 10 exponent.toNat) (Nat.pow 10 (-exponent).toNat)

def splitSign : List Char → Bool × List Char
  | '-' :: rest => (true, rest)
  | '+' :: rest => (false, rest)
  | rest => (false, rest)

def leadingDigits (text : List Char) : List Char :=
  text.takeWhile Char.isDigit

def afterDigits (text : List Char) : List Char :=
  text.dropWhile Char.isDigit

/-- An unsigned decimal literal in its parts. -/
structure Literal where
  whole : List Char
  fraction : List Char
  exponent : Int
  /-- How many characters the literal takes. -/
  length : Nat

/-- The exponent at the front of a text and its length: both zero unless a digit follows. -/
def exponentAt (text : List Char) : Int × Nat :=
  match text with
  | c :: rest =>
    if c = 'e' || c = 'E' then
      let (negative, digits) := splitSign rest
      let taken := leadingDigits digits
      if taken.isEmpty then (0, 0)
      else
        let size : Int := exponentSize taken
        (if negative then -size else size, 1 + (rest.length - digits.length) + taken.length)
    else (0, 0)
  | [] => (0, 0)

/-- The longest decimal literal at the front of a text. -/
def literalAt? (text : List Char) : Option Literal :=
  let whole := leadingDigits text
  let (point, fraction, rest) :=
    match afterDigits text with
    | '.' :: rest => (1, leadingDigits rest, afterDigits rest)
    | rest => (0, [], rest)
  if whole.isEmpty && fraction.isEmpty then none
  else
    let (exponent, size) := exponentAt rest
    some ⟨whole, fraction, exponent, whole.length + point + fraction.length + size⟩

def Literal.value (l : Literal) : Float :=
  ofDecimal (ofDigits (l.whole ++ l.fraction)) (l.exponent - l.fraction.length)

def ofHexDigits (digits : List Char) : Float :=
  digits.foldl (fun x c => x * 16 + ofNat ((Text.digit? 16 c).getD 0)) 0

/-- An optionally signed decimal literal that is the whole text. -/
def ofSignedDecimal? (text : List Char) : Option Float :=
  let (negative, rest) := splitSign text
  match literalAt? rest with
  | some l =>
    if l.length = rest.length then some (if negative then -l.value else l.value) else none
  | none => none

def nan : Float := 0.0 / 0.0

def infinity : Float := 1.0 / 0.0

/-- The number a text stands for: white space around it is ignored, and nothing is zero. -/
def ofText (text : String) : Float :=
  match Text.trim text.toList with
  | [] => 0
  | '0' :: 'x' :: digits | '0' :: 'X' :: digits =>
    if digits.isEmpty || !digits.all Text.isHexDigit then nan else ofHexDigits digits
  | trimmed =>
    if trimmed = "Infinity".toList || trimmed = "+Infinity".toList then infinity
    else if trimmed = "-Infinity".toList then -infinity
    else (ofSignedDecimal? trimmed).getD nan

/-- The longest number at the front of a text, after white space. -/
def ofTextPrefix (text : String) : Float :=
  let (negative, rest) := splitSign (Text.trimStart text.toList)
  let size :=
    if "Infinity".toList.isPrefixOf rest then infinity
    else ((literalAt? rest).map Literal.value).getD nan
  if negative then -size else size

def ofDigitsIn (base : Nat) (text : List Char) : Option Float :=
  let digits := (text.map (Text.digit? base)).takeWhile Option.isSome
  if digits.isEmpty then none
  else some (digits.foldl (fun x d => x * ofNat base + ofNat (d.getD 0)) 0)

/-- The whole number at the front of a text in a base between 2 and 36; base 0 stands for
ten, or sixteen behind a mark for it. -/
def ofTextIn (base : Int) (text : String) : Float :=
  let (negative, rest) := splitSign (Text.trimStart text.toList)
  if base ≠ 0 ∧ ¬(2 ≤ base ∧ base ≤ 36) then nan
  else
    let (base, rest) :=
      match rest with
      | '0' :: 'x' :: digits | '0' :: 'X' :: digits =>
        if base = 0 || base = 16 then (16, digits) else (base.toNat, rest)
      | _ => (if base = 0 then 10 else base.toNat, rest)
    match ofDigitsIn base rest with
    | some x => if negative then -x else x
    | none => nan

end ScriptShell.Number
