import ScriptShell.Text.Units

namespace ScriptShell.Text

/-- What the front of a byte sequence holds. -/
inductive Utf8Piece where
  /-- A character of this many bytes. -/
  | char (c : Char) (size : Nat)
  /-- This many bytes that begin no character. -/
  | invalid (size : Nat)
  /-- The bytes end inside a character. -/
  | truncated
  deriving DecidableEq, Repr

/-- The bounds of the second byte and the number of continuation bytes after a leading byte. -/
def leadingByte? (b : Nat) : Option (Nat × Nat × Nat) :=
  if 0xC2 ≤ b && b ≤ 0xDF then some (0x80, 0xBF, 1)
  else if b = 0xE0 then some (0xA0, 0xBF, 2)
  else if b = 0xED then some (0x80, 0x9F, 2)
  else if 0xE1 ≤ b && b ≤ 0xEF then some (0x80, 0xBF, 2)
  else if b = 0xF0 then some (0x90, 0xBF, 3)
  else if 0xF1 ≤ b && b ≤ 0xF3 then some (0x80, 0xBF, 3)
  else if b = 0xF4 then some (0x80, 0x8F, 3)
  else none

/-- Reads `needed` continuation bytes, the next of them between `lo` and `hi`, onto the bits
gathered so far from `size` bytes. -/
def continuation (lo hi needed bits size : Nat) (bytes : List UInt8) : Utf8Piece :=
  match needed, bytes with
  | 0, _ => .char (Char.ofNat bits) size
  | _ + 1, [] => .truncated
  | k + 1, b :: rest =>
    if lo ≤ b.toNat && b.toNat ≤ hi then
      continuation 0x80 0xBF k (bits * 64 + (b.toNat - 0x80)) (size + 1) rest
    else .invalid size

/-- The piece that begins with byte `b` and goes on with `rest`. -/
def utf8Piece (b : UInt8) (rest : List UInt8) : Utf8Piece :=
  if b.toNat < 0x80 then .char (Char.ofNat b.toNat) 1
  else
    match leadingByte? b.toNat with
    | none => .invalid 1
    | some (lo, hi, needed) =>
      let mark := if needed = 1 then 0xC0 else if needed = 2 then 0xE0 else 0xF0
      continuation lo hi needed (b.toNat - mark) 1 rest

/-- Reads on behind `skip` more bytes of the piece before. -/
def readUtf8From (skip : Nat) : List UInt8 → List Char
  | [] => []
  | b :: rest =>
    match skip with
    | k + 1 => readUtf8From k rest
    | 0 =>
      match utf8Piece b rest with
      | .char c size => c :: readUtf8From (size - 1) rest
      | .invalid size => replacement :: readUtf8From (size - 1) rest
      | .truncated => [replacement]

def readUtf8 (bytes : List UInt8) : String :=
  String.ofList (readUtf8From 0 bytes)

/-- Whether the first thing wrong with the bytes is that they end inside a character. -/
def endsInsideChar (skip : Nat) : List UInt8 → Bool
  | [] => false
  | b :: rest =>
    match skip with
    | k + 1 => endsInsideChar k rest
    | 0 =>
      match utf8Piece b rest with
      | .char _ size => endsInsideChar (size - 1) rest
      | .invalid _ => false
      | .truncated => true

end ScriptShell.Text
