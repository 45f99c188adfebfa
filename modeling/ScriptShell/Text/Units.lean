namespace ScriptShell.Text

def replacement : Char :=
  '\ufffd'

def unitsOf (c : Char) : List Nat :=
  if c.toNat < 0x10000 then [c.toNat]
  else [0xD800 + (c.toNat - 0x10000) / 0x400, 0xDC00 + (c.toNat - 0x10000) % 0x400]

def units (text : String) : List Nat :=
  text.toList.flatMap unitsOf

def isLeading (u : Nat) : Bool :=
  0xD800 ≤ u && u < 0xDC00

def isTrailing (u : Nat) : Bool :=
  0xDC00 ≤ u && u < 0xE000

def joinPair (u v : Nat) : Char :=
  Char.ofNat (0x10000 + (u - 0xD800) * 0x400 + (v - 0xDC00))

def loneChar (u : Nat) : Char :=
  if isLeading u || isTrailing u then replacement else Char.ofNat u

def readUnits : List Nat → List Char
  | [] => []
  | [u] => [loneChar u]
  | u :: v :: rest =>
    if isLeading u && isTrailing v then joinPair u v :: readUnits rest
    else loneChar u :: readUnits (v :: rest)

def ofUnits (us : List Nat) : String :=
  String.ofList (readUnits us)

/-- Whether every character of a text is a single byte. Its bytes, characters and units are
then in the same places, so that it need not be taken apart to get at one of them. -/
def isNarrow (text : String) : Bool :=
  text.utf8ByteSize = text.length

def unitCount (text : String) : Nat :=
  if isNarrow text then text.length
  else text.toList.foldr (fun c n => (if c.toNat < 0x10000 then 1 else 2) + n) 0

def unitAt? (text : String) (i : Nat) : Option Nat :=
  if isNarrow text then (String.Pos.Raw.get? text ⟨i⟩).map Char.toNat else (units text)[i]?

def unitsFrom (text : String) (start : Nat) : List Nat :=
  if isNarrow text then
    (String.Pos.Raw.extract text ⟨start⟩ ⟨text.length⟩).toList.map Char.toNat
  else (units text).drop start

def cut (text : String) (start stop : Nat) : String :=
  if isNarrow text then String.Pos.Raw.extract text ⟨start⟩ ⟨stop⟩
  else ofUnits (((units text).drop start).take (stop - start))

end ScriptShell.Text
