import ScriptShell.Text.CaseTable
import ScriptShell.Text.Class

namespace ScriptShell.Text

def shifted (runs : List CaseRun) (c : Char) : Char :=
  match runs.find? fun r =>
      r.first ≤ c.toNat && c.toNat ≤ r.last && (c.toNat - r.first) % r.step = 0 with
  | some r => Char.ofNat (c.toNat + r.shift).toNat
  | none => c

def recased (runs : List CaseRun) (expansions : List (Nat × List Nat)) (c : Char) : List Char :=
  match expansions.lookup c.toNat with
  | some codes => codes.map Char.ofNat
  | none => [shifted runs c]

def upperChar (c : Char) : List Char :=
  if c.toNat < 128 then [c.toUpper] else recased upperRuns upperExpansions c

def lowerChar (c : Char) : List Char :=
  if c.toNat < 128 then [c.toLower] else recased lowerRuns lowerExpansions c

def reachesCased (text : List Char) : Bool :=
  match text.dropWhile fun c => within caseIgnorableRanges c.toNat with
  | c :: _ => within casedRanges c.toNat
  | [] => false

/-- The lower case of `text`, where `before` holds the characters in front of it, last first. -/
def lowerFrom (before : List Char) : List Char → List Char
  | [] => []
  | c :: rest =>
    let small :=
      if c = 'Σ' then
        if reachesCased before && !reachesCased rest then ['ς'] else ['σ']
      else lowerChar c
    small ++ lowerFrom (c :: before) rest

def toUpper (text : String) : String :=
  String.ofList (text.toList.flatMap upperChar)

def toLower (text : String) : String :=
  String.ofList (lowerFrom [] text.toList)

end ScriptShell.Text
