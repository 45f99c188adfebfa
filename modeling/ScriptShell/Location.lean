namespace ScriptShell

/-- A place in a source: lines and columns count characters from one, the offset counts
bytes from zero. -/
structure Location where
  line : Nat
  column : Nat
  offset : Nat
  deriving DecidableEq, Repr, Inhabited

namespace Location

def start (line : Nat) : Location :=
  ⟨line, 1, 0⟩

def after (l : Location) (c : Char) : Location :=
  if c = '\n' then ⟨l.line + 1, 1, l.offset + c.utf8Size⟩
  else ⟨l.line, l.column + 1, l.offset + c.utf8Size⟩

def advance (l : Location) (text : List Char) : Location :=
  text.foldl after l

theorem advance_append (l : Location) (s t : List Char) :
    l.advance (s ++ t) = (l.advance s).advance t := by
  simp [advance]

end Location

end ScriptShell
