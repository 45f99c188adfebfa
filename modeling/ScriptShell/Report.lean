import ScriptShell.Text.Lines

namespace ScriptShell

/-- Only errors count as failures of a run. -/
inductive Severity where
  | warning
  | strictWarning
  | error
  deriving DecidableEq, Repr

structure Report where
  message : String
  filename : Option String
  /-- Zero where no line is known. -/
  line : Nat
  /-- The line of the source that the report points into, with its line break. -/
  lineBuffer : Option String
  /-- How many bytes of that line stand in front of the place meant. -/
  tokenOffset : Nat
  severity : Severity
  deriving DecidableEq, Repr

namespace Report

def error (message : String) : Report :=
  ⟨message, none, 0, none, 0, .error⟩

def warning (message : String) (strict : Bool) : Report :=
  { error message with severity := if strict then .strictWarning else .warning }

def isWarning (r : Report) : Bool :=
  r.severity ≠ .error

theorem isWarning_warning (message : String) (strict : Bool) :
    (warning message strict).isWarning = true := by
  cases strict <;> rfl

def locate (r : Report) (filename : Option String) (line : Nat) : Report :=
  { r with filename, line }

/-- Attaches the line of a source that holds the byte at an offset. -/
def withSource (r : Report) (source : String) (offset : Nat) : Report :=
  let (front, back) := Text.splitAtByte offset source.toList
  let before := Text.lastLine front
  { r with
    lineBuffer := some (String.ofList (before ++ Text.firstLine back))
    tokenOffset := Text.byteSize before }

end Report

end ScriptShell
