import ScriptShell.Report

namespace ScriptShell

namespace Report

/-- What every line of a report begins with. -/
def lead (r : Report) : String :=
  let file := (r.filename.map (· ++ ":")).getD ""
  let line := if r.line = 0 then "" else toString r.line ++ ": "
  let kind :=
    match r.severity with
    | .warning => "warning: "
    | .strictWarning => "strict warning: "
    | .error => ""
  file ++ line ++ kind

def columns (text : List Char) : Nat :=
  text.foldl (fun column c => if c = '\t' then (column + 8) / 8 * 8 else column + 1) 0

def caretLine (line : String) (offset : Nat) : String :=
  let width := columns (Text.splitAtByte offset line.toList).1
  String.ofList (List.replicate width '.' ++ ['^', '\n'])

def terminated (line : String) : String :=
  if line.toList.getLast? = some '\n' then line else line ++ "\n"

def render (r : Report) : String :=
  let lead := r.lead
  let lines := (Text.splitLines r.message.toList).map fun l => lead ++ String.ofList l
  let message := "\n".intercalate lines
  match r.lineBuffer with
  | none => message ++ "\n"
  | some line =>
    message ++ ":\n" ++ lead ++ terminated line ++ lead ++ caretLine line r.tokenOffset

end Report

end ScriptShell
