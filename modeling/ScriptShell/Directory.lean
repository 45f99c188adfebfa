import ScriptShell.Host
import ScriptShell.Text.Split

namespace ScriptShell

/-- What a name in a directory stands for. -/
inductive Entry where
  | file (content : List UInt8)
  /-- A directory with nothing in it. -/
  | folder
  deriving DecidableEq, Repr

abbrev Directory := List (String × Entry)

namespace Directory

/-- Where the front of a path leads. -/
inductive Spot where
  | here
  | inside
  /-- A directory above this one, in which no other name is known. -/
  | above
  | file (content : List UInt8)
  deriving DecidableEq, Repr

/-- Follows one more name. -/
def step (d : Directory) (name : String) : Spot → Except FileError Spot
  | .file _ => .error .notDirectory
  | .here =>
    if name = "" ∨ name = "." then .ok .here
    else if name = ".." then .ok .above
    else
      match d.lookup name with
      | some (.file content) => .ok (.file content)
      | some .folder => .ok .inside
      | none => .error .notFound
  | .inside =>
    if name = "" ∨ name = "." then .ok .inside
    else if name = ".." then .ok .here
    else .error .notFound
  | .above =>
    if name = "" ∨ name = "." ∨ name = ".." then .ok .above else .error .notFound

def follow (d : Directory) (path : String) : Except FileError Spot :=
  if path = "" then .error .notFound
  else
    let start : Spot := if path.toList.head? = some '/' then .above else .here
    (Text.splitAt "/" path).foldlM (fun spot name => d.step name spot) start

def look (d : Directory) (path : String) : FileState :=
  match d.follow path with
  | .ok (.file content) => .bytes content
  | .ok _ => .failed .isDirectory
  | .error e => .failed e

end Directory

end ScriptShell
