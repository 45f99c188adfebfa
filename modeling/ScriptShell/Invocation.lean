import ScriptShell.Number.Integer
import ScriptShell.Number.Literal
import ScriptShell.Text.Class

namespace ScriptShell

inductive UsageError where
  | unknownOption (flag : String)
  | missingParameter (flag : String)
  deriving DecidableEq, Repr

def UsageError.message : UsageError → String
  | .unknownOption flag => "unknown option: " ++ flag
  | .missingParameter flag => "option " ++ flag ++ " requires a parameter"

/-- What a flag asks for; flags take effect in their order. -/
inductive Action where
  | setVersion (version : UInt32)
  | showWarnings (on : Bool)
  | toggleStrict
  | sealGlobals
  | chunkSize (size : Nat)
  | branchLimit (limit : UInt32)
  | runFile (name : String)
  | maxStack (size : Nat)
  deriving DecidableEq, Repr

structure Invocation where
  actions : List Action
  /-- The script, a single dash for standard input. -/
  filename : Option String
  scriptArgs : List String
  deriving DecidableEq, Repr

namespace Invocation

def isInteractive (i : Invocation) : Bool :=
  i.filename.isNone && !i.actions.any fun a => match a with | .runFile _ => true | _ => false

@[irreducible]
def isPositional (arg : String) : Bool :=
  arg.toList.head? ≠ some '-' || arg.toList.length = 1

@[irreducible]
def flagChar (arg : String) : Char :=
  (arg.toList.drop 1).head?.getD '-'

def takesParameter (c : Char) : Bool :=
  c = 'b' || c = 'c' || c = 'f' || c = 'v' || c = 'S'

/-- The integer at the front of a text, zero where there is none, clamped to 64 bits. -/
def leadingInteger (text : String) : Int :=
  let (negative, rest) := Number.splitSign (Text.trimStart text.toList)
  let size := (rest.takeWhile Char.isDigit).foldl
    (fun n c => min Number.maxInt64 (min Number.maxInt64 (n * 10) + (c.toNat - '0'.toNat : Nat))) 0
  if negative then -size else size

/-- A number of 32 bits, zero if it is out of range. -/
def parameter32 (text : String) : UInt32 :=
  let n := leadingInteger text
  if 0 ≤ n ∧ n < Number.words32 then UInt32.ofNat n.toNat else 0

def parameterSize (text : String) : Nat :=
  (leadingInteger text).toNat

def plainAction? : Char → Option Action
  | 'w' => some (.showWarnings true)
  | 'W' => some (.showWarnings false)
  | 's' => some .toggleStrict
  | 'P' => some .sealGlobals
  | _ => none

def parameterAction? (parameter : String) : Char → Option Action
  | 'v' => some (.setVersion (parameter32 parameter))
  | 'c' => some (.chunkSize (parameterSize parameter))
  | 'b' => some (.branchLimit (parameter32 parameter))
  | 'f' => some (.runFile parameter)
  | 'S' => some (.maxStack (parameterSize parameter))
  | _ => none

/-- The arguments behind the first positional one. -/
def scriptArguments : List String → List String
  | [] => []
  | arg :: rest =>
    if isPositional arg then rest
    else if takesParameter (flagChar arg) then
      match rest with
      | [] => []
      | _ :: more => scriptArguments more
    else scriptArguments rest

/-- The actions of the flags and the positional argument behind them. -/
def readFlags : List String → Except UsageError (List Action × Option String)
  | [] => .ok ([], none)
  | arg :: rest =>
    if isPositional arg then .ok ([], some arg)
    else
      match plainAction? (flagChar arg) with
      | some action => (readFlags rest).map fun r => (action :: r.1, r.2)
      | none =>
        if takesParameter (flagChar arg) then
          match rest with
          | [] => .error (.missingParameter arg)
          | parameter :: more =>
            (readFlags more).map fun r =>
              ((parameterAction? parameter (flagChar arg)).toList ++ r.1, r.2)
        else .error (.unknownOption arg)

def ofArguments (args : List String) : Except UsageError Invocation :=
  (readFlags args).map fun r => ⟨r.1, r.2, scriptArguments args⟩

end Invocation

end ScriptShell
