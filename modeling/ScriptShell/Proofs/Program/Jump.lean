import ScriptShell.Program

namespace ScriptShell

inductive Jump where
  | return_ | break_ | continue_
  deriving DecidableEq, Repr

mutual

/-- Whether a jump may leave a statement. -/
def Stmt.emits (j : Jump) : Stmt → Bool
  | .if_ _ yes no _ => yes.emits j || emitsElse j no
  | .while _ body _ | .doWhile body _ _ | .for_ _ _ _ body _ => j = .return_ && body.emits j
  | .block body _ => emitsAny j body
  | .return_ _ _ => j = .return_
  | .break_ _ => j = .break_
  | .continue_ _ => j = .continue_
  | .try_ body handler finalizer _ =>
    emitsAny j body || emitsHandler j handler || emitsFinal j finalizer
  | .declare .. | .function .. | .expr .. | .throw .. | .empty _ => false

def emitsAny (j : Jump) : List Stmt → Bool
  | [] => false
  | s :: rest => s.emits j || emitsAny j rest

def emitsElse (j : Jump) : Option Stmt → Bool
  | none => false
  | some s => s.emits j

def emitsHandler (j : Jump) : Option CatchClause → Bool
  | none => false
  | some (.mk _ body) => emitsAny j body

def emitsFinal (j : Jump) : Option (List Stmt) → Bool
  | none => false
  | some body => emitsAny j body

end

theorem emitsAny_of_mem {j : Jump} {s : Stmt} {body : List Stmt} (hs : s ∈ body)
    (h : s.emits j = true) : emitsAny j body = true := by
  induction hs with
  | head => simp [emitsAny, h]
  | tail _ _ ih => simp [emitsAny, ih]

end ScriptShell
