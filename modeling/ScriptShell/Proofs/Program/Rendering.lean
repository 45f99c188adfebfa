import ScriptShell.Program.Parser

namespace ScriptShell

mutual

/-- An expression of which every place is forgotten. -/
def Expr.unplaced : Expr → Expr
  | .number x _ => .number x default
  | .text s _ => .text s default
  | .bool b _ => .bool b default
  | .null _ => .null default
  | .name x _ => .name x default
  | .array es _ => .array (unplacedExprs es) default
  | .object entries _ => .object (unplacedEntries entries) default
  | .function f _ => .function f.unplaced default
  | .unary op e _ => .unary op e.unplaced default
  | .update op before e _ => .update op before e.unplaced default
  | .binary op l r _ => .binary op l.unplaced r.unplaced default
  | .logical op l r _ => .logical op l.unplaced r.unplaced default
  | .assign op target value _ => .assign op target.unplaced value.unplaced default
  | .conditional test yes no _ => .conditional test.unplaced yes.unplaced no.unplaced default
  | .member e x _ => .member e.unplaced x default
  | .index e i _ => .index e.unplaced i.unplaced default
  | .call e args _ => .call e.unplaced (unplacedExprs args) default
  | .sequence es _ => .sequence (unplacedExprs es) default

def unplacedExprs : List Expr → List Expr
  | [] => []
  | e :: es => e.unplaced :: unplacedExprs es

def unplacedEntries : List (String × Expr) → List (String × Expr)
  | [] => []
  | (key, e) :: entries => (key, e.unplaced) :: unplacedEntries entries

def unplacedExpr? : Option Expr → Option Expr
  | none => none
  | some e => some e.unplaced

def Stmt.unplaced : Stmt → Stmt
  | .declare kind ds _ => .declare kind (unplacedDeclarators ds) default
  | .function f _ => .function f.unplaced default
  | .expr e _ => .expr e.unplaced default
  | .if_ e yes no _ => .if_ e.unplaced yes.unplaced (unplacedStmt? no) default
  | .while e body _ => .while e.unplaced body.unplaced default
  | .doWhile body e _ => .doWhile body.unplaced e.unplaced default
  | .for_ init test step body _ =>
    .for_ (unplacedStmt? init) (unplacedExpr? test) (unplacedExpr? step) body.unplaced default
  | .block body _ => .block (unplacedStmts body) default
  | .return_ e _ => .return_ (unplacedExpr? e) default
  | .break_ _ => .break_ default
  | .continue_ _ => .continue_ default
  | .throw e _ => .throw e.unplaced default
  | .try_ body handler finalizer _ =>
    .try_ (unplacedStmts body) (unplacedHandler handler) (unplacedStmts? finalizer) default
  | .empty _ => .empty default

def unplacedStmts : List Stmt → List Stmt
  | [] => []
  | s :: body => s.unplaced :: unplacedStmts body

def unplacedStmt? : Option Stmt → Option Stmt
  | none => none
  | some s => some s.unplaced

def unplacedStmts? : Option (List Stmt) → Option (List Stmt)
  | none => none
  | some body => some (unplacedStmts body)

def unplacedHandler : Option CatchClause → Option CatchClause
  | none => none
  | some (.mk param body) => some (.mk param (unplacedStmts body))

def unplacedDeclarators : List Declarator → List Declarator
  | [] => []
  | .mk name init _ :: ds => .mk name (unplacedExpr? init) default :: unplacedDeclarators ds

def FunctionDef.unplaced : FunctionDef → FunctionDef
  | .mk name params body varNames _ => .mk name params (unplacedStmts body) varNames default

end

def ParseWarning.unplaced (w : ParseWarning) : ParseWarning :=
  { w with place := default }

def Program.unplaced (p : Program) : Program :=
  { p with body := unplacedStmts p.body }

def BinaryOp.mark : BinaryOp → Mark
  | .add => .plus
  | .sub => .minus
  | .mul => .star
  | .div => .slash
  | .mod => .percent
  | .eq => .eqEq
  | .ne => .notEq
  | .strictEq => .eqEqEq
  | .strictNe => .notEqEq
  | .lt => .lt
  | .le => .le
  | .gt => .gt
  | .ge => .ge
  | .bitAnd => .amp
  | .bitOr => .pipe
  | .bitXor => .caret
  | .shiftLeft => .shiftLeft
  | .shiftRight => .shiftRight
  | .shiftRightZero => .shiftRightZero

def LogicalOp.mark : LogicalOp → Mark
  | .and => .andAnd
  | .or => .orOr

def UnaryOp.kind : UnaryOp → TokenKind
  | .neg => .mark .minus
  | .plus => .mark .plus
  | .not => .mark .bang
  | .bitNot => .mark .tilde
  | .typeof => .keyword .typeof
  | .void => .keyword .void

def UpdateOp.mark : UpdateOp → Mark
  | .increment => .plusPlus
  | .decrement => .minusMinus

/-- The mark of an assignment; comparisons have none. -/
def assignMark : Option BinaryOp → Mark
  | some .add => .plusEq
  | some .sub => .minusEq
  | some .mul => .starEq
  | some .div => .slashEq
  | some .mod => .percentEq
  | some .bitAnd => .ampEq
  | some .bitOr => .pipeEq
  | some .bitXor => .caretEq
  | some .shiftLeft => .shiftLeftEq
  | some .shiftRight => .shiftRightEq
  | some .shiftRightZero => .shiftRightZeroEq
  | _ => .eq

def DeclKind.keyword : DeclKind → Keyword
  | .var => .var
  | .let_ => .let_
  | .const => .const

def parenthesized (ks : List TokenKind) : List TokenKind :=
  .mark .leftParen :: (ks ++ [.mark .rightParen])

def commaSeparated : List (List TokenKind) → List TokenKind
  | [] => []
  | ks :: others => ks ++ others.flatMap (.mark .comma :: ·)

mutual

/-- The tokens of an expression. -/
def Expr.tokens : Expr → List TokenKind
  | .number x _ => parenthesized [.number x]
  | .text s _ => parenthesized [.text s]
  | .bool b _ => parenthesized [.keyword (if b then .true_ else .false_)]
  | .null _ => parenthesized [.keyword .null]
  | .name x _ => parenthesized [.name x]
  | .array es _ =>
    parenthesized (.mark .leftBracket :: (commaSeparated (tokensOfExprs es) ++ [.mark .rightBracket]))
  | .object entries _ =>
    parenthesized (.mark .leftBrace ::
      (commaSeparated (tokensOfEntries entries) ++ [.mark .rightBrace]))
  | .function f _ => parenthesized (.keyword .function :: f.tokens)
  | .unary op e _ => parenthesized (op.kind :: e.tokens)
  | .update op true e _ => parenthesized (.mark op.mark :: e.tokens)
  | .update op false e _ => parenthesized (e.tokens ++ [.mark op.mark])
  | .binary op l r _ => parenthesized (l.tokens ++ .mark op.mark :: r.tokens)
  | .logical op l r _ => parenthesized (l.tokens ++ .mark op.mark :: r.tokens)
  | .assign op target value _ =>
    parenthesized (target.tokens ++ .mark (assignMark op) :: value.tokens)
  | .conditional test yes no _ =>
    parenthesized (test.tokens ++ .mark .question :: (yes.tokens ++ .mark .colon :: no.tokens))
  | .member e x _ => parenthesized (e.tokens ++ [.mark .dot, .name x])
  | .index e i _ =>
    parenthesized (e.tokens ++ .mark .leftBracket :: (i.tokens ++ [.mark .rightBracket]))
  | .call e args _ => parenthesized (e.tokens ++ parenthesized (commaSeparated (tokensOfExprs args)))
  | .sequence es _ => parenthesized (commaSeparated (tokensOfExprs es))

def tokensOfExprs : List Expr → List (List TokenKind)
  | [] => []
  | e :: es => e.tokens :: tokensOfExprs es

def tokensOfEntries : List (String × Expr) → List (List TokenKind)
  | [] => []
  | (key, e) :: entries => (.text key :: .mark .colon :: e.tokens) :: tokensOfEntries entries

def tokensOfExpr? : Option Expr → List TokenKind
  | none => []
  | some e => e.tokens

/-- The tokens of a statement. -/
def Stmt.tokens : Stmt → List TokenKind
  | .declare kind ds _ =>
    .keyword kind.keyword :: (commaSeparated (tokensOfDeclarators ds) ++ [.mark .semicolon])
  | .function f _ => .keyword .function :: f.tokens
  | .expr e _ => e.tokens ++ [.mark .semicolon]
  | .if_ e yes no _ => .keyword .if_ :: (parenthesized e.tokens ++ (yes.tokens ++ tokensOfElse no))
  | .while e body _ => .keyword .while :: (parenthesized e.tokens ++ body.tokens)
  | .doWhile body e _ =>
    .keyword .do_ :: (body.tokens ++ .keyword .while :: (parenthesized e.tokens ++ [.mark .semicolon]))
  | .for_ init test step body _ =>
    .keyword .for_ :: .mark .leftParen :: (tokensOfInit init ++ .mark .semicolon ::
      (tokensOfExpr? test ++ .mark .semicolon ::
        (tokensOfExpr? step ++ .mark .rightParen :: body.tokens)))
  | .block body _ => .mark .leftBrace :: (tokensOfStmts body ++ [.mark .rightBrace])
  | .return_ e _ => .keyword .return_ :: (tokensOfExpr? e ++ [.mark .semicolon])
  | .break_ _ => [.keyword .break_, .mark .semicolon]
  | .continue_ _ => [.keyword .continue_, .mark .semicolon]
  | .throw e _ => .keyword .throw :: (e.tokens ++ [.mark .semicolon])
  | .try_ body handler finalizer _ =>
    .keyword .try_ :: .mark .leftBrace :: (tokensOfStmts body ++ .mark .rightBrace ::
      (tokensOfHandler handler ++ tokensOfFinalizer finalizer))
  | .empty _ => [.mark .semicolon]

def tokensOfStmts : List Stmt → List TokenKind
  | [] => []
  | s :: body => s.tokens ++ tokensOfStmts body

def tokensOfElse : Option Stmt → List TokenKind
  | none => []
  | some s => .keyword .else_ :: s.tokens

def tokensOfInit : Option Stmt → List TokenKind
  | some (.declare kind ds _) => .keyword kind.keyword :: commaSeparated (tokensOfDeclarators ds)
  | some (.expr e _) => e.tokens
  | _ => []

def tokensOfHandler : Option CatchClause → List TokenKind
  | none => []
  | some (.mk param body) =>
    .keyword .catch_ :: .mark .leftParen :: .name param :: .mark .rightParen :: .mark .leftBrace ::
      (tokensOfStmts body ++ [.mark .rightBrace])

def tokensOfFinalizer : Option (List Stmt) → List TokenKind
  | none => []
  | some body => .keyword .finally_ :: .mark .leftBrace :: (tokensOfStmts body ++ [.mark .rightBrace])

def tokensOfDeclarators : List Declarator → List (List TokenKind)
  | [] => []
  | .mk name none _ :: ds => [.name name] :: tokensOfDeclarators ds
  | .mk name (some e) _ :: ds => (.name name :: .mark .eq :: e.tokens) :: tokensOfDeclarators ds

def FunctionDef.tokens : FunctionDef → List TokenKind
  | .mk name params body _ _ =>
    (name.map TokenKind.name).toList ++
      (parenthesized (commaSeparated (params.map fun x => [.name x])) ++ .mark .leftBrace ::
        (tokensOfStmts body ++ [.mark .rightBrace]))

end

theorem Expr.tokens_eq_parenthesized (e : Expr) : ∃ ks, e.tokens = parenthesized ks := by
  cases e with
  | update op before e place => cases before <;> exact ⟨_, rfl⟩
  | _ => exact ⟨_, rfl⟩

def TokenKind.beginsStatement : TokenKind → Bool
  | .mark .rightBrace | .keyword .else_ | .keyword .finally_ => false
  | _ => true

theorem Stmt.tokens_eq_cons (st : Stmt) :
    ∃ k ks, st.tokens = k :: ks ∧ k.beginsStatement = true := by
  cases st with
  | expr e place =>
    obtain ⟨ks, hks⟩ := e.tokens_eq_parenthesized
    rw [Stmt.tokens, hks]
    exact ⟨_, _, rfl, rfl⟩
  | declare kind ds place => cases kind <;> exact ⟨_, _, rfl, rfl⟩
  | _ => exact ⟨_, _, rfl, rfl⟩

def TokenKind.token (k : TokenKind) : Token :=
  ⟨k, default, false⟩

/-- The canonical tokens of a program. -/
def Program.render (p : Program) : Tokens :=
  ⟨(tokensOfStmts p.body).map TokenKind.token, default, false⟩

def Stmt.endsOpen : Stmt → Bool
  | .if_ _ _ none _ => true
  | .if_ _ _ (some no) _ => no.endsOpen
  | .while _ body _ | .for_ _ _ _ body _ => body.endsOpen
  | _ => false

end ScriptShell
