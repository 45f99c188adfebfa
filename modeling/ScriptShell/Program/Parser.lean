import ScriptShell.Program
import ScriptShell.Token.Scan

namespace ScriptShell

/-- Something questionable in a program that is accepted all the same. -/
inductive Remark where
  | unreachable
  | redeclared (name : String)
  | assignmentAsCondition
  deriving DecidableEq, Repr

def Remark.message : Remark → String
  | .unreachable => "unreachable code after return statement"
  | .redeclared name => "redeclaration of var " ++ name
  | .assignmentAsCondition => "test for equality (==) mistyped as assignment (=)?"

def Remark.isStrict : Remark → Bool
  | .unreachable => false
  | .redeclared _ | .assignmentAsCondition => true

structure ParseWarning where
  remark : Remark
  place : Location
  deriving DecidableEq, Repr

namespace Parser

/-- What stays the same throughout a source. -/
structure Context where
  finish : Location
  newlineAtEnd : Bool
  strict : Bool

structure State where
  rest : List Token
  /-- The warnings so far, latest first. -/
  warnings : List ParseWarning
  /-- The `var` names of the enclosing functions, innermost function and latest name first. -/
  varScopes : List (List String)
  functionDepth : Nat
  loopDepth : Nat

end Parser

abbrev Parser := ReaderT Parser.Context (EStateM ParseError Parser.State)

namespace Parser

def peek : Parser (Option TokenKind) := do
  return (← get).rest.head?.map (·.kind)

def here : Parser Location := do
  return ((← get).rest.head?.map (·.place)).getD (← read).finish

def newlineBefore : Parser Bool := do
  return ((← get).rest.head?.map (·.newlineBefore)).getD (← read).newlineAtEnd

def atEnd : Parser Bool := do
  return (← get).rest.isEmpty

def skip : Parser Unit :=
  modify fun s => { s with rest := s.rest.tail }

def failHere {α : Type} (fault : ParseFault) : Parser α := do
  throw ⟨fault, ← here, ← atEnd⟩

def failAt {α : Type} (fault : ParseFault) (place : Location) : Parser α :=
  throw ⟨fault, place, false⟩

def atMark (m : Mark) : Parser Bool := do
  match ← peek with
  | some (.mark m') => return m = m'
  | _ => return false

def eatMark (m : Mark) : Parser Bool := do
  if ← atMark m then
    skip
    return true
  else return false

def eatKeyword (k : Keyword) : Parser Bool := do
  match ← peek with
  | some (.keyword k') =>
    if k = k' then
      skip
      return true
    else return false
  | _ => return false

def expectMark (m : Mark) (what : String) : Parser Unit := do
  if !(← eatMark m) then failHere (.missing what)

def expectName (what : String) : Parser String := do
  match ← peek with
  | some (.name name) =>
    skip
    return name
  | _ => failHere (.missing what)

def endStatement : Parser Unit := do
  if ← eatMark .semicolon then return
  if (← newlineBefore) || (← atEnd) || (← atMark .rightBrace) then return
  failHere (.missing "; before statement")

def warn (remark : Remark) (place : Location) : Parser Unit := do
  if !remark.isStrict || (← read).strict then
    modify fun s => { s with warnings := ⟨remark, place⟩ :: s.warnings }

def declareVar (name : String) (place : Location) : Parser Unit := do
  match (← get).varScopes with
  | names :: outer =>
    if names.contains name then warn (.redeclared name) place
    else modify fun s => { s with varScopes := (name :: names) :: outer }
  | [] => return

/-- The first statement that cannot be reached because one before it returns. Function
declarations and empty statements do not count. -/
def unreachable? (returned : Bool) : List Stmt → Option Location
  | [] => none
  | .function .. :: rest | .empty .. :: rest => unreachable? returned rest
  | s :: rest =>
    if returned then some s.place
    else unreachable? (match s with | .return_ .. => true | _ => false) rest

def warnUnreachable (body : List Stmt) : Parser Unit := do
  if let some place := unreachable? false body then warn .unreachable place

def warnCondition : Expr → Parser Unit
  | .assign none _ _ place => warn .assignmentAsCondition place
  | _ => return

/-- The operator of a mark and how tightly it binds. -/
def binaryOp? : Mark → Option (Nat × BinaryOp)
  | .pipe => some (1, .bitOr)
  | .caret => some (2, .bitXor)
  | .amp => some (3, .bitAnd)
  | .eqEq => some (4, .eq)
  | .notEq => some (4, .ne)
  | .eqEqEq => some (4, .strictEq)
  | .notEqEq => some (4, .strictNe)
  | .lt => some (5, .lt)
  | .le => some (5, .le)
  | .gt => some (5, .gt)
  | .ge => some (5, .ge)
  | .shiftLeft => some (6, .shiftLeft)
  | .shiftRight => some (6, .shiftRight)
  | .shiftRightZero => some (6, .shiftRightZero)
  | .plus => some (7, .add)
  | .minus => some (7, .sub)
  | .star => some (8, .mul)
  | .slash => some (8, .div)
  | .percent => some (8, .mod)
  | _ => none

/-- The operator of an assignment mark, none for a plain one. -/
def assignOp? : Mark → Option (Option BinaryOp)
  | .eq => some none
  | .plusEq => some (some .add)
  | .minusEq => some (some .sub)
  | .starEq => some (some .mul)
  | .slashEq => some (some .div)
  | .percentEq => some (some .mod)
  | .ampEq => some (some .bitAnd)
  | .pipeEq => some (some .bitOr)
  | .caretEq => some (some .bitXor)
  | .shiftLeftEq => some (some .shiftLeft)
  | .shiftRightEq => some (some .shiftRight)
  | .shiftRightZeroEq => some (some .shiftRightZero)
  | _ => none

def unaryOp? : TokenKind → Option UnaryOp
  | .mark .minus => some .neg
  | .mark .plus => some .plus
  | .mark .bang => some .not
  | .mark .tilde => some .bitNot
  | .keyword .typeof => some .typeof
  | .keyword .void => some .void
  | _ => none

def updateOp? : TokenKind → Option UpdateOp
  | .mark .plusPlus => some .increment
  | .mark .minusMinus => some .decrement
  | _ => none

def declKind? : TokenKind → Option DeclKind
  | .keyword .var => some .var
  | .keyword .let_ => some .let_
  | .keyword .const => some .const
  | _ => none

def peekAs {α : Type} (reading : TokenKind → Option α) : Parser (Option α) := do
  return (← peek).bind reading

def markAs {α : Type} (reading : Mark → Option α) : TokenKind → Option α
  | .mark m => reading m
  | _ => none

def update (op : UpdateOp) (before : Bool) (target : Expr) (place : Location) : Parser Expr :=
  if target.isTarget then return .update op before target place
  else failAt .invalidOperand target.place

/-- An expression that is a single token. -/
def literal? (place : Location) : TokenKind → Option Expr
  | .number x => some (.number x place)
  | .text s => some (.text s place)
  | .name x => some (.name x place)
  | .keyword .true_ => some (.bool true place)
  | .keyword .false_ => some (.bool false place)
  | .keyword .null => some (.null place)
  | _ => none

def propertyName? : TokenKind → Option String
  | .name x => some x
  | .text s => some s
  | .number x => some (Number.text x)
  | _ => none

def inLoop {α : Type} (p : Parser α) : Parser α := do
  modify fun s => { s with loopDepth := s.loopDepth + 1 }
  let a ← p
  modify fun s => { s with loopDepth := s.loopDepth - 1 }
  return a

/-- Runs the parser of a function's body; also gives the `var` names it declares. -/
def inFunction {α : Type} (p : Parser α) : Parser (α × List String) := do
  let loopDepth := (← get).loopDepth
  modify fun s =>
    { s with varScopes := [] :: s.varScopes, functionDepth := s.functionDepth + 1, loopDepth := 0 }
  let a ← p
  let names := (← get).varScopes.headD []
  modify fun s =>
    { s with
      varScopes := s.varScopes.tail
      functionDepth := s.functionDepth - 1
      loopDepth := loopDepth }
  return (a, names.reverse)

def exhausted {α : Type} : Parser α := do
  failAt .exhausted (← here)

/-- The parameter names up to the closing parenthesis. -/
def parameters : Nat → Parser (List String)
  | 0 => exhausted
  | n + 1 => do
    let name ← expectName "formal parameter"
    if ← eatMark .comma then
      let names ← parameters n
      return name :: names
    else return [name]

mutual

def expression : Nat → Parser Expr
  | 0 => exhausted
  | n + 1 => do
    let first ← assignment n
    if ← atMark .comma then
      let others ← sequenceRest n
      return .sequence (first :: others) first.place
    else return first

/-- The operands behind the first one, each after a comma. -/
def sequenceRest : Nat → Parser (List Expr)
  | 0 => exhausted
  | n + 1 => do
    if ← eatMark .comma then
      let e ← assignment n
      let es ← sequenceRest n
      return e :: es
    else return []

def assignment : Nat → Parser Expr
  | 0 => exhausted
  | n + 1 => do
    let target ← conditional n
    match ← peekAs (markAs assignOp?) with
    | none => return target
    | some op =>
      let place ← here
      if target.isTarget then
        skip
        let value ← assignment n
        return .assign op target value place
      else failAt .invalidTarget target.place

def conditional : Nat → Parser Expr
  | 0 => exhausted
  | n + 1 => do
    let condition ← disjunction n
    if ← eatMark .question then
      let yes ← assignment n
      expectMark .colon ": in conditional expression"
      let no ← assignment n
      return .conditional condition yes no condition.place
    else return condition

def disjunction : Nat → Parser Expr
  | 0 => exhausted
  | n + 1 => do
    let left ← conjunction n
    disjunctionRest n left

def disjunctionRest : Nat → Expr → Parser Expr
  | 0, _ => exhausted
  | n + 1, left => do
    let place ← here
    if ← eatMark .orOr then
      let right ← conjunction n
      disjunctionRest n (.logical .or left right place)
    else return left

def conjunction : Nat → Parser Expr
  | 0 => exhausted
  | n + 1 => do
    let left ← binary n 1
    conjunctionRest n left

def conjunctionRest : Nat → Expr → Parser Expr
  | 0, _ => exhausted
  | n + 1, left => do
    let place ← here
    if ← eatMark .andAnd then
      let right ← binary n 1
      conjunctionRest n (.logical .and left right place)
    else return left

/-- An expression of operators that bind at least as tightly as `least`. -/
def binary : Nat → Nat → Parser Expr
  | 0, _ => exhausted
  | n + 1, least => do
    let left ← unary n
    binaryRest n least left

def binaryRest : Nat → Nat → Expr → Parser Expr
  | 0, _, _ => exhausted
  | n + 1, least, left => do
    match ← peekAs (markAs binaryOp?) with
    | none => return left
    | some (level, op) =>
      if level < least then return left
      else
        let place ← here
        skip
        let right ← binary n (level + 1)
        binaryRest n least (.binary op left right place)

def unary : Nat → Parser Expr
  | 0 => exhausted
  | n + 1 => do
    let place ← here
    match ← peekAs unaryOp? with
    | some op =>
      skip
      let operand ← unary n
      return .unary op operand place
    | none =>
      match ← peekAs updateOp? with
      | some op =>
        skip
        let target ← unary n
        update op true target place
      | none => postfixed n

def postfixed : Nat → Parser Expr
  | 0 => exhausted
  | n + 1 => do
    let e ← access n
    if ← newlineBefore then return e
    else
      match ← peekAs updateOp? with
      | some op =>
        let place ← here
        skip
        update op false e place
      | none => return e

def access : Nat → Parser Expr
  | 0 => exhausted
  | n + 1 => do
    let e ← primary n
    accessRest n e

def accessRest : Nat → Expr → Parser Expr
  | 0, _ => exhausted
  | n + 1, e => do
    let place ← here
    if ← eatMark .dot then
      let property ← expectName "name after . operator"
      accessRest n (.member e property place)
    else if ← eatMark .leftBracket then
      let index ← expression n
      expectMark .rightBracket "] in index expression"
      accessRest n (.index e index place)
    else if ← eatMark .leftParen then
      let args ← arguments n
      accessRest n (.call e args place)
    else return e

/-- The arguments of a call behind its opening parenthesis. -/
def arguments : Nat → Parser (List Expr)
  | 0 => exhausted
  | n + 1 => do
    if ← eatMark .rightParen then return []
    else
      let args ← argumentList n
      expectMark .rightParen ") after argument list"
      return args

def argumentList : Nat → Parser (List Expr)
  | 0 => exhausted
  | n + 1 => do
    let e ← assignment n
    if ← eatMark .comma then
      let es ← argumentList n
      return e :: es
    else return [e]

def primary : Nat → Parser Expr
  | 0 => exhausted
  | n + 1 => do
    let place ← here
    match ← peekAs (literal? place) with
    | some e =>
      skip
      return e
    | none =>
      match ← peek with
      | some (.mark .leftParen) =>
        skip
        let e ← expression n
        expectMark .rightParen ") in parenthetical"
        return e
      | some (.mark .leftBracket) =>
        skip
        let es ← elements n
        expectMark .rightBracket "] after element list"
        return .array es place
      | some (.mark .leftBrace) =>
        skip
        let entries ← properties n
        expectMark .rightBrace "\x7d after property list"
        return .object entries place
      | some (.keyword .function) =>
        skip
        let f ← function n false place
        return .function f place
      | _ => failHere .unexpected

def elements : Nat → Parser (List Expr)
  | 0 => exhausted
  | n + 1 => do
    if ← atMark .rightBracket then return []
    else
      let e ← assignment n
      if ← eatMark .comma then
        let es ← elements n
        return e :: es
      else return [e]

def properties : Nat → Parser (List (String × Expr))
  | 0 => exhausted
  | n + 1 => do
    if ← atMark .rightBrace then return []
    else
      match ← peekAs propertyName? with
      | none => failHere .invalidProperty
      | some key =>
        skip
        expectMark .colon ": after property id"
        let e ← assignment n
        if ← eatMark .comma then
          let es ← properties n
          return (key, e) :: es
        else return [(key, e)]

/-- A function behind its keyword. -/
def function : Nat → Bool → Location → Parser FunctionDef
  | 0, _, _ => exhausted
  | n + 1, named, place => do
    let name ←
      match ← peek with
      | some (.name name) => do
        skip
        pure (some name)
      | _ => if named then failHere (.missing "name after function") else pure none
    expectMark .leftParen "( before formal parameters"
    let params ← if ← atMark .rightParen then pure [] else parameters n
    expectMark .rightParen ") after formal parameters"
    expectMark .leftBrace "\x7b before function body"
    let r ← inFunction (block n "\x7d after function body")
    return .mk name params r.1 r.2 place

/-- The statements of a block behind its opening brace. -/
def block : Nat → String → Parser (List Stmt)
  | 0, _ => exhausted
  | n + 1, what => do
    let body ← blockRest n what
    warnUnreachable body
    return body

def blockRest : Nat → String → Parser (List Stmt)
  | 0, _ => exhausted
  | n + 1, what => do
    if ← eatMark .rightBrace then return []
    else if ← atEnd then failHere (.missing what)
    else
      let s ← statement n
      let ss ← blockRest n what
      return s :: ss

def declarators : Nat → DeclKind → Parser (List Declarator)
  | 0, _ => exhausted
  | n + 1, kind => do
    let place ← here
    let name ← expectName "variable name"
    let init ←
      if ← eatMark .eq then some <$> assignment n
      else if kind = .const then failHere (.missing "= in const declaration")
      else pure none
    if kind = .var then declareVar name place
    if ← eatMark .comma then
      let ds ← declarators n kind
      return .mk name init place :: ds
    else return [.mk name init place]

def condition : Nat → Parser Expr
  | 0 => exhausted
  | n + 1 => do
    expectMark .leftParen "( before condition"
    let e ← expression n
    warnCondition e
    expectMark .rightParen ") after condition"
    return e

def statement : Nat → Parser Stmt
  | 0 => exhausted
  | n + 1 => do
    let place ← here
    match ← peekAs declKind? with
    | some kind =>
      skip
      let ds ← declarators n kind
      endStatement
      return .declare kind ds place
    | none =>
      match ← peek with
      | some (.keyword .function) =>
        skip
        let f ← function n true place
        return .function f place
      | some (.keyword .if_) =>
        skip
        ifStatement n place
      | some (.keyword .while) =>
        skip
        let e ← condition n
        let body ← inLoop (statement n)
        return .while e body place
      | some (.keyword .do_) =>
        skip
        doStatement n place
      | some (.keyword .for_) =>
        skip
        forStatement n place
      | some (.keyword .return_) =>
        skip
        returnStatement n place
      | some (.keyword .break_) =>
        skip
        if (← get).loopDepth = 0 then failAt .breakOutsideLoop place
        endStatement
        return .break_ place
      | some (.keyword .continue_) =>
        skip
        if (← get).loopDepth = 0 then failAt .continueOutsideLoop place
        endStatement
        return .continue_ place
      | some (.keyword .throw) =>
        skip
        if ← newlineBefore then failHere .unexpected
        let e ← expression n
        endStatement
        return .throw e place
      | some (.keyword .try_) =>
        skip
        tryStatement n place
      | some (.mark .leftBrace) =>
        skip
        let body ← block n "\x7d in compound statement"
        return .block body place
      | some (.mark .semicolon) =>
        skip
        return .empty place
      | _ =>
        let e ← expression n
        endStatement
        return .expr e place

def ifStatement : Nat → Location → Parser Stmt
  | 0, _ => exhausted
  | n + 1, place => do
    let e ← condition n
    let yes ← statement n
    if ← eatKeyword .else_ then
      let no ← statement n
      return .if_ e yes (some no) place
    else return .if_ e yes none place

def doStatement : Nat → Location → Parser Stmt
  | 0, _ => exhausted
  | n + 1, place => do
    let body ← inLoop (statement n)
    if !(← eatKeyword .while) then failHere (.missing "while after do-loop body")
    let e ← condition n
    let _ ← eatMark .semicolon
    return .doWhile body e place

/-- The part of a `for` statement in front of its first semicolon. -/
def forInit : Nat → Parser (Option Stmt)
  | 0 => exhausted
  | n + 1 => do
    let place ← here
    match ← peekAs declKind? with
    | some kind =>
      skip
      let ds ← declarators n kind
      return some (.declare kind ds place)
    | none =>
      if ← atMark .semicolon then return none
      else
        let e ← expression n
        return some (.expr e place)

/-- An expression, or nothing in front of `stop`. -/
def optional : Nat → Mark → Parser (Option Expr)
  | 0, _ => exhausted
  | n + 1, stop => do
    if ← atMark stop then return none
    else
      let e ← expression n
      return some e

def forStatement : Nat → Location → Parser Stmt
  | 0, _ => exhausted
  | n + 1, place => do
    expectMark .leftParen "( after for"
    let init ← forInit n
    expectMark .semicolon "; after for-loop initializer"
    let test ← optional n .semicolon
    expectMark .semicolon "; after for-loop condition"
    let step ← optional n .rightParen
    expectMark .rightParen ") after for-loop control"
    let body ← inLoop (statement n)
    return .for_ init test step body place

def returnStatement : Nat → Location → Parser Stmt
  | 0, _ => exhausted
  | n + 1, place => do
    if (← get).functionDepth = 0 then failAt .returnOutsideFunction place
    if (← newlineBefore) || (← atEnd) || (← atMark .semicolon) || (← atMark .rightBrace) then
      endStatement
      return .return_ none place
    else
      let e ← expression n
      endStatement
      return .return_ (some e) place

def tryStatement : Nat → Location → Parser Stmt
  | 0, _ => exhausted
  | n + 1, place => do
    expectMark .leftBrace "\x7b before try block"
    let body ← block n "\x7d after try block"
    let handler ← catchClause n
    let finalizer ← finallyClause n
    if handler.isNone && finalizer.isNone then failHere (.missing "catch or finally after try")
    return .try_ body handler finalizer place

def catchClause : Nat → Parser (Option CatchClause)
  | 0 => exhausted
  | n + 1 => do
    if ← eatKeyword .catch_ then
      expectMark .leftParen "( before catch"
      let param ← expectName "identifier in catch"
      expectMark .rightParen ") after catch"
      expectMark .leftBrace "\x7b before catch block"
      let body ← block n "\x7d after catch block"
      return some (.mk param body)
    else return none

def finallyClause : Nat → Parser (Option (List Stmt))
  | 0 => exhausted
  | n + 1 => do
    if ← eatKeyword .finally_ then
      expectMark .leftBrace "\x7b before finally block"
      let body ← block n "\x7d after finally block"
      return some body
    else return none

end

def statements : Nat → Parser (List Stmt)
  | 0 => exhausted
  | n + 1 => do
    if ← atEnd then return []
    else
      let s ← statement n
      let ss ← statements n
      return s :: ss

/-- A depth that the calls on so many tokens cannot reach: fewer than twenty lie between two
tokens. -/
def depthFor (tokens : Nat) : Nat :=
  20 * (tokens + 2)

end Parser

/-- Reads tokens as a program; also gives the warnings in the order in which they arise. -/
def Program.ofTokens (strict : Bool) (ts : Tokens) :
    Except ParseError (Program × List ParseWarning) :=
  let context : Parser.Context := ⟨ts.finish, ts.newlineAtEnd, strict⟩
  match (Parser.statements (Parser.depthFor ts.items.length)).run context
      ⟨ts.items, [], [[]], 0, 0⟩ with
  | .ok body s => .ok (⟨body, (s.varScopes.headD []).reverse⟩, s.warnings.reverse)
  | .error e _ => .error e

/-- Reads a source as a program. Lines are counted from one at least. -/
def Program.ofSource (options : ParseOptions) (source : String) :
    Except ParseError (Program × List ParseWarning) :=
  match Tokens.ofSource options.letKeywords (max 1 options.startLine) source with
  | .ok ts => Program.ofTokens options.strict ts
  | .error e => .error e

/-- Whether a source is a unit of its own: false only if it fails because it ends too early. -/
def isCompilable (options : ParseOptions) (source : String) : Bool :=
  match Program.ofSource options source with
  | .ok _ => true
  | .error e => !e.atEnd

end ScriptShell
