import ScriptShell.Program.Parser

namespace ScriptShell.Parser

variable {α β : Type}

namespace State

def next (s : State) : Option TokenKind :=
  s.rest.head?.map (·.kind)

def nextIs (m : Mark) (s : State) : Bool :=
  match s.next with
  | some (.mark m') => m = m'
  | _ => false

def nextIsKeyword (k : Keyword) (s : State) : Bool :=
  match s.next with
  | some (.keyword k') => k = k'
  | _ => false

theorem rest_of_next {s : State} {k : TokenKind} (h : s.next = some k) :
    ∃ token rest, s.rest = token :: rest ∧ token.kind = k := by
  cases hrest : s.rest with
  | nil => simp [State.next, hrest] at h
  | cons token rest => exact ⟨token, rest, rfl, by simpa [State.next, hrest] using h⟩

theorem nextIs_iff {m : Mark} {s : State} : s.nextIs m = true ↔ s.next = some (.mark m) := by
  unfold nextIs
  split
  case h_1 m' h => simp [h, eq_comm]
  case h_2 h => exact ⟨nofun, fun hnext => (h m hnext).elim⟩

theorem nextIsKeyword_iff {k : Keyword} {s : State} :
    s.nextIsKeyword k = true ↔ s.next = some (.keyword k) := by
  unfold nextIsKeyword
  split
  case h_1 k' h => simp [h, eq_comm]
  case h_2 h => exact ⟨nofun, fun hnext => (h k hnext).elim⟩

def skip (s : State) : State :=
  { s with rest := s.rest.tail }

def facing (s : State) (rest : List Token) : State :=
  { s with rest }

def here (c : Context) (s : State) : Location :=
  (s.rest.head?.map (·.place)).getD c.finish

def newlineBefore (c : Context) (s : State) : Bool :=
  (s.rest.head?.map (·.newlineBefore)).getD c.newlineAtEnd

def warn (c : Context) (remark : Remark) (place : Location) (s : State) : State :=
  if !remark.isStrict || c.strict then { s with warnings := ⟨remark, place⟩ :: s.warnings } else s

def declareVar (c : Context) (name : String) (place : Location) (s : State) : State :=
  match s.varScopes with
  | names :: outer =>
    if names.contains name then s.warn c (.redeclared name) place
    else { s with varScopes := (name :: names) :: outer }
  | [] => s

def warnUnreachable (c : Context) (body : List Stmt) (s : State) : State :=
  match unreachable? false body with
  | some place => s.warn c .unreachable place
  | none => s

def warnCondition (c : Context) (e : Expr) (s : State) : State :=
  match e with
  | .assign none _ _ place => s.warn c .assignmentAsCondition place
  | _ => s

def enterLoop (s : State) : State :=
  { s with loopDepth := s.loopDepth + 1 }

def leaveLoop (s : State) : State :=
  { s with loopDepth := s.loopDepth - 1 }

def enterFunction (s : State) : State :=
  { s with varScopes := [] :: s.varScopes, functionDepth := s.functionDepth + 1, loopDepth := 0 }

def leaveFunction (loopDepth : Nat) (s : State) : State :=
  { s with varScopes := s.varScopes.tail, functionDepth := s.functionDepth - 1, loopDepth }

section Rest

variable (c : Context) (s : State)

@[simp] theorem rest_warn (remark : Remark) (place : Location) :
    (s.warn c remark place).rest = s.rest := by
  unfold warn
  split <;> rfl

@[simp] theorem rest_declareVar (name : String) (place : Location) :
    (s.declareVar c name place).rest = s.rest := by
  unfold declareVar
  split
  · split
    · exact rest_warn c s _ _
    · rfl
  · rfl

@[simp] theorem rest_warnUnreachable (body : List Stmt) :
    (s.warnUnreachable c body).rest = s.rest := by
  unfold warnUnreachable
  split
  · exact rest_warn c s _ _
  · rfl

@[simp] theorem rest_warnCondition (e : Expr) : (s.warnCondition c e).rest = s.rest := by
  unfold warnCondition
  split
  · exact rest_warn c s _ _
  · rfl

@[simp] theorem rest_facing (rest : List Token) : (s.facing rest).rest = rest := rfl

@[simp] theorem rest_skip : s.skip.rest = s.rest.tail := rfl

@[simp] theorem rest_enterLoop : s.enterLoop.rest = s.rest := rfl

@[simp] theorem rest_leaveLoop : s.leaveLoop.rest = s.rest := rfl

@[simp] theorem rest_enterFunction : s.enterFunction.rest = s.rest := rfl

@[simp] theorem rest_leaveFunction (loopDepth : Nat) :
    (s.leaveFunction loopDepth).rest = s.rest := rfl

end Rest

end State

def Run (x : Parser α) (c : Context) (s : State) (P : α → State → Prop)
    (E : ParseError → State → Prop) : Prop :=
  match x c s with
  | .ok a t => P a t
  | .error e t => E e t

namespace Run

variable {c : Context} {s : State} {P P' : α → State → Prop} {E E' : ParseError → State → Prop}

theorem iff_ok {x : Parser α} {a : α} {t : State} (h : x c s = .ok a t) :
    Run x c s P E ↔ P a t := by
  rw [Run, h]

theorem iff_error {x : Parser α} {e : ParseError} {t : State} (h : x c s = .error e t) :
    Run x c s P E ↔ E e t := by
  rw [Run, h]

theorem imp {x : Parser α} (h : Run x c s P E) (hP : ∀ a t, P a t → P' a t)
    (hE : ∀ e t, E e t → E' e t) : Run x c s P' E' := by
  unfold Run at *
  cases hx : x c s with
  | ok a t => exact hP a t (by simpa [hx] using h)
  | error e t => exact hE e t (by simpa [hx] using h)

theorem of_forall {x : Parser α} (hP : ∀ a t, P a t) (hE : ∀ e t, E e t) : Run x c s P E := by
  unfold Run
  split
  · exact hP _ _
  · exact hE _ _

theorem bind_iff {x : Parser α} {g : α → Parser β} {Q : β → State → Prop} :
    Run (x >>= g) c s Q E ↔ Run x c s (fun a t => Run (g a) c t Q E) E := by
  change (match EStateM.bind (x c) (fun a => g a c) s with
    | .ok a t => Q a t
    | .error e t => E e t) ↔ _
  unfold EStateM.bind Run
  cases x c s with
  | ok a t => exact Iff.rfl
  | error e t => exact Iff.rfl

end Run

section Equations

variable (c : Context) (s : State)

theorem bind_ok {x : Parser α} {g : α → Parser β} {c : Context} {s t : State} {a : α}
    (h : x c s = .ok a t) : (x >>= g) c s = g a c t := by
  change EStateM.bind (x c) (fun a => g a c) s = _
  rw [EStateM.bind, h]

theorem bind_error {x : Parser α} {g : α → Parser β} {c : Context} {s t : State} {e : ParseError}
    (h : x c s = .error e t) : (x >>= g) c s = .error e t := by
  change EStateM.bind (x c) (fun a => g a c) s = _
  rw [EStateM.bind, h]

theorem get_eq : (get : Parser State) c s = .ok s s := rfl

theorem peek_eq : peek c s = .ok s.next s := rfl

theorem here_eq : Parser.here c s = .ok (s.here c) s := rfl

theorem newlineBefore_eq : Parser.newlineBefore c s = .ok (s.newlineBefore c) s := rfl

theorem atEnd_eq : atEnd c s = .ok s.rest.isEmpty s := rfl

theorem skip_eq : Parser.skip c s = .ok () s.skip := rfl

theorem failAt_eq (fault : ParseFault) (place : Location) :
    (failAt fault place : Parser α) c s = .error ⟨fault, place, false⟩ s := rfl

theorem failHere_eq (fault : ParseFault) :
    (failHere fault : Parser α) c s = .error ⟨fault, s.here c, s.rest.isEmpty⟩ s := rfl

theorem exhausted_eq :
    (exhausted : Parser α) c s = .error ⟨.exhausted, s.here c, false⟩ s := rfl

theorem peekAs_eq (reading : TokenKind → Option α) :
    peekAs reading c s = .ok (s.next.bind reading) s := rfl

theorem atMark_eq (m : Mark) : atMark m c s = .ok (s.nextIs m) s := by
  rw [atMark, bind_ok (peek_eq c s), State.nextIs]
  cases s.next with
  | none => rfl
  | some k => cases k <;> rfl

theorem eatMark_eq (m : Mark) :
    eatMark m c s = if s.nextIs m then .ok true s.skip else .ok false s := by
  rw [eatMark, bind_ok (atMark_eq c s m)]
  cases s.nextIs m <;> rfl

theorem eatKeyword_eq (k : Keyword) :
    eatKeyword k c s = if s.nextIsKeyword k then .ok true s.skip else .ok false s := by
  rw [eatKeyword, bind_ok (peek_eq c s), State.nextIsKeyword]
  cases s.next with
  | none => rfl
  | some next =>
    cases next with
    | keyword k' => by_cases h : k = k' <;> simp [h] <;> rfl
    | _ => rfl

theorem expectMark_eq (m : Mark) (what : String) :
    expectMark m what c s = if s.nextIs m then .ok () s.skip
      else .error ⟨.missing what, s.here c, s.rest.isEmpty⟩ s := by
  cases h : s.nextIs m with
  | true => rw [expectMark, bind_ok ((eatMark_eq c s m).trans (if_pos h))]; rfl
  | false =>
    rw [expectMark, bind_ok ((eatMark_eq c s m).trans (if_neg (Bool.not_eq_true _ ▸ h)))]
    rfl

theorem expectName_eq (what : String) :
    expectName what c s = match s.next with
      | some (.name x) => .ok x s.skip
      | _ => .error ⟨.missing what, s.here c, s.rest.isEmpty⟩ s := by
  rw [expectName, bind_ok (peek_eq c s)]
  cases s.next with
  | none => rfl
  | some k => cases k <;> rfl

theorem endStatement_eq :
    endStatement c s = if s.nextIs .semicolon then .ok () s.skip
      else if s.newlineBefore c || s.rest.isEmpty || s.nextIs .rightBrace then .ok () s
      else .error ⟨.missing "; before statement", s.here c, s.rest.isEmpty⟩ s := by
  cases h : s.nextIs .semicolon with
  | true => rw [endStatement, bind_ok ((eatMark_eq c s _).trans (if_pos h))]; rfl
  | false =>
    rw [endStatement, bind_ok ((eatMark_eq c s _).trans (if_neg (Bool.not_eq_true _ ▸ h)))]
    simp only [Bool.false_eq_true, if_false]
    rw [bind_ok (newlineBefore_eq c s), bind_ok (atEnd_eq c s), bind_ok (atMark_eq c s _)]
    cases s.newlineBefore c || s.rest.isEmpty || s.nextIs .rightBrace <;> rfl

theorem warn_eq (remark : Remark) (place : Location) :
    Parser.warn remark place c s = .ok () (s.warn c remark place) := by
  change (bind _ _ : Parser _) c s = _
  rw [bind_ok (x := read) (a := c) (t := s) rfl, State.warn]
  cases !remark.isStrict || c.strict <;> rfl

theorem declareVar_eq (name : String) (place : Location) :
    Parser.declareVar name place c s = .ok () (s.declareVar c name place) := by
  rw [Parser.declareVar, bind_ok (get_eq c s), State.declareVar]
  cases s.varScopes with
  | nil => rfl
  | cons names outer =>
    cases h : names.contains name with
    | true => simp only [h, if_true, warn_eq]
    | false => simp only [h, Bool.false_eq_true, if_false]; rfl

theorem warnUnreachable_eq (body : List Stmt) :
    Parser.warnUnreachable body c s = .ok () (s.warnUnreachable c body) := by
  rw [Parser.warnUnreachable, State.warnUnreachable]
  cases unreachable? false body with
  | none => rfl
  | some place => exact warn_eq c s _ _

theorem warnCondition_eq (e : Expr) :
    Parser.warnCondition e c s = .ok () (s.warnCondition c e) := by
  cases e with
  | assign op _ _ place =>
    cases op with
    | none => exact warn_eq c s _ _
    | some _ => rfl
  | _ => rfl

theorem inLoop_eq (p : Parser α) :
    inLoop p c s = match p c s.enterLoop with
      | .ok a t => .ok a t.leaveLoop
      | .error e t => .error e t := by
  change EStateM.bind (p c) (fun a t => .ok a t.leaveLoop) s.enterLoop = _
  unfold EStateM.bind
  cases p c s.enterLoop <;> rfl

theorem inFunction_eq (p : Parser α) :
    inFunction p c s = match p c s.enterFunction with
      | .ok a t => .ok (a, (t.varScopes.headD []).reverse) (t.leaveFunction s.loopDepth)
      | .error e t => .error e t := by
  change EStateM.bind (p c) (fun a t => .ok (a, (t.varScopes.headD []).reverse)
    (t.leaveFunction s.loopDepth)) s.enterFunction = _
  unfold EStateM.bind
  cases p c s.enterFunction <;> rfl

end Equations

section Parts

variable (n : Nat) (place : Location)

def functionBody (name : Option String) (params : List String) : Parser FunctionDef := do
  expectMark .rightParen ") after formal parameters"
  expectMark .leftBrace "\x7b before function body"
  let r ← inFunction (block n "\x7d after function body")
  return .mk name params r.1 r.2 place

/-- A function behind its name. -/
def functionRest (name : Option String) : Parser FunctionDef := do
  expectMark .leftParen "( before formal parameters"
  if ← atMark .rightParen then functionBody n place name []
  else
    let params ← parameters n
    functionBody n place name params

theorem function_succ (named : Bool) :
    function (n + 1) named place = (do
      match ← peek with
      | some (.name name) =>
        skip
        functionRest n place (some name)
      | _ =>
        if named then
          let name ← failHere (.missing "name after function")
          functionRest n place name
        else functionRest n place none) := rfl

/-- What follows a declared name and its value. -/
def declaratorsAfter (kind : DeclKind) (name : String) (init : Option Expr) :
    Parser (List Declarator) := do
  if ← eatMark .comma then
    let ds ← declarators n kind
    return .mk name init place :: ds
  else return [.mk name init place]

def declaratorsFrom (kind : DeclKind) (name : String) (init : Option Expr) :
    Parser (List Declarator) := do
  if kind = .var then declareVar name place
  declaratorsAfter n place kind name init

theorem declarators_succ (kind : DeclKind) :
    declarators (n + 1) kind = (do
      let place ← here
      let name ← expectName "variable name"
      if ← eatMark .eq then
        let e ← assignment n
        declaratorsFrom n place kind name (some e)
      else if kind = .const then
        let init ← failHere (.missing "= in const declaration")
        declaratorsFrom n place kind name init
      else declaratorsFrom n place kind name none) := by
  rw [declarators]
  congr 1; funext place; congr 1; funext name; congr 1; funext b
  cases b with
  | true => exact bind_map_left some (assignment n) _
  | false => rfl

def loopJump (fault : ParseFault) (place : Location) (s : Stmt) : Parser Stmt := do
  if (← get).loopDepth = 0 then failAt fault place
  endStatement
  return s

def whileStatement : Parser Stmt := do
  let e ← condition n
  let body ← inLoop (statement n)
  return .while e body place

def throwStatement : Parser Stmt := do
  if ← newlineBefore then failHere .unexpected
  let e ← expression n
  endStatement
  return .throw e place

def doRest (body : Stmt) : Parser Stmt := do
  if !(← eatKeyword .while) then failHere (.missing "while after do-loop body")
  let e ← condition n
  let _ ← eatMark .semicolon
  return .doWhile body e place

theorem doStatement_succ :
    doStatement (n + 1) place = (do
      let body ← inLoop (statement n)
      doRest n place body) := rfl

def returnNothing : Parser Stmt := do
  endStatement
  return .return_ none place

def returnValue : Parser Stmt := do
  let e ← expression n
  endStatement
  return .return_ (some e) place

theorem returnStatement_succ :
    returnStatement (n + 1) place = (do
      if (← get).functionDepth = 0 then failAt .returnOutsideFunction place
      if (← newlineBefore) || (← atEnd) || (← atMark .semicolon) || (← atMark .rightBrace) then
        returnNothing place
      else returnValue n place) := rfl

def tryRest (body : List Stmt) : Parser Stmt := do
  let handler ← catchClause n
  let finalizer ← finallyClause n
  if handler.isNone && finalizer.isNone then failHere (.missing "catch or finally after try")
  return .try_ body handler finalizer place

theorem tryStatement_succ :
    tryStatement (n + 1) place = (do
      expectMark .leftBrace "\x7b before try block"
      let body ← block n "\x7d after try block"
      tryRest n place body) := rfl

/-- A statement that begins with a token which tells its form. -/
def statementAt : TokenKind → Parser Stmt
  | .keyword .function => do
    skip
    let f ← function n true place
    return .function f place
  | .keyword .if_ => do
    skip
    ifStatement n place
  | .keyword .while => do
    skip
    whileStatement n place
  | .keyword .do_ => do
    skip
    doStatement n place
  | .keyword .for_ => do
    skip
    forStatement n place
  | .keyword .return_ => do
    skip
    returnStatement n place
  | .keyword .break_ => do
    skip
    loopJump .breakOutsideLoop place (.break_ place)
  | .keyword .continue_ => do
    skip
    loopJump .continueOutsideLoop place (.continue_ place)
  | .keyword .throw => do
    skip
    throwStatement n place
  | .keyword .try_ => do
    skip
    tryStatement n place
  | .mark .leftBrace => do
    skip
    let body ← block n "\x7d in compound statement"
    return .block body place
  | .mark .semicolon => do
    skip
    return .empty place
  | _ => do
    let e ← expression n
    endStatement
    return .expr e place

theorem statement_succ :
    statement (n + 1) = (do
      let place ← here
      match ← peekAs declKind? with
      | some kind =>
        skip
        let ds ← declarators n kind
        endStatement
        return .declare kind ds place
      | none =>
        match ← peek with
        | some k => statementAt n place k
        | none =>
          let e ← expression n
          endStatement
          return .expr e place) := by
  rw [statement]
  congr 1; funext place; congr 1; funext kind
  cases kind with
  | some kind => rfl
  | none =>
    change (bind _ _ : Parser _) = bind _ _
    congr 1; funext next
    cases next with
    | none => rfl
    | some k =>
      cases k with
      | keyword k => cases k <;> rfl
      | mark m => cases m <;> rfl
      | _ => rfl

end Parts

end ScriptShell.Parser

namespace ScriptShell.Program

variable {strict : Bool} {ts : Tokens}

/-- What the parser is told about a source besides its tokens. -/
def contextOf (strict : Bool) (ts : Tokens) : Parser.Context :=
  ⟨ts.finish, ts.newlineAtEnd, strict⟩

def stateOf (ts : Tokens) : Parser.State :=
  ⟨ts.items, [], [[]], 0, 0⟩

theorem ofTokens_eq_ok {p : Program} {w : List ParseWarning} :
    ofTokens strict ts = .ok (p, w) ↔ ∃ t,
      Parser.statements (Parser.depthFor ts.items.length) (contextOf strict ts) (stateOf ts) =
        .ok p.body t ∧ p.varNames = (t.varScopes.headD []).reverse ∧ w = t.warnings.reverse := by
  obtain ⟨body, names⟩ := p
  unfold ofTokens
  extract_lets c
  split
  case h_1 body' t hrun =>
    constructor
    · rintro ⟨⟩
      exact ⟨t, hrun, rfl, rfl⟩
    · rintro ⟨t', hrun', hnames, rfl⟩
      cases hrun.symm.trans hrun'
      exact congrArg (fun names => Except.ok (Program.mk _ names, _)) hnames.symm
  case h_2 e t hrun =>
    constructor
    · rintro ⟨⟩
    · rintro ⟨t', hrun', -⟩
      cases hrun.symm.trans hrun'

theorem ofTokens_eq_error {e : ParseError} :
    ofTokens strict ts = .error e ↔ ∃ t,
      Parser.statements (Parser.depthFor ts.items.length) (contextOf strict ts) (stateOf ts) =
        .error e t := by
  unfold ofTokens
  extract_lets c
  split
  case h_1 body t hrun =>
    constructor
    · rintro ⟨⟩
    · rintro ⟨t', hrun'⟩
      cases hrun.symm.trans hrun'
  case h_2 e' t hrun =>
    constructor
    · rintro ⟨⟩
      exact ⟨t, hrun⟩
    · rintro ⟨t', hrun'⟩
      cases hrun.symm.trans hrun'
      rfl

end ScriptShell.Program
