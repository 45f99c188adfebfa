import ScriptShell.Proofs.Parser.Log

namespace ScriptShell

namespace Parser

/-- With a bound on the depth of calls, what each function of the parser writes down is told by its
result. -/
structure Recorded (n : Nat) : Prop where
  expression : Records .nil (expression n) .ofExpr
  sequenceRest : Records .nil (sequenceRest n) .ofExprs
  assignment : Records .nil (assignment n) .ofExpr
  conditional : Records .nil (conditional n) .ofExpr
  disjunction : Records .nil (disjunction n) .ofExpr
  disjunctionRest : ∀ left, Records (.ofExpr left) (disjunctionRest n left) .ofExpr
  conjunction : Records .nil (conjunction n) .ofExpr
  conjunctionRest : ∀ left, Records (.ofExpr left) (conjunctionRest n left) .ofExpr
  binary : ∀ least, Records .nil (binary n least) .ofExpr
  binaryRest : ∀ least left, Records (.ofExpr left) (binaryRest n least left) .ofExpr
  unary : Records .nil (unary n) .ofExpr
  postfixed : Records .nil (postfixed n) .ofExpr
  access : Records .nil (access n) .ofExpr
  accessRest : ∀ e, Records (.ofExpr e) (accessRest n e) .ofExpr
  arguments : Records .nil (arguments n) .ofExprs
  argumentList : Records .nil (argumentList n) .ofExprs
  primary : Records .nil (primary n) .ofExpr
  elements : Records .nil (elements n) .ofExprs
  properties : Records .nil (properties n) fun es => .ofExprs (es.map Prod.snd)
  function : ∀ named place, Records .nil (function n named place) fun f => .ofParts [.function f]
  block : ∀ what, Records .nil (block n what) .ofBlock
  blockRest : ∀ what, Records .nil (blockRest n what) .ofBody
  declarators : ∀ kind, Records .nil (declarators n kind) (.ofDeclarators kind)
  condition : Records .nil (condition n) .ofCondition
  statement : Records .nil (statement n) .ofStmt
  ifStatement : ∀ place, Records .nil (ifStatement n place) .ofStmt
  doStatement : ∀ place, Records .nil (doStatement n place) .ofStmt
  forInit : Records .nil (forInit n) .ofOption
  optional : ∀ stop, Records .nil (optional n stop) fun e => .ofExprs e.toList
  forStatement : ∀ place, Records .nil (forStatement n place) .ofStmt
  returnStatement : ∀ place, Records .nil (returnStatement n place) .ofStmt
  tryStatement : ∀ place, Records .nil (tryStatement n place) .ofStmt
  catchClause : Records .nil (catchClause n) .ofHandler
  finallyClause : Records .nil (finallyClause n) .ofFinal

open Records

theorem update_records (op : UpdateOp) (before : Bool) (e : Expr) (place : Location) :
    Records (.ofExpr e) (update op before e place) .ofExpr := by
  apply Records.ite
  · intro he
    apply behind (Log.Entails.target he)
    exact .pure (Log.Entails.expr (.update _ _ _ _))
  · intro _
    exact .failAt _ _

theorem ofExpr_literal {place : Location} {k : TokenKind} {e : Expr}
    (h : literal? place k = some e) : Part.ofExpr e = [] := by
  unfold literal? at h
  split at h <;> cases h <;> rfl

theorem returnNothing_records (place : Location) : Records .nil (returnNothing place) .ofStmt :=
  quietly .endStatement fun _ => .pure (Log.Entails.stmt rfl (.refl _) (.refl _))

theorem loopJump_records (place : Location) (fault : ParseFault) {s : Stmt} (hvars : s.vars = [])
    (hparts : Part.ofStmt s = []) (hremarks : Part.remarks (.stmt s) = []) :
    Records .nil (loopJump fault place s) .ofStmt := by
  refine quietly .get fun _ => .ite (fun _ => .failAt_bind _ _) fun _ => ?_
  refine quietly .endStatement fun _ => .pure (Log.Entails.stmt hvars.symm ?_ ?_)
  · exact hparts ▸ .refl _
  · exact hremarks ▸ .refl _

section Expressions

variable {n : Nat} (ih : Recorded n)
include ih

theorem expression_records : Records .nil (expression (n + 1)) .ofExpr := by
  refine ih.assignment.bind fun first => quietly (.atMark _) fun _ => .ite (fun _ => ?_) fun _ => ?_
  · refine next ih.sequenceRest fun others => ?_
    exact .pure (Log.Entails.expr (.sequence (first :: others) _))
  · exact .pure .rfl

theorem sequenceRest_records : Records .nil (sequenceRest (n + 1)) .ofExprs := by
  refine quietly (.eatMark _) fun _ => .ite (fun _ => ?_) fun _ => .pure .rfl
  exact ih.assignment.bind fun e => next ih.sequenceRest fun es => .pure .rfl

theorem assignment_records : Records .nil (assignment (n + 1)) .ofExpr := by
  refine ih.conditional.bind fun target => quietly (.peekAs _) fun op => ?_
  cases op with
  | none => exact .pure .rfl
  | some op =>
    refine quietly .here fun place => .ite (fun htarget => ?_) fun _ => .failAt _ _
    refine quietly .skip fun _ => next ih.assignment fun value => ?_
    apply behind (Log.Entails.target htarget)
    exact .pure (Log.Entails.expr (.assign _ _ _ _))

theorem conditional_records : Records .nil (conditional (n + 1)) .ofExpr := by
  refine ih.disjunction.bind fun c => quietly (.eatMark _) fun _ => ?_
  refine .ite (fun _ => ?_) fun _ => .pure .rfl
  refine next ih.assignment fun yes => quietly (.expectMark _ _) fun _ => ?_
  exact next ih.assignment fun no => .pure (Log.Entails.expr (.conditional _ _ _ _))

theorem disjunction_records : Records .nil (disjunction (n + 1)) .ofExpr :=
  ih.conjunction.bind ih.disjunctionRest

theorem disjunctionRest_records (left : Expr) :
    Records (.ofExpr left) (disjunctionRest (n + 1) left) .ofExpr := by
  refine quietly .here fun place => quietly (.eatMark _) fun _ => ?_
  refine .ite (fun _ => ?_) fun _ => .pure .rfl
  refine next ih.conjunction fun right => behind ?_ (ih.disjunctionRest _)
  exact Log.Entails.expr (.logical _ _ _ _)

theorem conjunction_records : Records .nil (conjunction (n + 1)) .ofExpr :=
  (ih.binary 1).bind ih.conjunctionRest

theorem conjunctionRest_records (left : Expr) :
    Records (.ofExpr left) (conjunctionRest (n + 1) left) .ofExpr := by
  refine quietly .here fun place => quietly (.eatMark _) fun _ => ?_
  refine .ite (fun _ => ?_) fun _ => .pure .rfl
  refine next (ih.binary 1) fun right => behind ?_ (ih.conjunctionRest _)
  exact Log.Entails.expr (.logical _ _ _ _)

theorem binary_records (least : Nat) : Records .nil (binary (n + 1) least) .ofExpr :=
  ih.unary.bind (ih.binaryRest least)

theorem binaryRest_records (least : Nat) (left : Expr) :
    Records (.ofExpr left) (binaryRest (n + 1) least left) .ofExpr := by
  refine quietly (.peekAs _) fun op => ?_
  cases op with
  | none => exact .pure .rfl
  | some op =>
    refine .ite (fun _ => .pure .rfl) fun _ => quietly .here fun place => quietly .skip fun _ => ?_
    refine next (ih.binary _) fun right => behind ?_ (ih.binaryRest _ _)
    exact Log.Entails.expr (.binary _ _ _ _)

theorem unary_records : Records .nil (unary (n + 1)) .ofExpr := by
  refine quietly .here fun place => quietly (.peekAs _) fun op => ?_
  cases op with
  | some op =>
    refine quietly .skip fun _ => ih.unary.bind fun operand => ?_
    exact .pure (Log.Entails.expr (.unary _ _ _))
  | none =>
    refine quietly (.peekAs _) fun op => ?_
    cases op with
    | some op => exact quietly .skip fun _ => ih.unary.bind fun e => update_records _ _ _ _
    | none => exact ih.postfixed

theorem postfixed_records : Records .nil (postfixed (n + 1)) .ofExpr := by
  refine ih.access.bind fun e => quietly .newlineBefore fun _ => ?_
  refine .ite (fun _ => .pure .rfl) fun _ => ?_
  refine quietly (.peekAs _) fun op => ?_
  cases op with
  | some op => exact quietly .here fun place => quietly .skip fun _ => update_records _ _ _ _
  | none => exact .pure .rfl

theorem access_records : Records .nil (access (n + 1)) .ofExpr :=
  ih.primary.bind ih.accessRest

theorem accessRest_records (e : Expr) :
    Records (.ofExpr e) (accessRest (n + 1) e) .ofExpr := by
  refine quietly .here fun place => quietly (.eatMark _) fun _ => .ite (fun _ => ?_) fun _ => ?_
  · refine quietly (.expectName _) fun _ => behind ?_ (ih.accessRest _)
    exact Log.Entails.expr (.member _ _ _)
  refine quietly (.eatMark _) fun _ => .ite (fun _ => ?_) fun _ => ?_
  · refine next ih.expression fun index => quietly (.expectMark _ _) fun _ => ?_
    exact behind (Log.Entails.expr (.index _ _ _)) (ih.accessRest _)
  refine quietly (.eatMark _) fun _ => .ite (fun _ => ?_) fun _ => .pure .rfl
  refine next ih.arguments fun args => behind ?_ (ih.accessRest _)
  exact Log.Entails.expr (.call _ _ _)

theorem arguments_records : Records .nil (arguments (n + 1)) .ofExprs := by
  refine quietly (.eatMark _) fun _ => .ite (fun _ => .pure .rfl) fun _ => ?_
  exact ih.argumentList.bind fun args => quietly (.expectMark _ _) fun _ => .pure .rfl

theorem argumentList_records : Records .nil (argumentList (n + 1)) .ofExprs := by
  refine ih.assignment.bind fun e => quietly (.eatMark _) fun _ => ?_
  refine .ite (fun _ => ?_) fun _ => .pure .rfl
  exact next ih.argumentList fun es => .pure .rfl

theorem elements_records : Records .nil (elements (n + 1)) .ofExprs := by
  refine quietly (.atMark _) fun _ => .ite (fun _ => .pure .rfl) fun _ => ?_
  refine ih.assignment.bind fun e => quietly (.eatMark _) fun _ => ?_
  refine .ite (fun _ => ?_) fun _ => .pure .rfl
  exact next ih.elements fun es => .pure .rfl

theorem properties_records :
    Records .nil (properties (n + 1)) fun es => .ofExprs (es.map Prod.snd) := by
  refine quietly (.atMark _) fun _ => .ite (fun _ => .pure .rfl) fun _ => ?_
  refine quietly (.peekAs _) fun key => ?_
  cases key with
  | none => exact .failHere _
  | some key =>
    refine quietly .skip fun _ => quietly (.expectMark _ _) fun _ => ih.assignment.bind fun e => ?_
    refine quietly (.eatMark _) fun _ => .ite (fun _ => ?_) fun _ => .pure .rfl
    exact next ih.properties fun es => .pure .rfl

theorem primary_records : Records .nil (primary (n + 1)) .ofExpr := by
  refine quietly .here fun place => .peekAs (fun next e he => ?_) ?_
  · refine quietly .skip fun _ => .pure ?_
    have h := Log.Entails.expr e
    rwa [ofExpr_literal he] at h
  refine quietly .peek fun next => ?_
  split
  · refine quietly .skip fun _ => ih.expression.bind fun e => ?_
    exact quietly (.expectMark _ _) fun _ => .pure .rfl
  · refine quietly .skip fun _ => ih.elements.bind fun es => quietly (.expectMark _ _) fun _ => ?_
    exact .pure (Log.Entails.expr (.array _ _))
  · refine quietly .skip fun _ => ih.properties.bind fun es => quietly (.expectMark _ _) fun _ => ?_
    have hparts : Part.ofExpr (.object es place) = (es.map Prod.snd).map .expr :=
      List.map_map.symm
    have h := Log.Entails.expr (.object es place)
    rw [hparts] at h
    exact .pure h
  · refine quietly .skip fun _ => (ih.function _ _).bind fun f => ?_
    exact .pure (Log.Entails.expr (.function _ _))
  · exact .failHere _

end Expressions

section Statements

variable {n : Nat} (ih : Recorded n) (place : Location)
include ih

theorem functionBody_records (name : Option String) (params : List String) :
    Records .nil (functionBody n place name params) fun f => .ofParts [.function f] :=
  quietly (.expectMark _ _) fun _ => quietly (.expectMark _ _) fun _ =>
    .inFunction (ih.block _) name params place

theorem functionRest_records (name : Option String) :
    Records .nil (functionRest n place name) fun f => .ofParts [.function f] := by
  refine quietly (.expectMark _ _) fun _ => quietly (.atMark _) fun _ => ?_
  refine .ite (fun _ => ?_) fun _ => ?_
  · exact functionBody_records ih place name []
  · exact quietly (.parameters n) fun params => functionBody_records ih place name params

theorem function_records (named : Bool) :
    Records .nil (function (n + 1) named place) fun f => .ofParts [.function f] := by
  rw [function_succ]
  refine quietly .peek fun next => ?_
  split
  · exact quietly .skip fun _ => functionRest_records ih place _
  · exact .ite (fun _ => .failHere_bind _) fun _ => functionRest_records ih place none

theorem block_records (what : String) : Records .nil (block (n + 1) what) .ofBlock := by
  refine (ih.blockRest what).bind fun body => next (.warnUnreachable body) fun _ => .pure ?_
  apply Log.Entails.perm <;> simp

theorem blockRest_records (what : String) : Records .nil (blockRest (n + 1) what) .ofBody := by
  refine quietly (.eatMark _) fun _ => .ite (fun _ => .pure .rfl) fun _ => ?_
  refine quietly .atEnd fun _ => .ite (fun _ => .failHere _) fun _ => ?_
  exact ih.statement.bind fun s => next (ih.blockRest what) fun ss => .pure .rfl

theorem declaratorsAfter_records (kind : DeclKind) (name : String) (init : Option Expr) :
    Records (.ofDeclarators kind [.mk name init place]) (declaratorsAfter n place kind name init)
      (.ofDeclarators kind) := by
  refine quietly (.eatMark _) fun _ => .ite (fun _ => ?_) fun _ => .pure .rfl
  refine next (ih.declarators kind) fun ds => .pure ?_
  cases kind <;> apply Log.Entails.perm <;> simp [DeclKind.vars]

theorem declaratorsFrom_records (kind : DeclKind) (name : String) (init : Option Expr) :
    Records (.ofExprs init.toList) (declaratorsFrom n place kind name init)
      (.ofDeclarators kind) := by
  have hafter := declaratorsAfter_records ih place kind name init
  refine .ite (fun hkind => ?_) fun hkind => behind ?_ hafter
  · subst hkind
    refine next (.declareVar name place) fun _ => behind ?_ hafter
    apply Log.Entails.perm <;> simp [DeclKind.vars, Part.ofDeclarator]
    rfl
  · cases kind with
    | var => exact (hkind rfl).elim
    | _ => apply Log.Entails.perm <;> simp [DeclKind.vars, Part.ofDeclarator]

theorem declarators_records (kind : DeclKind) :
    Records .nil (declarators (n + 1) kind) (.ofDeclarators kind) := by
  rw [declarators_succ]
  refine quietly .here fun place => quietly (.expectName _) fun name => ?_
  refine quietly (.eatMark _) fun _ => .ite (fun _ => ?_) fun _ => .ite (fun _ => ?_) fun _ => ?_
  · exact ih.assignment.bind fun e => declaratorsFrom_records ih place kind name (some e)
  · exact .failHere_bind _
  · exact declaratorsFrom_records ih place kind name none

theorem condition_records : Records .nil (condition (n + 1)) .ofCondition := by
  refine quietly (.expectMark _ _) fun _ => ih.expression.bind fun e => ?_
  exact next (.warnCondition e) fun _ => quietly (.expectMark _ _) fun _ => .pure .rfl

theorem optional_records (stop : Mark) :
    Records .nil (optional (n + 1) stop) fun e => .ofExprs e.toList := by
  refine quietly (.atMark _) fun _ => .ite (fun _ => .pure .rfl) fun _ => ?_
  exact ih.expression.bind fun e => .pure .rfl

theorem ifStatement_records : Records .nil (ifStatement (n + 1) place) .ofStmt := by
  refine ih.condition.bind fun c => next ih.statement fun yes => quietly (.eatKeyword _) fun _ => ?_
  refine .ite (fun _ => ?_) fun _ => ?_
  · refine next ih.statement fun no => .pure ?_
    apply Log.Entails.stmt <;> simp [Stmt.vars, varsOption, Part.ofStmt, Part.remarks]
  · refine .pure ?_
    apply Log.Entails.stmt <;> simp [Stmt.vars, varsOption, Part.ofStmt, Part.remarks]

theorem whileStatement_records : Records .nil (whileStatement n place) .ofStmt := by
  refine ih.condition.bind fun c => next (.inLoop ih.statement) fun body => .pure ?_
  apply Log.Entails.stmt <;> simp [Stmt.vars, Part.ofStmt, Part.remarks]

theorem doRest_records (body : Stmt) : Records (.ofStmt body) (doRest n place body) .ofStmt := by
  have hrest : Records (.ofStmt body) (do
      let e ← condition n
      let _ ← eatMark .semicolon
      return .doWhile body e place) .ofStmt := by
    refine next ih.condition fun c => quietly (.eatMark _) fun _ => ?_
    refine .pure (Log.Entails.stmt ?_ ?_ ?_)
    · simp [Stmt.vars]
    · exact .swap _ _ _
    · simp [Part.remarks]
  refine quietly (.eatKeyword _) fun _ => .ite (fun _ => .failHere_bind _) fun _ => hrest

theorem doStatement_records : Records .nil (doStatement (n + 1) place) .ofStmt :=
  Records.bind (.inLoop ih.statement) fun body => doRest_records ih place body

theorem forInit_records : Records .nil (forInit (n + 1)) .ofOption := by
  refine quietly .here fun place => .peekAs (fun _ kind _ => ?_) ?_
  · refine quietly .skip fun _ => (ih.declarators kind).bind fun ds => .pure ?_
    exact Log.Entails.stmt rfl (.refl _) (.refl _)
  · refine quietly (.atMark _) fun _ => .ite (fun _ => .pure .rfl) fun _ => ?_
    refine ih.expression.bind fun e => .pure ?_
    exact Log.Entails.stmt rfl (.refl _) (.refl _)

theorem forStatement_records : Records .nil (forStatement (n + 1) place) .ofStmt := by
  refine quietly (.expectMark _ _) fun _ => ih.forInit.bind fun init => ?_
  refine quietly (.expectMark _ _) fun _ => next (ih.optional _) fun test => ?_
  refine quietly (.expectMark _ _) fun _ => next (ih.optional _) fun step => ?_
  refine quietly (.expectMark _ _) fun _ => next (.inLoop ih.statement) fun body => ?_
  refine .pure (Log.Entails.stmt ?_ ?_ ?_)
  · simp [Stmt.vars]
  · have hlast := List.perm_append_singleton (Part.stmt body)
      (init.toList.map .stmt ++ (test.toList ++ step.toList).map .expr)
    simpa [Part.ofStmt] using hlast
  · simp [Part.remarks]

theorem returnValue_records : Records .nil (returnValue n place) .ofStmt :=
  ih.expression.bind fun _ => quietly .endStatement fun _ =>
    .pure (Log.Entails.stmt rfl (.refl _) (.refl _))

theorem returnStatement_records : Records .nil (returnStatement (n + 1) place) .ofStmt := by
  rw [returnStatement_succ]
  refine quietly .get fun _ => .ite (fun _ => .failAt_bind _ _) fun _ => ?_
  refine quietly .newlineBefore fun _ => quietly .atEnd fun _ => ?_
  refine quietly (.atMark _) fun _ => quietly (.atMark _) fun _ => ?_
  exact .ite (fun _ => returnNothing_records place) fun _ => returnValue_records ih place

theorem throwStatement_records : Records .nil (throwStatement n place) .ofStmt := by
  refine quietly .newlineBefore fun _ => .ite (fun _ => .failHere_bind _) fun _ => ?_
  refine ih.expression.bind fun _ => quietly .endStatement fun _ => ?_
  exact .pure (Log.Entails.stmt rfl (.refl _) (.refl _))

theorem tryRest_records (body : List Stmt) :
    Records (.ofBlock body) (tryRest n place body) .ofStmt := by
  refine next ih.catchClause fun handler => next ih.finallyClause fun finalizer => ?_
  refine .ite (fun _ => .failHere_bind _) fun _ => .pure ?_
  apply Log.Entails.stmt <;> simp [Stmt.vars, Part.ofStmt, Part.remarks]

theorem tryStatement_records : Records .nil (tryStatement (n + 1) place) .ofStmt := by
  rw [tryStatement_succ]
  refine quietly (.expectMark _ _) fun _ => ?_
  exact (ih.block _).bind fun body => tryRest_records ih place body

theorem catchClause_records : Records .nil (catchClause (n + 1)) .ofHandler := by
  refine quietly (.eatKeyword _) fun _ => .ite (fun _ => ?_) fun _ => .pure .rfl
  refine quietly (.expectMark _ _) fun _ => quietly (.expectName _) fun _ => ?_
  refine quietly (.expectMark _ _) fun _ => quietly (.expectMark _ _) fun _ => ?_
  refine (ih.block _).bind fun body => .pure ?_
  apply Log.Entails.perm <;> simp [varsHandler, Part.ofHandler, CatchClause.body]

theorem finallyClause_records : Records .nil (finallyClause (n + 1)) .ofFinal := by
  refine quietly (.eatKeyword _) fun _ => .ite (fun _ => ?_) fun _ => .pure .rfl
  refine quietly (.expectMark _ _) fun _ => (ih.block _).bind fun body => .pure ?_
  apply Log.Entails.perm <;> simp [varsFinal]

theorem expressionStatement_records :
    Records .nil (do
      let e ← expression n
      endStatement
      return Stmt.expr e place) .ofStmt :=
  ih.expression.bind fun _ => quietly .endStatement fun _ =>
    .pure (Log.Entails.stmt rfl (.refl _) (.refl _))

theorem statementAt_records (k : TokenKind) : Records .nil (statementAt n place k) .ofStmt := by
  unfold statementAt
  split
  · refine quietly .skip fun _ => (ih.function _ _).bind fun f => .pure ?_
    exact Log.Entails.stmt rfl (.refl _) (.refl _)
  · exact quietly .skip fun _ => ih.ifStatement place
  · exact quietly .skip fun _ => whileStatement_records ih place
  · exact quietly .skip fun _ => ih.doStatement place
  · exact quietly .skip fun _ => ih.forStatement place
  · exact quietly .skip fun _ => ih.returnStatement place
  · exact quietly .skip fun _ => loopJump_records place _ rfl rfl rfl
  · exact quietly .skip fun _ => loopJump_records place _ rfl rfl rfl
  · exact quietly .skip fun _ => throwStatement_records ih place
  · exact quietly .skip fun _ => ih.tryStatement place
  · refine quietly .skip fun _ => (ih.block _).bind fun body => .pure ?_
    exact Log.Entails.stmt rfl (.refl _) (.refl _)
  · exact quietly .skip fun _ => .pure (Log.Entails.stmt rfl (.refl _) (.refl _))
  · exact expressionStatement_records ih place

theorem statement_records : Records .nil (statement (n + 1)) .ofStmt := by
  rw [statement_succ]
  refine quietly .here fun place => .peekAs (fun _ kind _ => ?_) ?_
  · refine quietly .skip fun _ => (ih.declarators kind).bind fun ds => ?_
    exact quietly .endStatement fun _ => .pure (Log.Entails.stmt rfl (.refl _) (.refl _))
  · refine quietly .peek fun k => ?_
    cases k with
    | some k => exact statementAt_records ih place k
    | none => exact expressionStatement_records ih place

end Statements

theorem recorded (n : Nat) : Recorded n := by
  -- On the depth, for all routines at once.
  induction n with
  | zero => constructor <;> intros <;> exact .exhausted
  | succ n ih =>
    exact {
      expression := expression_records ih
      sequenceRest := sequenceRest_records ih
      assignment := assignment_records ih
      conditional := conditional_records ih
      disjunction := disjunction_records ih
      disjunctionRest := disjunctionRest_records ih
      conjunction := conjunction_records ih
      conjunctionRest := conjunctionRest_records ih
      binary := binary_records ih
      binaryRest := binaryRest_records ih
      unary := unary_records ih
      postfixed := postfixed_records ih
      access := access_records ih
      accessRest := accessRest_records ih
      arguments := arguments_records ih
      argumentList := argumentList_records ih
      primary := primary_records ih
      elements := elements_records ih
      properties := properties_records ih
      function named place := function_records ih place named
      block := block_records ih
      blockRest := blockRest_records ih
      declarators := declarators_records ih
      condition := condition_records ih
      statement := statement_records ih
      ifStatement := ifStatement_records ih
      doStatement := doStatement_records ih
      forInit := forInit_records ih
      optional := optional_records ih
      forStatement := forStatement_records ih
      returnStatement := returnStatement_records ih
      tryStatement := tryStatement_records ih
      catchClause := catchClause_records ih
      finallyClause := finallyClause_records ih }

theorem statements_records (n : Nat) : Records .nil (statements n) .ofBody := by
  induction n with
  | zero => exact .exhausted
  | succ n ih =>
    refine quietly .atEnd fun _ => .ite (fun _ => .pure .rfl) fun _ => ?_
    exact (recorded n).statement.bind fun s => next ih fun ss => .pure .rfl

end Parser

namespace Program

variable {strict : Bool} {ts : Tokens} {p : Program} {ws : List ParseWarning}

theorem ofSource_eq_ok {options : ParseOptions} {source : String} :
    ofSource options source = .ok (p, ws) ↔ ∃ ts,
      Tokens.ofSource options.letKeywords (max 1 options.startLine) source = .ok ts ∧
        ofTokens options.strict ts = .ok (p, ws) := by
  unfold ofSource
  split
  next ts hts =>
    constructor
    · exact fun h => ⟨ts, hts, h⟩
    · rintro ⟨ts', hts', h⟩
      cases hts.symm.trans hts'
      exact h
  next e he =>
    constructor
    · rintro ⟨⟩
    · rintro ⟨ts, hts, -⟩
      cases he.symm.trans hts

theorem ofTokens_holds (h : ofTokens strict ts = .ok (p, ws)) :
    ∃ t, (Parser.Log.ofBody p.body).Holds (contextOf strict ts) (stateOf ts) t ∧
      p.varNames = (t.varScopes.headD []).reverse ∧ ws = t.warnings.reverse := by
  obtain ⟨t, hrun, hnames, hws⟩ := ofTokens_eq_ok.mp h
  exact ⟨t, Parser.statements_records _ _ _ _ _ t (.refl _ _) hrun, hnames, hws⟩

theorem ofTokens_varNames (h : ofTokens strict ts = .ok (p, ws)) :
    p.varNames = hoistedNames p.body ∧ (Part.program p).Hoisted := by
  obtain ⟨t, hlog, hnames, -⟩ := ofTokens_holds h
  constructor
  · rw [hnames, hlog.scopes [] [] rfl, hoistedNames_eq]
    rfl
  · exact Part.forall_contains trivial hlog.hoisted

/-- The `var` names of a program, and those of every function in it at whatever depth, are the
names that its own body declares by `var`, each once and in order. -/
theorem varNames_eq_hoistedNames {options : ParseOptions} {source : String}
    (h : ofSource options source = .ok (p, ws)) :
    p.varNames = hoistedNames p.body ∧
      ∀ f, (Part.program p).Contains (.function f) → f.varNames = hoistedNames f.body := by
  obtain ⟨ts, -, hread⟩ := ofSource_eq_ok.mp h
  obtain ⟨hprogram, hfunctions⟩ := ofTokens_varNames hread
  exact ⟨hprogram, fun f hf => hfunctions _ hf⟩

section Sample

def inLine (n : Nat) : Location :=
  ⟨1, n + 1, n⟩

def sampleSource : String :=
  "if(a=b)var a,a;function f(){return;var c}"

def sampleTokens : Tokens where
  items := [(.keyword .if_, 0), (.mark .leftParen, 2), (.name "a", 3), (.mark .eq, 4),
    (.name "b", 5), (.mark .rightParen, 6), (.keyword .var, 7), (.name "a", 11), (.mark .comma, 12),
    (.name "a", 13), (.mark .semicolon, 14), (.keyword .function, 15), (.name "f", 24),
    (.mark .leftParen, 25), (.mark .rightParen, 26), (.mark .leftBrace, 27),
    (.keyword .return_, 28), (.mark .semicolon, 34), (.keyword .var, 35), (.name "c", 39),
    (.mark .rightBrace, 40)].map fun (kind, n) => ⟨kind, inLine n, false⟩
  finish := inLine 41
  newlineAtEnd := false

def sample : Program where
  body := [
    .if_ (.assign none (.name "a" (inLine 3)) (.name "b" (inLine 5)) (inLine 4))
      (.declare .var [.mk "a" none (inLine 11), .mk "a" none (inLine 13)] (inLine 7)) none
      (inLine 0),
    .function (.mk "f" [] [.return_ none (inLine 28),
      .declare .var [.mk "c" none (inLine 39)] (inLine 35)] ["c"] (inLine 15)) (inLine 15)]
  varNames := ["a"]

def sampleWarnings : List ParseWarning :=
  [⟨.assignmentAsCondition, inLine 4⟩, ⟨.redeclared "a", inLine 13⟩, ⟨.unreachable, inLine 35⟩]

theorem sample_accepted :
    ofSource { strict := true } sampleSource = .ok (sample, sampleWarnings) := by
  have htokens : Tokens.ofSource true 1 sampleSource = .ok sampleTokens := by rfl
  have hread : ofTokens true sampleTokens = .ok (sample, sampleWarnings) := by rfl
  exact ofSource_eq_ok.mpr ⟨sampleTokens, htokens, hread⟩

theorem varNames_eq_hoistedNames_sample :
    ofSource { strict := true } sampleSource = .ok (sample, sampleWarnings) ∧
      sample.varNames = hoistedNames sample.body ∧
      ∀ f, (Part.program sample).Contains (.function f) → f.varNames = hoistedNames f.body :=
  ⟨sample_accepted, varNames_eq_hoistedNames sample_accepted⟩

end Sample

end Program

end ScriptShell
