import ScriptShell.Proofs.Parser.Healing

namespace ScriptShell.Parser

/-- With the bound `n` the functions of the parser fail at the end of the tokens only where more
tokens can heal them. -/
structure Healing (n : Nat) : Prop where
  expression : Filled EndsExpr any operand (expression n) expression
  sequenceRest : Filled EndsExpr any [] (sequenceRest n) sequenceRest
  assignment : Filled EndsExpr any operand (assignment n) assignment
  conditional : Filled EndsExpr any operand (conditional n) conditional
  disjunction : Filled EndsExpr any operand (disjunction n) disjunction
  disjunctionRest : ∀ left,
    Filled EndsExpr any [] (disjunctionRest n left) (disjunctionRest · left)
  conjunction : Filled EndsExpr any operand (conjunction n) conjunction
  conjunctionRest : ∀ left,
    Filled EndsExpr any [] (conjunctionRest n left) (conjunctionRest · left)
  binary : ∀ least, Filled EndsExpr any operand (binary n least) (binary · least)
  binaryRest : ∀ least left,
    Filled EndsExpr any [] (binaryRest n least left) (binaryRest · least left)
  unary : Filled EndsExpr any operand (unary n) unary
  target : ∀ c s, s.next.any isPrefixOp = false →
    HealsAt c s EndsExpr (·.isTarget = true) (Parser.unary n) Parser.unary
  postfixed : Filled EndsExpr (·.isTarget = true) operand (postfixed n) postfixed
  access : Filled EndsExpr (·.isTarget = true) operand (access n) access
  accessRest : ∀ e,
    Filled EndsExpr (·.isTarget = true) [.mark .dot, .name] (accessRest n e) (accessRest · e)
  arguments : Filled any any [.mark .rightParen] (arguments n) arguments
  argumentList : Filled EndsExpr any operand (argumentList n) argumentList
  primary : Filled any any [.name] (primary n) primary
  elements : Filled EndsExpr any operand (elements n) elements
  properties : Filled EndsExpr any property (properties n) properties
  function : ∀ named place, Filled any any (.name :: .mark .leftParen :: functionEnd)
    (function n named place) (function · named place)
  block : ∀ what, Filled any any [.mark .rightBrace] (block n what) (block · what)
  blockRest : ∀ what, Filled any any [.mark .rightBrace] (blockRest n what) (blockRest · what)
  declarators : ∀ kind, Filled EndsExpr any declarator (declarators n kind) (declarators · kind)
  condition : Filled any any inParens (condition n) condition
  statement : Filled EndsStmt any [.mark .semicolon] (statement n) statement
  ifStatement : ∀ place,
    Filled EndsStmt any (inParens ++ [.mark .semicolon]) (ifStatement n place) (ifStatement · place)
  doStatement : ∀ place,
    Filled EndsStmt any (.mark .semicolon :: doEnd) (doStatement n place) (doStatement · place)
  forInit : Filled EndsExpr any operand (forInit n) forInit
  optional : ∀ stop, Filled EndsExpr any operand (optional n stop) (optional · stop)
  forStatement : ∀ place, Filled EndsStmt any (.mark .leftParen :: operand ++ forTest)
    (forStatement n place) (forStatement · place)
  returnStatement : ∀ place,
    Heals 0 EndsStmt any (returnStatement n place) (returnStatement · place)
  tryStatement : ∀ place,
    Filled EndsStmt any tryEnd (tryStatement n place) (tryStatement · place)
  catchClause : Filled (BeginsWithout .catch_) any [] (catchClause n) catchClause
  finallyClause :
    Filled (BeginsWithout .finally_) (·.isSome = true) finallyEnd (finallyClause n) finallyClause

theorem steady_self (n : Nat) : Steady n n :=
  steady (Nat.le_refl n)

section Operands

variable {m : Nat} {c : Context} {s : State} {k : TokenKind}

theorem update_heals {lo : Nat} {P : List Token → Prop} {Q : Expr → Prop} (op : UpdateOp)
    (before : Bool) (e : Expr) (place : Location) :
    Heals lo P Q (update op before e place) (fun _ => update op before e place) := by
  unfold update
  split
  · exact .pure _
  · exact .failAt _ _

/-- Behind an operand a postfix operator may follow on the same line. -/
def postfixedRest (e : Expr) : Parser Expr := do
  if ← newlineBefore then return e
  else
    match ← peekAs updateOp? with
    | some op =>
      let place ← here
      skip
      update op false e place
    | none => return e

theorem EndsExpr.postfixedRest (h : EndsExpr s.rest) (e : Expr) :
    postfixedRest e c s = .ok e s := by
  have hop : s.next.bind updateOp? = none := bind_updateOp?_eq_none (by rw [h.looseness]; decide)
  rw [Parser.postfixedRest, bind_ok (newlineBefore_eq c s)]
  cases s.newlineBefore c with
  | true => rfl
  | false =>
    simp only [Bool.false_eq_true, if_false]
    rw [bind_ok (peekAs_eq c s _), hop]
    rfl

theorem postfixedRest_heals (e : Expr) :
    Heals 0 EndsExpr (·.isTarget = true) (postfixedRest e) (fun _ => postfixedRest e) := by
  refine .rest (.newlineBefore_bind fun b => .ite (.pure _) (.peekAs_bind fun op => ?_)) .nil
    (fun _ _ h => h.postfixedRest e) fun _ _ _ h => h.postfixedRest e
  cases op with
  | none => exact .pure _
  | some op => exact .here_bind fun place => .skip_bind (update_heals _ _ _ _)

theorem unary_eq_postfixed (hs : s.next.any isPrefixOp = false) :
    unary (m + 1) c s = postfixed m c s := by
  obtain ⟨hunary, hupdate⟩ : s.next.bind unaryOp? = none ∧ s.next.bind updateOp? = none := by
    cases hnext : s.next with
    | none => exact ⟨rfl, rfl⟩
    | some k => simpa [isPrefixOp, hnext] using hs
  rw [unary, bind_ok (here_eq c s), bind_ok (peekAs_eq c s _), hunary]
  dsimp only
  rw [bind_ok (peekAs_eq c s _), hupdate]

theorem updateBefore_vain (hnext : s.skip.next = some k) (hk : isPrefixOp k = true)
    (op : UpdateOp) (place : Location) :
    Run (updateBefore m op place) c s (fun _ _ => False)
      fun e t => e.atEnd = false ∨ unary m c s.skip = .error e t := by
  refine Run.bind_iff.mpr ((Run.iff_ok (skip_eq c s)).mpr (Run.bind_iff.mpr ?_))
  cases hrun : unary m c s.skip with
  | ok target t =>
    have htarget := isTarget_of_prefix (n := m) (c := c) hnext hk
    rw [Run.iff_ok hrun] at htarget
    exact (Run.iff_ok hrun).mpr ((Run.iff_error (update_error htarget c t)).mpr (.inl rfl))
  | error e t => exact (Run.iff_error hrun).mpr (.inr rfl)

theorem updateBefore_fails (hnext : s.skip.next = some k) (hk : isPrefixOp k = true)
    (op : UpdateOp) (place : Location) : Fails (updateBefore · op place) c s := by
  refine ⟨0, fun m _ => ?_⟩
  have h := updateBefore_vain (m := m) (c := c) hnext hk op place
  cases hrun : updateBefore m op place c s with
  | ok a t => exact ((Run.iff_ok hrun).mp h).elim
  | error e t => exact ⟨e, t, hrun⟩

theorem vainUpdate_heals {n : Nat} {op : UpdateOp} (place : Location)
    (hop : s.next.bind updateOp? = some op) (hoperator : s.skip.next.any isPrefixOp = true) :
    HealsAt c s EndsExpr any (updateBefore n op place) (updateBefore · op place) := by
  obtain ⟨k, hnext, hupdate⟩ := Option.bind_eq_some_iff.mp hop
  obtain ⟨token, rest, hrest, rfl⟩ := State.rest_of_next hnext
  obtain ⟨k, hk, hbefore⟩ := (Option.any_eq_true _ _).mp hoperator
  have hlo : 1 ≤ s.rest.length := by simp [hrest]
  refine (updateBefore_vain hk hbefore op place).imp (fun _ _ h => h.elim) fun e t h he => ?_
  refine .vain ⟨token, n, s.skip, t, ?_, ?_, hoperator, h.resolve_left (by simp [he])⟩
    fun c' more _ => updateBefore_fails ?_ hbefore op place
  · simp [hrest]
  · simp [hupdate]
  · rw [State.skip_add more hlo, State.next_add more (Within.length_of_next hk), hk]

end Operands

section Expressions

variable {n : Nat} (ih : Healing n)
include ih

theorem expression_heals : Heals 0 EndsExpr any (expression (n + 1)) expression := by
  refine .step (fun _ => rfl) (ih.assignment.heals.open_bind fun first => ?_)
  refine .tail (a := false) (fun c s h => ?_) .nil (.atMark_bind fun b => .ite ?_ (.pure _))
    (.pure trivial)
  · rw [atMark_eq, h.nextIs (by decide)]
  · exact ih.sequenceRest.heals.one.open_bind fun others => .pure trivial

theorem sequenceRest_heals : Heals 0 EndsExpr any (sequenceRest (n + 1)) sequenceRest := by
  refine .step (fun _ => rfl) (Filled.heals (.eatMark_tail (by decide) ?_ (.pure trivial)))
  exact ih.assignment.heals.open_bind fun e => ih.sequenceRest.open_bind fun es => .pure trivial

theorem assignment_heals : Heals 0 EndsExpr any (assignment (n + 1)) assignment := by
  refine .step (fun _ => rfl) (ih.conditional.heals.open_bind fun target => ?_)
  refine .tail (a := none) (fun c s h => ?_) .nil (.peekAs_bind fun op => ?_) (.pure trivial)
  · rw [peekAs_eq, bind_assignOp?_eq_none (by rw [h.looseness]; decide)]
  cases op with
  | none => exact .pure _
  | some op =>
    refine .here_bind fun place => .ite (.skip_bind ?_) (.failAt _ _)
    exact ih.assignment.heals.open_bind fun value => .pure trivial

theorem conditional_heals : Heals 0 EndsExpr any (conditional (n + 1)) conditional := by
  refine .step (fun _ => rfl) (ih.disjunction.heals.open_bind fun condition =>
    .eatMark_tail (by decide) ?_ (.pure trivial))
  exact (ih.assignment.before_mark rfl fun yes =>
    ih.assignment.open_bind fun no => .pure trivial).heals

theorem disjunction_heals : Heals 0 EndsExpr any (disjunction (n + 1)) disjunction :=
  .step (fun _ => rfl) (ih.conjunction.heals.open_bind fun left => ih.disjunctionRest left)

theorem disjunctionRest_heals (left : Expr) :
    Heals 0 EndsExpr any (disjunctionRest (n + 1) left) (disjunctionRest · left) := by
  refine .rest ?_ .nil (fun _ _ h => h.disjunctionRest n left)
    fun n _ _ h => h.disjunctionRest n left
  refine .step (fun _ => rfl) (.here_bind fun place => .eatMark_bind ?_ (.pure _))
  exact ih.conjunction.heals.open_bind fun right => ih.disjunctionRest _

theorem conjunction_heals : Heals 0 EndsExpr any (conjunction (n + 1)) conjunction :=
  .step (fun _ => rfl) ((ih.binary 1).heals.open_bind fun left => ih.conjunctionRest left)

theorem conjunctionRest_heals (left : Expr) :
    Heals 0 EndsExpr any (conjunctionRest (n + 1) left) (conjunctionRest · left) := by
  refine .rest ?_ .nil (fun _ _ h => h.conjunctionRest n left)
    fun n _ _ h => h.conjunctionRest n left
  refine .step (fun _ => rfl) (.here_bind fun place => .eatMark_bind ?_ (.pure _))
  exact (ih.binary 1).heals.open_bind fun right => ih.conjunctionRest _

theorem binary_heals (least : Nat) :
    Heals 0 EndsExpr any (binary (n + 1) least) (binary · least) :=
  .step (fun _ => rfl) (ih.unary.heals.open_bind fun left => ih.binaryRest least left)

theorem binaryRest_heals (least : Nat) (left : Expr) :
    Heals 0 EndsExpr any (binaryRest (n + 1) least left) (binaryRest · least left) := by
  refine .rest ?_ .nil (fun _ _ h => h.binaryRest n left least)
    fun n _ _ h => h.binaryRest n left least
  refine .step (fun _ => rfl) (.peekAs_bind fun op => ?_)
  cases op with
  | none => exact .pure _
  | some op =>
    refine .ite (.pure _) (.here_bind fun place => .skip_bind ?_)
    exact (ih.binary _).heals.open_bind fun right => ih.binaryRest _ _

theorem access_heals :
    Heals 0 EndsExpr (·.isTarget = true) (access (n + 1)) access :=
  .step (fun _ => rfl) (ih.primary.heals.any_bind fun e => ih.accessRest e)

theorem accessRest_heals (e : Expr) :
    Heals 0 EndsExpr (·.isTarget = true) (accessRest (n + 1) e) (accessRest · e) := by
  refine .rest ?_ .nil (fun _ _ h => h.accessRest n e)
    fun n _ _ h => h.accessRest n e
  refine .step (fun _ => rfl) (.here_bind fun place => .eatMark_bind ?_
    (.eatMark_bind ?_ (.eatMark_bind ?_ (.pure _))))
  · exact (Filled.expectName_bind fun property => ih.accessRest _).heals
  · exact (ih.expression.before_mark rfl fun index => ih.accessRest _).heals
  · exact ih.arguments.heals.any_bind fun args => ih.accessRest _

theorem arguments_heals : Heals 1 any any (arguments (n + 1)) arguments := by
  refine .step (fun _ => rfl) (.eatMark_bind (.pure _) (Heals.one ?_))
  exact (ih.argumentList.closed_by rfl).heals

theorem argumentList_heals : Heals 0 EndsExpr any (argumentList (n + 1)) argumentList := by
  refine .step (fun _ => rfl) (ih.assignment.heals.open_bind fun e =>
    .eatMark_tail (by decide) ?_ (.pure trivial))
  exact ih.argumentList.heals.open_bind fun es => .pure trivial

theorem elements_heals : Heals 1 EndsExpr any (elements (n + 1)) elements := by
  refine .step (fun _ => rfl) (.atMark_bind fun b => .ite (.pure _) ?_)
  refine ih.assignment.heals.one.open_bind fun e => .eatMark_tail (by decide) ?_ (.pure trivial)
  exact ih.elements.heals.open_bind fun es => .pure trivial

theorem properties_heals : Heals 1 EndsExpr any (properties (n + 1)) properties := by
  refine .step (fun _ => rfl) (.atMark_bind fun b => .ite (.pure _) (.peekAs_bind fun key => ?_))
  cases key with
  | none => exact .failHere _
  | some key =>
    refine .skip_bind (Filled.heals (.expectMark_bind (ih.assignment.open_bind fun e => ?_)))
    refine .eatMark_tail (by decide) ?_ (.pure trivial)
    exact ih.properties.heals.open_bind fun es => .pure trivial

theorem primary_heals : Heals 1 any any (primary (n + 1)) primary := by
  refine .step (fun _ => rfl) (.here_bind fun place => .peekAs_bind fun e => ?_)
  cases e with
  | some e => exact .skip_bind (.pure _)
  | none =>
    refine .peek_bind fun k => ?_
    split
    · exact .skip_bind (ih.expression.closed_by rfl).heals
    · exact .skip_bind (ih.elements.closed_by rfl).heals
    · exact .skip_bind (ih.properties.closed_by rfl).heals
    · exact .skip_bind ((ih.function false place).heals.any_bind fun f => .pure trivial)
    · exact .failHere _

theorem postfixed_heals :
    Heals 0 EndsExpr (·.isTarget = true) (postfixed (n + 1)) postfixed := by
  refine .step (fun _ => rfl) fun c s hlo => (ih.access.heals c s hlo).firm_bind (fun e he => ?_)
    (fun e t => postfixedRest_heals e c t (Nat.zero_le _)) fun e t ht => ?_
  · exact .rest (fun _ _ _ h => h.postfixedRest e) he
  · exact (Run.iff_ok (EndsExpr.postfixedRest (ht ▸ .nil) e)).mpr trivial

theorem target_heals {c : Context} {s : State} (hs : s.next.any isPrefixOp = false) :
    HealsAt c s EndsExpr (·.isTarget = true) (unary (n + 1)) unary := by
  by_cases hnil : s.rest = []
  · have haccepts : Accepts EndsExpr (·.isTarget = true) (onLines operand) unary :=
      accepts_target true
    refine .of_accepts hnil ?_ haccepts
    exact ((steady_self (n + 1)).unary.atEnd c s hnil).imp (fun _ _ h => h.2.1) fun _ _ _ => trivial
  · refine .step (fun _ => rfl) ((ih.postfixed.heals c s (Nat.zero_le _)).congr
      (unary_eq_postfixed hs) fun c' more m => unary_eq_postfixed ?_)
    rwa [State.next_add more (List.length_pos_iff.mpr hnil)]

theorem updateBefore_heals {c : Context} {s : State} {op : UpdateOp} (place : Location)
    (hop : s.next.bind updateOp? = some op) :
    HealsAt c s EndsExpr any (updateBefore n op place) (updateBefore · op place) := by
  cases hoperator : s.skip.next.any isPrefixOp with
  | true => exact vainUpdate_heals place hop hoperator
  | false =>
    obtain ⟨k, hnext, -⟩ := Option.bind_eq_some_iff.mp hop
    refine .skip_bind (Within.length_of_next hnext) ((ih.target c s.skip hoperator).firm_bind
      (fun target htarget => ?_) (fun target t => update_heals _ _ _ _ c t (Nat.zero_le _))
        fun target t _ => ?_)
    · exact .rest (fun _ c s _ => update_ok htarget c s) trivial
    · unfold update
      split <;> trivial

theorem unary_heals : Heals 1 EndsExpr any (unary (n + 1)) unary := by
  refine .step (fun _ => rfl) (.here_bind fun place => fun c s hlo => .peekAs_look hlo ?_)
  cases s.next.bind unaryOp? with
  | some op =>
    have hunary := ih.unary.heals.open_bind fun e =>
      .pure (P := EndsExpr) (Q := any) (a := Expr.unary op e place) trivial
    exact .skip_bind hlo (hunary c s.skip (Nat.zero_le _))
  | none =>
    refine .peekAs_look hlo ?_
    cases hop : s.next.bind updateOp? with
    | some op => exact updateBefore_heals ih place hop
    | none => exact (ih.postfixed.heals c s (Nat.zero_le _)).weaken fun _ _ => trivial

end Expressions

theorem parameters_filled (n : Nat) : Filled EndsExpr any [.name] (parameters n) parameters := by
  induction n with
  | zero => exact ⟨.exhausted, accepts_parameters⟩
  | succ n ih =>
    refine ⟨.step (fun _ => rfl) (Filled.heals (.expectName_bind fun name =>
      .eatMark_tail (by decide) ?_ (.pure trivial))), accepts_parameters⟩
    exact ih.heals.open_bind fun names => .pure trivial

section Parts

variable {m : Nat} {c : Context} {s : State} (place : Location)

/-- What stands behind a declared name: its value, which constants need, and other names. -/
def declaratorValue (n : Nat) (place : Location) (kind : DeclKind) (name : String) :
    Parser (List Declarator) := do
  if ← eatMark .eq then
    let e ← assignment n
    declaratorsFrom n place kind name (some e)
  else if kind = .const then
    let init ← failHere (.missing "= in const declaration")
    declaratorsFrom n place kind name init
  else declaratorsFrom n place kind name none

def returnRest (n : Nat) (place : Location) : Parser Stmt := do
  if (← newlineBefore) || (← atEnd) || (← atMark .semicolon) || (← atMark .rightBrace) then
    returnNothing place
  else returnValue n place

theorem EndsStmt.returnRest (h : EndsStmt s.rest) :
    returnRest m place c s = .ok (.return_ none place) s := by
  have hnothing : returnNothing place c s = .ok (.return_ none place) s := bind_ok h.endStatement
  rw [Parser.returnRest, bind_ok (newlineBefore_eq c s), bind_ok (atEnd_eq c s),
    bind_ok (atMark_eq c s _), bind_ok (atMark_eq c s _), h.newlineBefore_or_isEmpty]
  exact hnothing

theorem loopJump_heals (fault : ParseFault) (s : Stmt) :
    Heals 0 EndsStmt any (loopJump fault place s) (fun _ => loopJump fault place s) := by
  refine .get_bind (fun _ => .ite (.failAt_bind _ _) ?_) fun _ _ _ => rfl
  exact Filled.endStatement.heals.open_bind fun _ => .pure trivial

theorem BeginsWithout.finallyClause (h : BeginsWithout .finally_ s.rest) :
    finallyClause (m + 1) c s = .ok none s :=
  bind_ok h.eatKeyword

theorem finallyClause_none (m : Nat) (c : Context) (s : State) :
    Run (finallyClause m) c s (fun a t => a = none → t = s) fun _ _ => True := by
  cases m with
  | zero => trivial
  | succ m =>
    have heat := eatKeyword_eq c s .finally_
    refine Run.bind_iff.mpr ?_
    cases hnext : s.nextIsKeyword .finally_ with
    | false =>
      rw [hnext, if_neg (by simp)] at heat
      exact (Run.iff_ok heat).mpr fun _ => rfl
    | true =>
      rw [hnext, if_pos rfl] at heat
      refine (Run.iff_ok heat).mpr (Run.bind_iff.mpr
        (.of_forall (fun _ _ => ?_) fun _ _ => trivial))
      exact Run.bind_iff.mpr (.of_forall (fun _ _ => nofun) fun _ _ => trivial)

theorem finallyRest_atEnd (n : Nat) (body : List Stmt) :
    AtEnd False (finallyRest n place body none) (finallyRest n place body none) := by
  intro c s hs
  cases n with
  | zero => exact .inl rfl
  | succ n =>
    have hnone : finallyClause (n + 1) c s = .ok none s := BeginsWithout.finallyClause (hs ▸ .nil)
    have hfail : finallyRest (n + 1) place body none c s =
        .error ⟨.missing "catch or finally after try", s.here c, s.rest.isEmpty⟩ s := bind_ok hnone
    exact (Run.iff_error hfail).mpr (.inr ⟨List.isEmpty_iff.mpr hs, hfail⟩)

theorem throwStatement_fails (h : ∀ token ∈ s.rest.head?, token.newlineBefore = true) :
    ∃ e t, throwStatement m place c s = .error e t := by
  cases hrest : s.rest with
  | nil =>
    have hend := (throwStatement_follows (steady_self m) place).atEnd c s hrest
    cases hrun : throwStatement m place c s with
    | ok a t => exact ((Run.iff_ok hrun).mp hend).2.1.elim
    | error e t => exact ⟨e, t, rfl⟩
  | cons token rest =>
    have hnewline : s.newlineBefore c = true := by
      simp [State.newlineBefore, hrest, h token (by simp [hrest])]
    rw [throwStatement, bind_ok (newlineBefore_eq c s), hnewline]
    exact ⟨_, _, rfl⟩

end Parts

section Statements

variable {n : Nat} (ih : Healing n)
include ih

theorem functionBody_filled (place : Location) (name : Option String) (params : List String) :
    Filled any any functionEnd (functionBody n place name params)
      (functionBody · place name params) :=
  .expectMark_bind (.expectMark_bind ((ih.block _).inFunction.any_bind fun _ => .pure trivial))

theorem functionRest_filled (place : Location) (name : Option String) :
    Filled any any (.mark .leftParen :: functionEnd) (functionRest n place name)
      (functionRest · place name) := by
  refine .expectMark_bind (.of (.atMark_bind fun b => .ite ?_ ?_) ?_ ?_)
  · exact (functionBody_filled ih place name []).heals.one
  · exact (parameters_filled n).heals.one.closed_bind
      (fun params => functionBody_filled ih place name params) (.endsExpr rfl)
        fun params => (AtEnd.expectMark _ _).fails_bind
  · exact .atMark_bind (parameters_follow (Nat.le_refl n)).atEnd.fails_bind
  · exact .atMark (accepts_functionBody place name [])

theorem function_heals (named : Bool) (place : Location) :
    Heals 1 any any (function (n + 1) named place) (function · named place) := by
  refine .step (fun n => function_succ n place named) ?_
  rw [function_succ]
  refine .peek_bind fun k => ?_
  split
  · exact .skip_bind (functionRest_filled ih place _).heals
  · exact .ite (.failHere_bind _) (functionRest_filled ih place none).heals.one

theorem block_heals (what : String) : Heals 0 any any (block (n + 1) what) (block · what) :=
  .step (fun _ => rfl) ((ih.blockRest what).heals.any_bind fun body =>
    (Filled.warnUnreachable body).any_bind fun _ => .pure trivial)

theorem blockRest_heals (what : String) :
    Heals 1 any any (blockRest (n + 1) what) (blockRest · what) := by
  refine .step (fun _ => rfl) (.eatMark_bind (.pure _) (.atEnd_bind ?_))
  exact ih.statement.heals.one.closed_bind (fun s => (ih.blockRest what).any_bind fun ss =>
    .pure trivial) (.endsStmt (.inl rfl)) fun s => ((steady_self n).blockRest what).atEnd.fails_bind

theorem declaratorsAfter_filled (kind : DeclKind) (place : Location) (name : String)
    (init : Option Expr) : Filled EndsExpr any [] (declaratorsAfter n place kind name init)
      (declaratorsAfter · place kind name init) :=
  .eatMark_tail (by decide) ((ih.declarators kind).heals.open_bind fun _ => .pure trivial)
    (.pure trivial)

theorem declaratorsFrom_filled (kind : DeclKind) (place : Location) (name : String)
    (init : Option Expr) : Filled EndsExpr any [] (declaratorsFrom n place kind name init)
      (declaratorsFrom · place kind name init) := by
  have hafter := declaratorsAfter_filled ih kind place name init
  refine ⟨.ite ((Filled.declareVar name place).any_bind fun _ => hafter).heals hafter.heals, ?_⟩
  exact accepts_declaratorsFrom place kind name init

theorem declaratorValue_filled (place : Location) (kind : DeclKind) (name : String) :
    Filled EndsExpr any (.mark .eq :: operand) (declaratorValue n place kind name)
      (declaratorValue · place kind name) := by
  have haccepts : Accepts EndsExpr any (onLines (.mark .eq :: operand))
      (declaratorValue · place kind name) :=
    .eatMark ((accepts_assignment true).open_bind fun e =>
      accepts_declaratorsFrom place kind name (some e))
  have hvalue := ih.assignment.heals.open_bind fun e =>
    declaratorsFrom_filled ih kind place name (some e)
  by_cases hkind : kind = .const
  · subst hkind
    refine .of (.eatMark_bind hvalue (.failHere_bind _)) (.eatMark_bind ?_) haccepts
    exact (AtEnd.failHere _).fails_bind
  · refine ⟨Filled.heals (.eatMark_tail (by decide) hvalue ?_), haccepts⟩
    simp only [hkind, Bool.false_eq_true, if_false]
    exact declaratorsFrom_filled ih kind place name none

theorem declarators_heals (kind : DeclKind) :
    Heals 1 EndsExpr any (declarators (n + 1) kind) (declarators · kind) := by
  refine .step (fun n => declarators_succ n kind) ?_
  rw [declarators_succ]
  exact .here_bind fun place => Heals.one (Filled.heals
    (.expectName_bind fun name => declaratorValue_filled ih place kind name))

theorem condition_heals : Heals 0 any any (condition (n + 1)) condition := by
  refine .step (fun _ => rfl) (Filled.heals (.expectMark_bind (ih.expression.closed_bind
    (fun e => (Filled.warnCondition e).any_bind fun _ => .expectMark_bind (.pure trivial))
      (.endsExpr rfl) fun e => ?_)))
  exact (AtEnd.warnCondition e trivial).bind fun _ _ => (AtEnd.expectMark _ _).fails_bind

theorem ifStatement_heals (place : Location) :
    Heals 0 EndsStmt any (ifStatement (n + 1) place) (ifStatement · place) := by
  refine .step (fun _ => rfl) (ih.condition.heals.any_bind fun e =>
    ih.statement.open_bind fun yes =>
    .tail (a := false) (fun _ _ h => (h.without (by decide)).eatKeyword) .nil
      (.eatKeyword_bind ?_ (.pure _)) (.pure trivial))
  exact ih.statement.heals.open_bind fun no => .pure trivial

theorem whileStatement_heals (place : Location) :
    Heals 0 EndsStmt any (whileStatement n place) (whileStatement · place) :=
  ih.condition.heals.any_bind fun _ => ih.statement.inLoop.open_bind fun _ => .pure trivial

theorem doRest_filled (place : Location) (body : Stmt) :
    Filled EndsStmt any doEnd (doRest n place body) (doRest · place body) := by
  refine .of (.eatKeyword_bind ?_ ?_) (doRest_follows (steady_self n) place body).atEnd
    (accepts_doRest place body)
  · refine ih.condition.heals.any_bind fun e => .tail (a := false) (fun c s h => ?_) .nil
      (.eatMark_bind (.pure _) (.pure _)) (.pure trivial)
    exact (eatMark_eq c s _).trans (if_neg (by simp [h.nextIs_semicolon]))
  · exact .failHere_bind _

theorem doStatement_heals (place : Location) :
    Heals 0 EndsStmt any (doStatement (n + 1) place) (doStatement · place) := by
  refine .step (fun n => doStatement_succ n place) ?_
  rw [doStatement_succ]
  exact ih.statement.inLoop.heals.closed_bind (fun body => doRest_filled ih place body)
    (.endsStmt (.inr rfl)) fun body => (doRest_follows (steady_self n) place body).atEnd

theorem forInit_heals : Heals 1 EndsExpr any (forInit (n + 1)) forInit := by
  refine .step (fun _ => rfl) (.here_bind fun place => .peekAs_bind fun kind => ?_)
  cases kind with
  | some kind => exact .skip_bind ((ih.declarators kind).heals.open_bind fun ds => .pure trivial)
  | none =>
    exact .atMark_bind fun b => .ite (.pure _)
      (ih.expression.heals.one.open_bind fun e => .pure trivial)

theorem optional_heals (stop : Mark) :
    Heals 1 EndsExpr any (optional (n + 1) stop) (optional · stop) :=
  .step (fun _ => rfl) (.atMark_bind fun _ => .ite (.pure _)
    (ih.expression.heals.one.open_bind fun _ => .pure trivial))

theorem forStatement_heals (place : Location) :
    Heals 0 EndsStmt any (forStatement (n + 1) place) (forStatement · place) := by
  refine .step (fun _ => rfl) (Filled.heals (.expectMark_bind
    (ih.forInit.before_mark rfl fun init => (ih.optional _).before_mark rfl fun test =>
      (ih.optional _).before_mark rfl fun step => ih.statement.inLoop.open_bind fun body =>
        .pure trivial)))

theorem returnStatement_heals (place : Location) :
    Heals 0 EndsStmt any (returnStatement (n + 1) place) (returnStatement · place) := by
  have hnothing : Heals 0 EndsStmt any (returnNothing place) (fun _ => returnNothing place) :=
    Filled.endStatement.heals.open_bind fun _ => .pure trivial
  have hvalue : Heals 0 EndsStmt any (returnValue n place) (returnValue · place) :=
    ih.expression.ended.heals
  have hrest : Heals 0 EndsStmt any (returnRest n place) (returnRest · place) :=
    .rest (.newlineBefore_bind fun _ => .atEnd_bind (.atMark_bind fun _ => .atMark_bind fun _ =>
      .ite hnothing.one hvalue.one)) .nil (fun _ _ h => h.returnRest place)
        fun _ _ _ h => h.returnRest place
  refine .step (fun n => returnStatement_succ n place) ?_
  rw [returnStatement_succ]
  exact .get_bind (fun s => .ite (.failAt_bind _ _) hrest) fun _ _ _ => rfl

theorem catchClause_heals :
    Heals 0 (BeginsWithout .catch_) any (catchClause (n + 1)) catchClause := by
  refine .step (fun _ => rfl) (Filled.heals (.tail (a := false) (fun _ _ h => h.eatKeyword)
    .nil (.eatKeyword_bind ?_ (.pure _)) (.pure trivial)))
  exact (Filled.expectMark_bind (.expectName_bind fun param => .expectMark_bind (.expectMark_bind
    ((ih.block _).any_bind fun body => .pure trivial)))).heals

theorem finallyClause_heals :
    Heals 0 (BeginsWithout .finally_) (·.isSome = true) (finallyClause (n + 1)) finallyClause := by
  refine .rest (.step (fun _ => rfl) (.eatKeyword_bind ?_ (.pure _))) .nil
    (fun _ _ h => h.finallyClause) fun _ _ _ h => h.finallyClause
  exact (Filled.expectMark_bind ((ih.block _).any_bind fun body => .pure (by rfl))).heals

theorem finallyRest_heals (place : Location) (body : List Stmt) :
    Heals 1 EndsStmt any (finallyRest n place body none) (finallyRest · place body none) := by
  intro c s hlo
  have haccepts (finalizer : Option (List Stmt)) (h : finalizer.isSome = true) :
      Accepts EndsStmt any (onLines []) fun _ => (do
        if (none : Option CatchClause).isNone && finalizer.isNone then
          failHere (.missing "catch or finally after try")
        return .try_ body none finalizer place : Parser Stmt) := by
    obtain ⟨block, rfl⟩ := Option.isSome_iff_exists.mp h
    exact .pure trivial
  refine (ih.finallyClause.heals c s (Nat.zero_le _)).bind_of haccepts
    (.nil fun _ => EndsStmt.without (by decide)) (fun finalizer t _ ht => ?_)
      fun finalizer t hrun ht => ?_
  · cases finalizer with
    | none => exact Heals.failHere_bind _ c t (List.length_pos_iff.mpr ht)
    | some block => exact Heals.pure _ c t (Nat.le_refl _)
  · cases finalizer with
    | none =>
      -- Only a `finally` block can have brought the parser to the end.
      have hsame := (Run.iff_ok hrun).mp (finallyClause_none n c s) rfl
      rw [← hsame, ht] at hlo
      cases hlo
    | some block =>
      exact ⟨ht, fun c' more _ hmore => ⟨hmore.without (by decide), .of_ok rfl⟩⟩

theorem finallyRest_filled (place : Location) (body : List Stmt) (handler : Option CatchClause) :
    Filled EndsStmt any finallyEnd (finallyRest n place body handler)
      (finallyRest · place body handler) := by
  cases handler with
  | some handler =>
    refine ⟨ih.finallyClause.heals.bind (fun _ => .pure trivial) (.nil ?_) ?_,
      accepts_finallyRest place body _⟩
    all_goals exact fun _ => EndsStmt.without (by decide)
  | none =>
    exact .of (finallyRest_heals ih place body) (finallyRest_atEnd place n body)
      (accepts_finallyRest place body none)

theorem tryRest_filled (place : Location) (body : List Stmt) :
    Filled EndsStmt any finallyEnd (tryRest n place body) (tryRest · place body) := by
  refine ⟨ih.catchClause.heals.bind (fun handler => finallyRest_filled ih place body handler)
    joins_finallyEnd ?_, accepts_tryRest place body⟩
  exact fun _ => EndsStmt.without (by decide)

theorem tryStatement_heals (place : Location) :
    Heals 0 EndsStmt any (tryStatement (n + 1) place) (tryStatement · place) := by
  refine .step (fun n => tryStatement_succ n place) ?_
  rw [tryStatement_succ]
  exact (Filled.expectMark_bind
    ((ih.block _).any_bind fun body => tryRest_filled ih place body)).heals

/-- What is thrown can be missing, but only on the line of the keyword. -/
theorem throw_heals {c : Context} {s : State} (place : Location)
    (hnext : s.next = some (.keyword .throw)) :
    HealsAt c s EndsStmt any
      (do
        skip
        throwStatement n place)
      (fun m => do
        skip
        throwStatement m place) := by
  have hlo : 1 ≤ s.rest.length := Within.length_of_next hnext
  have hskip (c' : Context) (more : List Token) : skip c' (s.add more) = .ok () (s.skip.add more) :=
    (skip_eq c' _).trans (by rw [State.skip_add more hlo])
  by_cases hs : s.skip.rest = []
  · refine Run.bind_iff.mpr ((Run.iff_ok (skip_eq c s)).mpr ?_)
    refine ((throwStatement_follows (steady_self n) place).atEnd c s.skip hs).imp
      (fun _ _ h => h.2.1.elim) fun e t _ _ => .thrown [.mark .dot, .name] ?_ ?_ ?_
    · obtain ⟨token, rest, hrest⟩ := List.exists_cons_of_length_pos hlo
      obtain rfl : rest = [] := by simpa [State.skip, hrest] using hs
      exact ⟨token, by simp [hrest], by simpa [State.next, hrest] using hnext⟩
    · intro c' more v hc hfill hmore
      obtain ⟨a, u, ha, h⟩ := (accepts_throwStatement place).completes hs c' more v hc hfill hmore
      exact ⟨a, u, .next (hskip c' v) ha, h⟩
    · refine fun c' more _ hmore => .behind (.of_ok (hskip c' more)) ⟨0, fun m _ => ?_⟩
      exact throwStatement_fails place ((rest_add_of_nil hs more).symm ▸ hmore)
  · refine .skip_bind hlo (Heals.newlineBefore_bind (fun b => .ite (.failHere_bind _) ?_) c s.skip
      (List.length_pos_iff.mpr hs))
    exact ih.expression.ended.heals.one

theorem statementAt_heals {c : Context} {s : State} {k : TokenKind} (place : Location)
    (hnext : s.next = some k) :
    HealsAt c s EndsStmt any (statementAt n place k) (statementAt · place k) := by
  have hlo : 1 ≤ s.rest.length := Within.length_of_next hnext
  unfold statementAt
  split
  case h_1 =>
    exact .skip_bind hlo ((ih.function _ _).heals.any_bind (fun f => .pure trivial) c _
      (Nat.zero_le _))
  case h_2 => exact .skip_bind hlo ((ih.ifStatement place).heals c _ (Nat.zero_le _))
  case h_3 => exact .skip_bind hlo (whileStatement_heals ih place c _ (Nat.zero_le _))
  case h_4 => exact .skip_bind hlo ((ih.doStatement place).heals c _ (Nat.zero_le _))
  case h_5 => exact .skip_bind hlo ((ih.forStatement place).heals c _ (Nat.zero_le _))
  case h_6 => exact .skip_bind hlo (ih.returnStatement place c _ (Nat.zero_le _))
  case h_7 => exact .skip_bind hlo (loopJump_heals _ _ _ c _ (Nat.zero_le _))
  case h_8 => exact .skip_bind hlo (loopJump_heals _ _ _ c _ (Nat.zero_le _))
  case h_9 => exact throw_heals ih place hnext
  case h_10 => exact .skip_bind hlo ((ih.tryStatement place).heals c _ (Nat.zero_le _))
  case h_11 =>
    exact .skip_bind hlo ((ih.block _).heals.any_bind (fun body => .pure trivial) c _
      (Nat.zero_le _))
  case h_12 => exact .skip_bind hlo (Heals.pure _ c _ (Nat.zero_le _))
  case h_13 => exact ih.expression.ended.heals c s (Nat.zero_le _)

theorem statement_heals : Heals 1 EndsStmt any (statement (n + 1)) statement := by
  refine .step statement_succ ?_
  rw [statement_succ]
  refine .here_bind fun place => .peekAs_bind fun kind => ?_
  cases kind with
  | some kind => exact .skip_bind (ih.declarators kind).ended.heals
  | none =>
    intro c s hlo
    refine .look peek_eq (fun _ _ _ more h => State.next_add more h) hlo ?_
    cases hnext : s.next with
    | none => exact ih.expression.ended.heals c s (Nat.zero_le _)
    | some k => exact statementAt_heals ih place hnext

end Statements

theorem healing_zero : Healing 0 where
  expression := ⟨.exhausted, accepts_expression true⟩
  sequenceRest := ⟨.exhausted, accepts_sequenceRest⟩
  assignment := ⟨.exhausted, accepts_assignment true⟩
  conditional := ⟨.exhausted, accepts_conditional true⟩
  disjunction := ⟨.exhausted, accepts_disjunction true⟩
  disjunctionRest left := ⟨.exhausted, accepts_disjunctionRest left⟩
  conjunction := ⟨.exhausted, accepts_conjunction true⟩
  conjunctionRest left := ⟨.exhausted, accepts_conjunctionRest left⟩
  binary least := ⟨.exhausted, accepts_binary true least⟩
  binaryRest least left := ⟨.exhausted, accepts_binaryRest least left⟩
  unary := ⟨.exhausted, accepts_unary true⟩
  target c s _ := Heals.exhausted c s (Nat.le_refl _)
  postfixed := ⟨.exhausted, accepts_postfixed true⟩
  access := ⟨.exhausted, accepts_access true⟩
  accessRest e := ⟨.exhausted, accepts_accessRest e⟩
  arguments := ⟨.exhausted, accepts_arguments⟩
  argumentList := ⟨.exhausted, accepts_argumentList⟩
  primary := ⟨.exhausted, accepts_primary true⟩
  elements := ⟨.exhausted, accepts_elements⟩
  properties := ⟨.exhausted, accepts_properties⟩
  function named place := ⟨.exhausted, accepts_function named place⟩
  block what := ⟨.exhausted, accepts_block what⟩
  blockRest what := ⟨.exhausted, accepts_blockRest what⟩
  declarators kind := ⟨.exhausted, accepts_declarators kind⟩
  condition := ⟨.exhausted, accepts_condition⟩
  statement := ⟨.exhausted, accepts_statement⟩
  ifStatement place := ⟨.exhausted, accepts_ifStatement place⟩
  doStatement place := ⟨.exhausted, accepts_doStatement place⟩
  forInit := ⟨.exhausted, accepts_forInit⟩
  optional _ := ⟨.exhausted, accepts_optional⟩
  forStatement place := ⟨.exhausted, accepts_forStatement place⟩
  returnStatement _ := .exhausted
  tryStatement place := ⟨.exhausted, accepts_tryStatement place⟩
  catchClause := ⟨.exhausted, accepts_catchClause⟩
  finallyClause := ⟨.exhausted, accepts_finallyClause⟩

/-- Whatever the bound on the depth, the parser fails at the end of the tokens only where more
tokens can heal it, but for what is thrown and for vain operands. -/
theorem healing (n : Nat) : Healing n := by
  -- On the depth, for all routines at once, as they call one another.
  induction n with
  | zero => exact healing_zero
  | succ n ih =>
    have ends := steady_self (n + 1)
    exact {
      expression := ⟨expression_heals ih, accepts_expression true⟩
      sequenceRest := ⟨sequenceRest_heals ih, accepts_sequenceRest⟩
      assignment := ⟨assignment_heals ih, accepts_assignment true⟩
      conditional := ⟨conditional_heals ih, accepts_conditional true⟩
      disjunction := ⟨disjunction_heals ih, accepts_disjunction true⟩
      disjunctionRest := fun left => ⟨disjunctionRest_heals ih left, accepts_disjunctionRest left⟩
      conjunction := ⟨conjunction_heals ih, accepts_conjunction true⟩
      conjunctionRest := fun left => ⟨conjunctionRest_heals ih left, accepts_conjunctionRest left⟩
      binary := fun least => ⟨binary_heals ih least, accepts_binary true least⟩
      binaryRest := fun least left =>
        ⟨binaryRest_heals ih least left, accepts_binaryRest least left⟩
      unary := .of (unary_heals ih) ends.unary.atEnd (accepts_unary true)
      target := fun _ _ => target_heals ih
      postfixed := ⟨postfixed_heals ih, accepts_postfixed true⟩
      access := ⟨access_heals ih, accepts_access true⟩
      accessRest := fun e => ⟨accessRest_heals ih e, accepts_accessRest e⟩
      arguments := .of (arguments_heals ih) ends.arguments.atEnd accepts_arguments
      argumentList := ⟨argumentList_heals ih, accepts_argumentList⟩
      primary := .of (primary_heals ih) ends.primary.atEnd (accepts_primary true)
      elements := .of (elements_heals ih) ends.elements.atEnd accepts_elements
      properties := .of (properties_heals ih) ends.properties.atEnd accepts_properties
      function := fun named place => .of (function_heals ih named place)
        (ends.function named place).atEnd (accepts_function named place)
      block := fun what => ⟨block_heals ih what, accepts_block what⟩
      blockRest := fun what =>
        .of (blockRest_heals ih what) (ends.blockRest what).atEnd (accepts_blockRest what)
      declarators := fun kind =>
        .of (declarators_heals ih kind) (ends.declarators kind).atEnd (accepts_declarators kind)
      condition := ⟨condition_heals ih, accepts_condition⟩
      statement := .of (statement_heals ih) ends.statement.atEnd accepts_statement
      ifStatement := fun place => ⟨ifStatement_heals ih place, accepts_ifStatement place⟩
      doStatement := fun place => ⟨doStatement_heals ih place, accepts_doStatement place⟩
      forInit := .of (forInit_heals ih) ends.forInit.atEnd accepts_forInit
      optional := fun stop =>
        .of (optional_heals ih stop) (ends.optional stop).atEnd accepts_optional
      forStatement := fun place => ⟨forStatement_heals ih place, accepts_forStatement place⟩
      returnStatement := returnStatement_heals ih
      tryStatement := fun place => ⟨tryStatement_heals ih place, accepts_tryStatement place⟩
      catchClause := ⟨catchClause_heals ih, accepts_catchClause⟩
      finallyClause := ⟨finallyClause_heals ih, accepts_finallyClause⟩ }

theorem statements_heals (n : Nat) :
    Heals 0 (· = []) any (statements n) statements := by
  induction n with
  | zero => exact .exhausted
  | succ n ih =>
    have hends (more : List Token) (h : more = []) : EndsStmt more := h ▸ .nil
    have hrest (s : Stmt) : Filled (· = []) any [] (do
        let ss ← statements n
        return s :: ss) (fun n => do
        let ss ← statements n
        return s :: ss) :=
      Filled.open_bind ⟨ih, accepts_statements⟩ fun ss => .pure trivial
    refine .step (fun _ => rfl) (Filled.heals (.tail (a := true) (fun c s h => ?_) rfl
      (.atEnd_bind ?_) (.pure trivial)))
    · rw [atEnd_eq, h]
      rfl
    · exact (healing n).statement.heals.one.bind hrest (.nil hends) hends

end ScriptShell.Parser
