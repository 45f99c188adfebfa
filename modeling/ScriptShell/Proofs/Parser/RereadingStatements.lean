import ScriptShell.Proofs.Parser.Rereading

namespace ScriptShell.Parser

variable {α β : Type} {c : Context} {s t m m' : State} {v : List Token} {place : Location}

namespace State

theorem warn_facing (c : Context) (s : State) (remark : Remark) (place : Location)
    (v : List Token) : (s.facing v).warn c remark place = (s.warn c remark place).facing v := by
  unfold warn
  split <;> rfl

theorem declareVar_facing (c : Context) (s : State) (name : String) (place : Location)
    (v : List Token) :
    (s.facing v).declareVar c name place = (s.declareVar c name place).facing v := by
  have hscopes : (s.facing v).varScopes = s.varScopes := rfl
  unfold declareVar
  rw [hscopes]
  cases s.varScopes with
  | nil => rfl
  | cons names outer =>
    dsimp only
    split
    · exact warn_facing c s _ _ v
    · rfl

theorem warnCondition_facing (c : Context) (s : State) (e : Expr) (v : List Token) :
    (s.facing v).warnCondition c e = (s.warnCondition c e).facing v := by
  unfold warnCondition
  split
  · exact warn_facing c s _ _ v
  · rfl

theorem warnUnreachable_facing (c : Context) (s : State) (body : List Stmt) (v : List Token) :
    (s.facing v).warnUnreachable c body = (s.warnUnreachable c body).facing v := by
  unfold warnUnreachable
  split
  · exact warn_facing c s _ _ v
  · rfl

end State

def AgainOption (c : Context) : Option Expr → State → State → Prop
  | none, s, t => s = t
  | some e, s, t => Again c e s t

def AgainDeclarators (c : Context) (kind : DeclKind) : List Declarator → State → State → Prop
  | [], s, t => s = t
  | .mk name init _ :: ds, s, t => ∃ m, AgainOption c init s m ∧ (kind = .const → init.isSome) ∧
      AgainDeclarators c kind ds (if kind = .var then m.declareVar c name default else m) t

def Without (k : Keyword) (v : List Token) : Prop :=
  v.head?.map (·.kind) ≠ some (.keyword k)

structure Behind (st : Stmt) (v : List Token) : Prop where
  notFinally : Without .finally_ v
  notElse : st.endsOpen = true → Without .else_ v

def AgainStmt (c : Context) (st : Stmt) (s t : State) : Prop :=
  ∀ v, Behind st v → Yields statement c (s.facing (spell st.tokens v)) st.unplaced (t.facing v)

def AgainStmts (c : Context) : List Stmt → State → State → Prop
  | [], s, t => s = t
  | st :: body, s, t => ∃ m, AgainStmt c st s m ∧ AgainStmts c body m t

def AgainBlock (c : Context) (body : List Stmt) (s t : State) : Prop :=
  ∀ what v, Yields (block · what) c
    (s.facing (spell (tokensOfStmts body) ((TokenKind.mark .rightBrace).token :: v)))
    (unplacedStmts body) (t.facing v)

def AgainInit (c : Context) (init : Option Stmt) (s t : State) : Prop :=
  ∀ v, Yields forInit c
    (s.facing (spell (tokensOfInit init) ((TokenKind.mark .semicolon).token :: v)))
    (unplacedStmt? init) (t.facing ((TokenKind.mark .semicolon).token :: v))

def AgainHandler (c : Context) : Option CatchClause → State → State → Prop
  | none, s, t => s = t
  | some (.mk _ body), s, t => AgainBlock c body s t

def AgainFinalizer (c : Context) : Option (List Stmt) → State → State → Prop
  | none, s, t => s = t
  | some body, s, t => AgainBlock c body s t

section Functions

theorem yields_parameters {params : List String} (h : params ≠ []) :
    Yields parameters c
      (s.facing (spell (commaSeparated (params.map fun x => [.name x]))
        ((TokenKind.mark .rightParen).token :: v)))
      params (s.facing ((TokenKind.mark .rightParen).token :: v)) := by
  induction params with
  | nil => exact absurd rfl h
  | cons x params ih =>
    rw [List.map_cons, spell_commaSeparated]
    refine .step (fun _ => rfl) (.expectName ?_)
    cases params with
    | nil => exact .skipMark rfl (.of_ok rfl)
    | cons x' params =>
      rw [List.map_cons, spell_others]
      exact .eatMark ((ih (List.cons_ne_nil _ _)).bind (.of_ok rfl))

theorem yields_functionBody (name : Option String) (params : List String) {body : List Stmt}
    (h : AgainBlock c body s.enterFunction t) :
    Yields (functionBody · default name params) c
      (s.facing (spell (.mark .rightParen :: .mark .leftBrace ::
        (tokensOfStmts body ++ [.mark .rightBrace])) v))
      (FunctionDef.mk name params body (t.varScopes.headD []).reverse place).unplaced
      ((t.leaveFunction s.loopDepth).facing v) := by
  rw [spell_cons, spell_cons, spell_append]
  refine .expectMark (.expectMark ?_)
  exact (Yields.inFunction (s := s.facing _) (h _ _)).bind (.of_ok rfl)

theorem yields_functionRest (place : Location) (name : Option String) (params : List String)
    {body : List Stmt} (h : AgainBlock c body s.enterFunction t) :
    Yields (functionRest · default name) c
      (s.facing (spell (parenthesized (commaSeparated (params.map fun x => [.name x])) ++
        .mark .leftBrace :: (tokensOfStmts body ++ [.mark .rightBrace])) v))
      (FunctionDef.mk name params body (t.varScopes.headD []).reverse place).unplaced
      ((t.leaveFunction s.loopDepth).facing v) := by
  rw [spell_append, parenthesized, spell_cons, spell_append]
  refine .expectMark ?_
  cases params with
  | nil => exact .atMark rfl (yields_functionBody name [] h)
  | cons x params =>
    refine .next (atMark_eq _ _ _) ?_
    exact (yields_parameters (List.cons_ne_nil _ _)).bind (yields_functionBody name _ h)

theorem again_functionDef {named : Bool} {name : Option String} (hname : named = true → name.isSome)
    (params : List String) {body : List Stmt} (h : AgainBlock c body s.enterFunction t) :
    AgainFunction c named (.mk name params body (t.varScopes.headD []).reverse place) s
      (t.leaveFunction s.loopDepth) := by
  intro v
  have hrest := fun name v => yields_functionRest (v := v) place name params h
  refine .step (fun n => function_succ n _ named) ?_
  cases name with
  | some x =>
    change Yields _ c (s.facing (spell (.name x :: _) v)) _ _
    exact .peek (.skip (hrest (some x) v))
  | none =>
    obtain rfl : named = false := Bool.eq_false_iff.mpr fun h => Bool.false_ne_true (hname h)
    exact .next (peek_eq _ _) (hrest none v)

end Functions

section Lists

theorem without_token {k : TokenKind} {k' : Keyword} (h : k ≠ .keyword k') :
    Without k' (k.token :: v) :=
  fun hk => h (Option.some.inj hk)

theorem behind_nil (st : Stmt) : Behind st [] :=
  ⟨Option.some_ne_none _ ∘ Eq.symm, fun _ => Option.some_ne_none _ ∘ Eq.symm⟩

theorem behind_rightBrace (st : Stmt) : Behind st ((TokenKind.mark .rightBrace).token :: v) :=
  ⟨without_token (by simp), fun _ => without_token (by simp)⟩

theorem behind_statements {st : Stmt} (body : List Stmt) (hv : Behind st v) :
    Behind st (spell (tokensOfStmts body) v) := by
  cases body with
  | nil => exact hv
  | cons st' body =>
    obtain ⟨k, ks, htokens, hk⟩ := st'.tokens_eq_cons
    rw [tokensOfStmts, htokens, List.cons_append, spell_cons]
    refine ⟨without_token ?_, fun _ => without_token ?_⟩ <;>
    · rintro rfl
      cases hk

theorem yields_blockRest (what : String) {body : List Stmt} (h : AgainStmts c body s t) :
    Yields (blockRest · what) c
      (s.facing (spell (tokensOfStmts body) ((TokenKind.mark .rightBrace).token :: v)))
      (unplacedStmts body) (t.facing v) := by
  induction body generalizing s with
  | nil =>
    have hst : s = t := h
    exact .step (fun _ => rfl) (.eatMark (.of_ok (hst ▸ rfl)))
  | cons st body ih =>
    obtain ⟨m, hstmt, hbody⟩ := h
    have hread := hstmt (spell (tokensOfStmts body) ((TokenKind.mark .rightBrace).token :: v))
      (behind_statements body (behind_rightBrace st))
    obtain ⟨k, ks, htokens, hk⟩ := st.tokens_eq_cons
    rw [tokensOfStmts, spell_append]
    rw [htokens, spell_cons] at hread ⊢
    refine .step (fun _ => rfl) (.skipMark ?_ (.next (atEnd_eq _ _) ?_))
    · refine Bool.eq_false_iff.mpr fun hnext => ?_
      obtain rfl : k = .mark .rightBrace := Option.some.inj (State.nextIs_iff.mp hnext)
      cases hk
    · exact hread.bind ((ih hbody).bind (.of_ok rfl))

theorem again_block {body : List Stmt} (h : AgainStmts c body s t) :
    AgainBlock c body s (t.warnUnreachable c (unplacedStmts body)) := by
  intro what v
  refine .step (fun _ => rfl) ((yields_blockRest what h).bind (.next (warnUnreachable_eq _ _ _) ?_))
  rw [State.warnUnreachable_facing]
  exact .of_ok rfl

theorem yields_statements {body : List Stmt} (h : AgainStmts c body s t) :
    Yields statements c (s.facing (spell (tokensOfStmts body) [])) (unplacedStmts body)
      (t.facing []) := by
  induction body generalizing s with
  | nil =>
    have hst : s = t := h
    exact .step (fun _ => rfl) (.next (atEnd_eq _ _) (.of_ok (hst ▸ rfl)))
  | cons st body ih =>
    obtain ⟨m, hstmt, hbody⟩ := h
    have hread := hstmt (spell (tokensOfStmts body) []) (behind_statements body (behind_nil st))
    obtain ⟨k, ks, htokens, -⟩ := st.tokens_eq_cons
    rw [tokensOfStmts, spell_append]
    rw [htokens, spell_cons] at hread ⊢
    refine .step (fun _ => rfl) (.next (atEnd_eq _ _) ?_)
    exact hread.bind ((ih hbody).bind (.of_ok rfl))

theorem yields_declarators {kind : DeclKind} {ds : List Declarator} (hds : ds ≠ [])
    (h : AgainDeclarators c kind ds s t) :
    Yields (declarators · kind) c
      (s.facing (spell (commaSeparated (tokensOfDeclarators ds))
        ((TokenKind.mark .semicolon).token :: v)))
      (unplacedDeclarators ds) (t.facing ((TokenKind.mark .semicolon).token :: v)) := by
  -- Over the declarators: behind each the state is one name further.
  induction ds generalizing s with
  | nil => exact absurd rfl hds
  | cons d ds ih =>
    obtain ⟨name, init, place⟩ := d
    obtain ⟨m, hinit, hconst, hall⟩ := h
    -- behind the value: the name is declared and the other names are read
    have hafter : Yields (declaratorsFrom · default kind name (unplacedExpr? init)) c
        (m.facing (spell ((tokensOfDeclarators ds).flatMap (.mark .comma :: ·))
          ((TokenKind.mark .semicolon).token :: v)))
        (unplacedDeclarators (.mk name init place :: ds))
        (t.facing ((TokenKind.mark .semicolon).token :: v)) := by
      have hothers : Yields (declaratorsAfter · default kind name (unplacedExpr? init)) c
          ((if kind = .var then m.declareVar c name default else m).facing
            (spell ((tokensOfDeclarators ds).flatMap (.mark .comma :: ·))
              ((TokenKind.mark .semicolon).token :: v)))
          (unplacedDeclarators (.mk name init place :: ds))
          (t.facing ((TokenKind.mark .semicolon).token :: v)) := by
        cases ds with
        | nil => exact .skipMark rfl (.of_ok ((hall : _ = t) ▸ rfl))
        | cons d ds =>
          have hds := ih (List.cons_ne_nil _ _) hall
          obtain ⟨ks, others, htokens⟩ : ∃ ks others, tokensOfDeclarators (d :: ds) = ks :: others := by
            obtain ⟨_, init, _⟩ := d
            cases init <;> exact ⟨_, _, rfl⟩
          rw [htokens] at hds ⊢
          rw [spell_others]
          exact .eatMark (hds.bind (.of_ok rfl))
      by_cases hvar : kind = .var
      · simp only [declaratorsFrom, hvar, if_true] at hothers ⊢
        rw [← State.declareVar_facing] at hothers
        exact .next (declareVar_eq _ _ _ _) hothers
      · simpa only [declaratorsFrom, hvar, if_false] using hothers
    refine .step (fun n => declarators_succ n kind) ?_
    cases init with
    | none =>
      obtain rfl : s = m := hinit
      rw [tokensOfDeclarators, spell_commaSeparated]
      refine .here (.expectName (.skipMark ?_ ?_))
      · cases tokensOfDeclarators ds <;> rfl
      · simp only [Bool.false_eq_true, if_false, if_neg fun h => Bool.false_ne_true (hconst h)]
        exact hafter
    | some e =>
      rw [tokensOfDeclarators, spell_commaSeparated]
      refine .here (.expectName (.eatMark ?_))
      exact (Again.assignment_item hinit _ (by decide) v).bind hafter

end Lists

section Statements

variable {e e' : Expr} {st st' : Stmt} {v' : List Token}

theorem nextIsKeyword_eq_false {k : Keyword} (h : Without k v) :
    (s.facing v).nextIsKeyword k = false :=
  Bool.eq_false_iff.mpr fun hnext => h (State.nextIsKeyword_iff.mp hnext)

theorem Yields.inLoop_facing {f : Nat → Parser α} {a : α}
    (h : Yields f c (s.enterLoop.facing v) a (t.facing v')) :
    Yields (fun n => Parser.inLoop (f n)) c (s.facing v) a (t.leaveLoop.facing v') :=
  Yields.inLoop (s := s.facing v) (t := t.facing v') h

theorem Yields.statement {k : TokenKind} {a : Stmt} (hk : declKind? k = none)
    (h : Yields (statementAt · default k) c (s.facing (k.token :: v)) a t) :
    Yields statement c (s.facing (k.token :: v)) a t :=
  .step statement_succ (.here (.peekAs hk (.peek h)))

theorem yields_condition (h : Again c e s t) :
    Yields condition c (s.facing (spell (parenthesized e.tokens) v)) e.unplaced
      ((t.warnCondition c e.unplaced).facing v) := by
  rw [parenthesized, spell_cons, spell_append]
  refine .step (fun _ => rfl) (.expectMark ((h.expression (by decide)).bind ?_))
  refine .next (warnCondition_eq _ _ _) ?_
  rw [State.warnCondition_facing]
  exact .expectMark (.of_ok rfl)

theorem again_declare {kind : DeclKind} {ds : List Declarator} (hds : ds ≠ [])
    (h : AgainDeclarators c kind ds s t) : AgainStmt c (.declare kind ds place) s t := by
  intro v _
  have hkind : declKind? (.keyword kind.keyword) = some kind := by cases kind <;> rfl
  rw [Stmt.tokens, spell_cons, spell_append]
  refine .step statement_succ (.here (.peekAs hkind (.skip ?_)))
  exact (yields_declarators hds h).bind (.endStatement (.of_ok rfl))

theorem again_functionStmt {f : FunctionDef} (h : AgainFunction c true f s t) :
    AgainStmt c (.function f place) s t := by
  intro v _
  rw [Stmt.tokens, spell_cons]
  exact .statement rfl (.skip ((h v).bind (.of_ok rfl)))

theorem again_exprStmt (h : Again c e s t) : AgainStmt c (.expr e place) s t := by
  intro v _
  rw [Stmt.tokens, spell_append]
  have hread := h.expression (k := .mark .semicolon) (v := v) (by decide)
  obtain ⟨ks, hks⟩ := e.tokens_eq_parenthesized
  rw [hks] at hread ⊢
  exact .statement rfl (hread.bind (.endStatement (.of_ok rfl)))

theorem again_if (he : Again c e s m) (hst : AgainStmt c st (m.warnCondition c e.unplaced) t) :
    AgainStmt c (.if_ e st none place) s t := by
  intro v hv
  rw [Stmt.tokens, spell_cons, spell_append, spell_append]
  refine .statement rfl (.skip (.step (fun _ => rfl) ((yields_condition he).bind ?_)))
  refine (hst v ⟨hv.notFinally, fun _ => hv.notElse rfl⟩).bind (.skipKeyword ?_ (.of_ok rfl))
  exact nextIsKeyword_eq_false (hv.notElse rfl)

theorem again_ifElse (he : Again c e s m)
    (hst : AgainStmt c st (m.warnCondition c e.unplaced) m') (hopen : st.endsOpen = false)
    (hst' : AgainStmt c st' m' t) : AgainStmt c (.if_ e st (some st') place) s t := by
  intro v hv
  rw [Stmt.tokens, spell_cons, spell_append, spell_append, tokensOfElse, spell_cons]
  refine .statement rfl (.skip (.step (fun _ => rfl) ((yields_condition he).bind ?_)))
  refine (hst _ ⟨without_token (by simp), fun h => absurd h (by simp [hopen])⟩).bind ?_
  exact .eatKeyword ((hst' v ⟨hv.notFinally, hv.notElse⟩).bind (.of_ok rfl))

theorem again_while (he : Again c e s m)
    (hst : AgainStmt c st (m.warnCondition c e.unplaced).enterLoop t) :
    AgainStmt c (.while e st place) s t.leaveLoop := by
  intro v hv
  rw [Stmt.tokens, spell_cons, spell_append]
  refine .statement rfl (.skip ((yields_condition he).bind ?_))
  exact (Yields.inLoop_facing (hst v ⟨hv.notFinally, hv.notElse⟩)).bind (.of_ok rfl)

theorem again_doWhile (hst : AgainStmt c st s.enterLoop m) (he : Again c e m.leaveLoop t) :
    AgainStmt c (.doWhile st e place) s (t.warnCondition c e.unplaced) := by
  intro v _
  rw [Stmt.tokens, spell_cons, spell_append, spell_cons, spell_append]
  refine .statement rfl (.skip (.step (fun n => doStatement_succ n _) ?_))
  refine (Yields.inLoop_facing (hst _ ?_)).bind (.eatKeyword ?_)
  · exact ⟨without_token (by simp), fun _ => without_token (by simp)⟩
  · exact (yields_condition he).bind (.eatMark (.of_ok rfl))

theorem yields_optional {o : Option Expr} {stop : Mark} (hstop : 8 < looseness (.mark stop))
    (h : AgainOption c o s t) :
    Yields (optional · stop) c
      (s.facing (spell (tokensOfExpr? o) ((TokenKind.mark stop).token :: v))) (unplacedExpr? o)
      (t.facing ((TokenKind.mark stop).token :: v)) := by
  cases o with
  | none =>
    obtain rfl : s = t := h
    exact .step (fun _ => rfl) (.atMark (decide_eq_true rfl) (.of_ok rfl))
  | some e =>
    have hread := Again.expression (v := v) h hstop
    have hnext :
        (s.facing (spell e.tokens ((TokenKind.mark stop).token :: v))).nextIs stop = false := by
      refine nextIs_eq_false (Again.next_eq e s _) fun hstop' => ?_
      rw [hstop'] at hstop
      exact absurd hstop (by decide)
    refine .step (fun _ => rfl) (.next (atMark_eq _ _ _) ?_)
    rw [tokensOfExpr?, hnext]
    exact hread.bind (.of_ok rfl)

theorem again_for {init : Option Stmt} {test step : Option Expr} {m'' : State}
    (hinit : AgainInit c init s m) (htest : AgainOption c test m m')
    (hstep : AgainOption c step m' m'') (hst : AgainStmt c st m''.enterLoop t) :
    AgainStmt c (.for_ init test step st place) s t.leaveLoop := by
  intro v hv
  rw [Stmt.tokens, spell_cons, spell_cons, spell_append, spell_cons, spell_append, spell_cons,
    spell_append, spell_cons]
  refine .statement rfl (.skip (.step (fun _ => rfl) (.expectMark ((hinit _).bind ?_))))
  refine .expectMark ((yields_optional (by decide) htest).bind (.expectMark ?_))
  refine (yields_optional (by decide) hstep).bind (.expectMark ?_)
  exact (Yields.inLoop_facing (hst v ⟨hv.notFinally, hv.notElse⟩)).bind (.of_ok rfl)

theorem againInit_none : AgainInit c none s s :=
  fun _ => .step (fun _ => rfl) (.here (.peekAs rfl (.atMark rfl (.of_ok rfl))))

theorem againInit_declare {kind : DeclKind} {ds : List Declarator} (hds : ds ≠ [])
    (h : AgainDeclarators c kind ds s t) : AgainInit c (some (.declare kind ds place)) s t := by
  intro v
  have hkind : declKind? (.keyword kind.keyword) = some kind := by cases kind <;> rfl
  rw [tokensOfInit, spell_cons]
  refine .step (fun _ => rfl) (.here (.peekAs hkind (.skip ?_)))
  exact (yields_declarators hds h).bind (.of_ok rfl)

theorem againInit_expr (h : Again c e s t) : AgainInit c (some (.expr e place)) s t := by
  intro v
  have hread := h.expression (k := .mark .semicolon) (v := v) (by decide)
  obtain ⟨ks, hks⟩ := e.tokens_eq_parenthesized
  rw [tokensOfInit]
  rw [hks] at hread ⊢
  exact .step (fun _ => rfl) (.here (.peekAs rfl (.atMark rfl (hread.bind (.of_ok rfl)))))

theorem again_blockStmt {body : List Stmt} (h : AgainBlock c body s t) :
    AgainStmt c (.block body place) s t := by
  intro v _
  rw [Stmt.tokens, spell_cons, spell_append]
  exact .statement rfl (.skip ((h _ v).bind (.of_ok rfl)))

theorem again_return {o : Option Expr} (hdepth : s.functionDepth ≠ 0) (h : AgainOption c o s t) :
    AgainStmt c (.return_ o place) s t := by
  intro v _
  rw [Stmt.tokens, spell_cons, spell_append]
  refine .statement rfl (.skip (.step (fun n => returnStatement_succ n _) (.next (get_eq _ _) ?_)))
  have hdepth (ks : List Token) : (s.facing ks).functionDepth ≠ 0 := hdepth
  simp only [hdepth, if_false]
  cases o with
  | none =>
    obtain rfl : s = t := h
    exact .next (newlineBefore_eq _ _) (.next (atEnd_eq _ _) (.atMark rfl (.atMark rfl
      (.endStatement (.of_ok rfl)))))
  | some e =>
    have hread := Again.expression (k := .mark .semicolon) (v := v) h (by decide)
    obtain ⟨ks, hks⟩ := e.tokens_eq_parenthesized
    rw [tokensOfExpr?]
    rw [hks] at hread ⊢
    exact .next (newlineBefore_eq _ _) (.next (atEnd_eq _ _) (.atMark rfl (.atMark rfl
      (hread.bind (.endStatement (.of_ok rfl))))))

theorem again_jump {k : Keyword} {fault : ParseFault} {st : Location → Stmt}
    (hk : ∀ n place, statementAt n place (.keyword k) =
      Parser.skip >>= fun _ => loopJump fault place (st place))
    (hdecl : declKind? (.keyword k) = none)
    (htokens : (st place).tokens = [.keyword k, .mark .semicolon])
    (hst : (st place).unplaced = st default) (hdepth : s.loopDepth ≠ 0) :
    AgainStmt c (st place) s s := by
  intro v _
  rw [htokens, hst]
  refine .statement hdecl ?_
  simp only [hk]
  refine .skip (.next (get_eq _ _) ?_)
  have hdepth (ks : List Token) : (s.facing ks).loopDepth ≠ 0 := hdepth
  rw [if_neg (hdepth _)]
  exact .endStatement (.of_ok rfl)

theorem again_throw (h : Again c e s t) : AgainStmt c (.throw e place) s t := by
  intro v _
  have hread := h.expression (k := .mark .semicolon) (v := v) (by decide)
  obtain ⟨ks, hks⟩ := e.tokens_eq_parenthesized
  rw [Stmt.tokens, spell_cons, spell_append]
  rw [hks] at hread ⊢
  refine .statement rfl (.skip (.next (newlineBefore_eq _ _) ?_))
  exact hread.bind (.endStatement (.of_ok rfl))

theorem again_empty : AgainStmt c (.empty place) s s :=
  fun _ _ => .statement rfl (.skip (.of_ok rfl))

theorem yields_catchClause {handler : Option CatchClause} (h : AgainHandler c handler s t)
    (hv : handler = none → Without .catch_ v) :
    Yields catchClause c (s.facing (spell (tokensOfHandler handler) v)) (unplacedHandler handler)
      (t.facing v) := by
  cases handler with
  | none =>
    obtain rfl : s = t := h
    exact .step (fun _ => rfl) (.skipKeyword (nextIsKeyword_eq_false (hv rfl)) (.of_ok rfl))
  | some handler =>
    obtain ⟨param, body⟩ := handler
    rw [tokensOfHandler, spell_cons, spell_cons, spell_cons, spell_cons, spell_cons, spell_append]
    refine .step (fun _ => rfl) (.eatKeyword (.expectMark (.expectName (.expectMark ?_))))
    exact .expectMark ((h _ v).bind (.of_ok rfl))

theorem yields_finallyClause {finalizer : Option (List Stmt)} (h : AgainFinalizer c finalizer s t)
    (hv : finalizer = none → Without .finally_ v) :
    Yields finallyClause c (s.facing (spell (tokensOfFinalizer finalizer) v))
      (unplacedStmts? finalizer) (t.facing v) := by
  cases finalizer with
  | none =>
    obtain rfl : s = t := h
    exact .step (fun _ => rfl) (.skipKeyword (nextIsKeyword_eq_false (hv rfl)) (.of_ok rfl))
  | some body =>
    rw [tokensOfFinalizer, spell_cons, spell_cons, spell_append]
    exact .step (fun _ => rfl) (.eatKeyword (.expectMark ((h _ v).bind (.of_ok rfl))))

theorem again_try {body : List Stmt} {handler : Option CatchClause}
    {finalizer : Option (List Stmt)} (hbody : AgainBlock c body s m)
    (hhandler : AgainHandler c handler m m') (hfinalizer : AgainFinalizer c finalizer m' t)
    (hany : (handler.isNone && finalizer.isNone) = false) :
    AgainStmt c (.try_ body handler finalizer place) s t := by
  intro v hv
  rw [Stmt.tokens, spell_cons, spell_cons, spell_append, spell_cons, spell_append]
  refine .statement rfl (.skip (.step (fun n => tryStatement_succ n _) (.expectMark ?_)))
  refine (hbody _ _).bind ((yields_catchClause hhandler fun hnone => ?_).bind ?_)
  · -- a block of `finally` follows at once
    cases finalizer with
    | none => simp [hnone] at hany
    | some body => exact without_token (by simp)
  · refine (yields_finallyClause hfinalizer fun _ => hv.notFinally).bind (.of_ok ?_)
    have hany : ((unplacedHandler handler).isNone && (unplacedStmts? finalizer).isNone) = false := by
      rcases handler with _ | ⟨_, _⟩ <;> cases finalizer <;> exact hany
    rw [hany]
    rfl

end Statements

end ScriptShell.Parser
