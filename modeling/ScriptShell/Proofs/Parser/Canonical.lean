import ScriptShell.Proofs.Parser.RereadingStatements

namespace ScriptShell.Parser

variable {α β : Type} {c : Context} {s t m : State}

def Context.bare (c : Context) : Context :=
  ⟨default, false, c.strict⟩

namespace State

def bare (s : State) : State :=
  { s with rest := [], warnings := s.warnings.map .unplaced }

theorem bare_warn (c : Context) (s : State) (remark : Remark) (place : Location) :
    s.bare.warn c.bare remark default = (s.warn c remark place).bare := by
  unfold warn
  change (if (!remark.isStrict || c.strict) = true then _ else _) = _
  split <;> rfl

theorem bare_declareVar (c : Context) (s : State) (name : String) (place : Location) :
    s.bare.declareVar c.bare name default = (s.declareVar c name place).bare := by
  have hscopes : s.bare.varScopes = s.varScopes := rfl
  unfold declareVar
  rw [hscopes]
  cases s.varScopes with
  | nil => rfl
  | cons names outer =>
    dsimp only
    split
    · exact bare_warn c s _ _
    · rfl

theorem bare_warnCondition (c : Context) (s : State) (e : Expr) :
    s.bare.warnCondition c.bare e.unplaced = (s.warnCondition c e).bare := by
  cases e with
  | assign op target value place =>
    cases op with
    | none => exact bare_warn c s _ place
    | some op => rfl
  | update op before e place => cases before <;> rfl
  | _ => rfl

end State

theorem unreachable?_unplaced (returned : Bool) (body : List Stmt) :
    unreachable? returned (unplacedStmts body) =
      (unreachable? returned body).map fun _ => default := by
  induction body generalizing returned with
  | nil => rfl
  | cons s body ih =>
    cases s <;> cases returned <;> first | rfl | exact ih _

theorem State.bare_warnUnreachable (c : Context) (s : State) (body : List Stmt) :
    s.bare.warnUnreachable c.bare (unplacedStmts body) = (s.warnUnreachable c body).bare := by
  unfold State.warnUnreachable
  rw [unreachable?_unplaced]
  cases unreachable? false body with
  | none => rfl
  | some place => exact State.bare_warn c s _ place

theorem bind_markAs_eq_some {reading : Mark → Option α} {k : Option TokenKind} {a : α}
    (h : k.bind (markAs reading) = some a) : ∃ mark, k = some (.mark mark) ∧ reading mark = some a := by
  obtain ⟨k, rfl, hk⟩ := Option.bind_eq_some_iff.mp h
  cases k with
  | mark mark => exact ⟨mark, rfl, hk⟩
  | _ => cases hk

def Leads (x : Parser α) (c : Context) (s : State) (P : α → State → Prop) : Prop :=
  Run x c s P fun _ _ => True

namespace Leads

variable {P : α → State → Prop} {Q : β → State → Prop} {x : Parser α} {g : α → Parser β}

protected theorem bind (hx : Leads x c s P) (hg : ∀ a t, P a t → Leads (g a) c t Q) :
    Leads (x >>= g) c s Q :=
  Run.bind_iff.mpr (Run.imp hx hg fun _ _ _ => trivial)

theorem next {a : α} (hx : x c s = .ok a t) (hg : Leads (g a) c t Q) : Leads (x >>= g) c s Q :=
  Run.bind_iff.mpr ((Run.iff_ok hx).mpr hg)

protected theorem pure {a : α} (h : P a s) : Leads (pure a) c s P :=
  h

theorem failAt (fault : ParseFault) (place : Location) : Leads (failAt fault place) c s P :=
  trivial

theorem failHere (fault : ParseFault) : Leads (failHere fault) c s P :=
  trivial

theorem failHere_bind (fault : ParseFault) : Leads (Parser.failHere fault >>= g) c s Q :=
  Run.bind_iff.mpr trivial

theorem failAt_bind (fault : ParseFault) (place : Location) :
    Leads (Parser.failAt fault place >>= g) c s Q :=
  Run.bind_iff.mpr trivial

theorem exhausted : Leads exhausted c s P :=
  trivial

theorem skip {g : Unit → Parser β} (h : Leads (g ()) c s.skip Q) :
    Leads (Parser.skip >>= g) c s Q :=
  .next (skip_eq c s) h

theorem here {g : Location → Parser β} (h : Leads (g (s.here c)) c s Q) :
    Leads (Parser.here >>= g) c s Q :=
  .next (here_eq c s) h

theorem eatMark {mark : Mark} {g : Bool → Parser β} (h : Leads (g true) c s.skip Q)
    (h' : s.nextIs mark = false → Leads (g false) c s Q) :
    Leads (Parser.eatMark mark >>= g) c s Q := by
  cases hnext : s.nextIs mark with
  | true => exact .next ((eatMark_eq c s mark).trans (if_pos hnext)) h
  | false => exact .next ((eatMark_eq c s mark).trans (if_neg (by simp [hnext]))) (h' hnext)

theorem eatKeyword {k : Keyword} {g : Bool → Parser β}
    (h : s.nextIsKeyword k = true → Leads (g true) c s.skip Q)
    (h' : s.nextIsKeyword k = false → Leads (g false) c s Q) :
    Leads (Parser.eatKeyword k >>= g) c s Q := by
  cases hnext : s.nextIsKeyword k with
  | true => exact .next ((eatKeyword_eq c s k).trans (if_pos hnext)) (h hnext)
  | false => exact .next ((eatKeyword_eq c s k).trans (if_neg (by simp [hnext]))) (h' hnext)

theorem expectMark {mark : Mark} {what : String} {g : Unit → Parser β}
    (h : Leads (g ()) c s.skip Q) : Leads (Parser.expectMark mark what >>= g) c s Q := by
  refine Run.bind_iff.mpr ?_
  rw [Run, expectMark_eq]
  cases s.nextIs mark with
  | true => exact h
  | false => trivial

theorem expectName {what : String} {g : String → Parser β} (h : ∀ x, Leads (g x) c s.skip Q) :
    Leads (Parser.expectName what >>= g) c s Q := by
  refine Run.bind_iff.mpr ?_
  rw [Run, expectName_eq]
  cases s.next with
  | none => trivial
  | some k =>
    cases k with
    | name x => exact h x
    | _ => trivial

theorem endStatement {g : Unit → Parser β} (h : ∀ t, t.bare = s.bare → Leads (g ()) c t Q) :
    Leads (Parser.endStatement >>= g) c s Q := by
  refine Run.bind_iff.mpr ?_
  rw [Run, endStatement_eq]
  split
  case h_1 heq =>
    split at heq
    · cases heq
      exact h _ rfl
    · split at heq <;> cases heq
      exact h _ rfl
  case h_2 => trivial

theorem inLoop_bind (h : Leads x c s.enterLoop P)
    (hg : ∀ a t, P a t → Leads (g a) c t.leaveLoop Q) : Leads (inLoop x >>= g) c s Q := by
  refine Run.bind_iff.mpr ?_
  unfold Leads at h
  rw [Run, inLoop_eq]
  unfold Run at h
  cases hx : x c s.enterLoop with
  | ok a t => exact hg a t (by simpa [hx] using h)
  | error e t => trivial

theorem inFunction_bind {g : α × List String → Parser β} (h : Leads x c s.enterFunction P)
    (hg : ∀ a t, P a t →
      Leads (g (a, (t.varScopes.headD []).reverse)) c (t.leaveFunction s.loopDepth) Q) :
    Leads (inFunction x >>= g) c s Q := by
  refine Run.bind_iff.mpr ?_
  unfold Leads at h
  rw [Run, inFunction_eq]
  unfold Run at h
  cases hx : x c s.enterFunction with
  | ok a t => exact hg a t (by simpa [hx] using h)
  | error e t => trivial

end Leads

structure Reread (c : Context) (s : State) (st : Stmt) (t : State) : Prop where
  closed : st.endsOpen = true → t.nextIsKeyword .else_ = false
  again : AgainStmt c.bare st s t.bare

/-- With a bound on the depth of calls, whatever each function of the parser reads is read again
from its canonical tokens. -/
structure Canonical (n : Nat) : Prop where
  expression : ∀ {c s}, Leads (expression n) c s fun e t => Again c.bare e s.bare t.bare
  sequenceRest : ∀ {c s}, Leads (sequenceRest n) c s fun es t =>
    (s.nextIs .comma = true → es ≠ []) ∧ AgainAll c.bare es s.bare t.bare
  assignment : ∀ {c s}, Leads (assignment n) c s fun e t => Again c.bare e s.bare t.bare
  conditional : ∀ {c s}, Leads (conditional n) c s fun e t => Again c.bare e s.bare t.bare
  disjunction : ∀ {c s}, Leads (disjunction n) c s fun e t => Again c.bare e s.bare t.bare
  disjunctionRest : ∀ {c s s' left}, Again c.bare left s' s.bare →
    Leads (disjunctionRest n left) c s fun e t => Again c.bare e s' t.bare
  conjunction : ∀ {c s}, Leads (conjunction n) c s fun e t => Again c.bare e s.bare t.bare
  conjunctionRest : ∀ {c s s' left}, Again c.bare left s' s.bare →
    Leads (conjunctionRest n left) c s fun e t => Again c.bare e s' t.bare
  binary : ∀ {c s} least, Leads (binary n least) c s fun e t => Again c.bare e s.bare t.bare
  binaryRest : ∀ {c s s' least left}, Again c.bare left s' s.bare →
    Leads (binaryRest n least left) c s fun e t => Again c.bare e s' t.bare
  unary : ∀ {c s}, Leads (unary n) c s fun e t => Again c.bare e s.bare t.bare
  postfixed : ∀ {c s}, Leads (postfixed n) c s fun e t => Again c.bare e s.bare t.bare
  access : ∀ {c s}, Leads (access n) c s fun e t => Again c.bare e s.bare t.bare
  accessRest : ∀ {c s s' e}, Again c.bare e s' s.bare →
    Leads (accessRest n e) c s fun e t => Again c.bare e s' t.bare
  arguments : ∀ {c s}, Leads (arguments n) c s fun es t => AgainAll c.bare es s.bare t.bare
  argumentList : ∀ {c s}, Leads (argumentList n) c s fun es t => AgainAll c.bare es s.bare t.bare
  primary : ∀ {c s}, Leads (primary n) c s fun e t => Again c.bare e s.bare t.bare
  elements : ∀ {c s}, Leads (elements n) c s fun es t => AgainAll c.bare es s.bare t.bare
  properties : ∀ {c s}, Leads (properties n) c s fun entries t =>
    AgainEntries c.bare entries s.bare t.bare
  function : ∀ {c s} named place, Leads (function n named place) c s fun f t =>
    AgainFunction c.bare named f s.bare t.bare
  block : ∀ {c s} what, Leads (block n what) c s fun body t => AgainBlock c.bare body s.bare t.bare
  blockRest : ∀ {c s} what, Leads (blockRest n what) c s fun body t =>
    AgainStmts c.bare body s.bare t.bare
  declarators : ∀ {c s} kind, Leads (declarators n kind) c s fun ds t =>
    ds ≠ [] ∧ AgainDeclarators c.bare kind ds s.bare t.bare
  condition : ∀ {c s}, Leads (condition n) c s fun e t =>
    ∃ m, Again c.bare e s.bare m ∧ t.bare = m.warnCondition c.bare e.unplaced
  statement : ∀ {c s}, Leads (statement n) c s (Reread c s.bare)
  ifStatement : ∀ {c s} place, Leads (ifStatement n place) c s (Reread c s.bare)
  doStatement : ∀ {c s} place, Leads (doStatement n place) c s (Reread c s.bare)
  forInit : ∀ {c s}, Leads (forInit n) c s fun init t => AgainInit c.bare init s.bare t.bare
  optional : ∀ {c s} stop, Leads (optional n stop) c s fun o t =>
    AgainOption c.bare o s.bare t.bare
  forStatement : ∀ {c s} place, Leads (forStatement n place) c s (Reread c s.bare)
  returnStatement : ∀ {c s} place, Leads (returnStatement n place) c s (Reread c s.bare)
  tryStatement : ∀ {c s} place, Leads (tryStatement n place) c s (Reread c s.bare)
  catchClause : ∀ {c s}, Leads (catchClause n) c s fun handler t =>
    AgainHandler c.bare handler s.bare t.bare
  finallyClause : ∀ {c s}, Leads (finallyClause n) c s fun finalizer t =>
    AgainFinalizer c.bare finalizer s.bare t.bare

theorem parameters_leads (n : Nat) {c : Context} {s : State} :
    Leads (parameters n) c s fun _ t => t.bare = s.bare := by
  induction n generalizing s with
  | zero => exact .exhausted
  | succ n ih =>
    refine .expectName fun x => .eatMark (ih.bind fun names t ht => .pure ?_) fun _ => .pure rfl
    exact ht

theorem update_leads (op : UpdateOp) (before : Bool) {e : Expr} (place : Location)
    {P : Expr → State → Prop} (h : e.isTarget = true → P (.update op before e place) s) :
    Leads (update op before e place) c s P := by
  unfold update
  split
  case isTrue htarget => exact .pure (h htarget)
  case isFalse => exact .failAt _ _

section Expressions

variable {n : Nat} (ih : Canonical n)
include ih

theorem expression_leads :
    Leads (expression (n + 1)) c s fun e t => Again c.bare e s.bare t.bare := by
  refine ih.assignment.bind fun first m hfirst => .next (atMark_eq c m _) ?_
  cases hcomma : m.nextIs .comma with
  | false => exact .pure hfirst
  | true =>
    refine ih.sequenceRest.bind fun others t hothers => .pure ?_
    exact again_sequence (hothers.1 hcomma) hfirst hothers.2

theorem sequenceRest_leads :
    Leads (sequenceRest (n + 1)) c s fun es t =>
      (s.nextIs .comma = true → es ≠ []) ∧ AgainAll c.bare es s.bare t.bare := by
  refine .eatMark (ih.assignment.bind fun e m he => ih.sequenceRest.bind fun es t hes => ?_)
    fun hnext => .pure ⟨fun h => absurd h (by simp [hnext]), rfl⟩
  exact .pure ⟨fun _ => List.cons_ne_nil _ _, m.bare, he, hes.2⟩

theorem assignment_leads :
    Leads (assignment (n + 1)) c s fun e t => Again c.bare e s.bare t.bare := by
  refine ih.conditional.bind fun target m htarget => .next (peekAs_eq c m _) ?_
  cases hop : m.next.bind (markAs assignOp?) with
  | none => exact .pure htarget
  | some op =>
    obtain ⟨mark, -, hmark⟩ := bind_markAs_eq_some hop
    refine .here ?_
    split
    case isTrue his =>
      exact .skip (ih.assignment.bind fun value t hvalue => .pure
        (again_assign hmark his htarget hvalue))
    case isFalse => exact .failAt _ _

theorem conditional_leads :
    Leads (conditional (n + 1)) c s fun e t => Again c.bare e s.bare t.bare := by
  refine ih.disjunction.bind fun e m he => .eatMark ?_ fun _ => .pure he
  refine ih.assignment.bind fun yes m' hyes => .expectMark ?_
  exact ih.assignment.bind fun no t hno => .pure (again_conditional he hyes hno)

theorem disjunction_leads :
    Leads (disjunction (n + 1)) c s fun e t => Again c.bare e s.bare t.bare :=
  ih.conjunction.bind fun _ _ => ih.disjunctionRest

theorem disjunctionRest_leads {s' : State} {left : Expr} (hleft : Again c.bare left s' s.bare) :
    Leads (disjunctionRest (n + 1) left) c s fun e t => Again c.bare e s' t.bare := by
  refine .here (.eatMark (ih.conjunction.bind fun right m hright => ?_) fun _ => .pure hleft)
  exact ih.disjunctionRest (again_logical .or hleft hright)

theorem conjunction_leads :
    Leads (conjunction (n + 1)) c s fun e t => Again c.bare e s.bare t.bare :=
  (ih.binary 1).bind fun _ _ => ih.conjunctionRest

theorem conjunctionRest_leads {s' : State} {left : Expr} (hleft : Again c.bare left s' s.bare) :
    Leads (conjunctionRest (n + 1) left) c s fun e t => Again c.bare e s' t.bare := by
  refine .here (.eatMark ((ih.binary 1).bind fun right m hright => ?_) fun _ => .pure hleft)
  exact ih.conjunctionRest (again_logical .and hleft hright)

theorem binary_leads (least : Nat) :
    Leads (binary (n + 1) least) c s fun e t => Again c.bare e s.bare t.bare :=
  ih.unary.bind fun _ _ => ih.binaryRest

theorem binaryRest_leads {s' : State} {least : Nat} {left : Expr}
    (hleft : Again c.bare left s' s.bare) :
    Leads (binaryRest (n + 1) least left) c s fun e t => Again c.bare e s' t.bare := by
  refine .next (peekAs_eq c s _) ?_
  cases s.next.bind (markAs binaryOp?) with
  | none => exact .pure hleft
  | some entry =>
    obtain ⟨level, op⟩ := entry
    dsimp only
    split
    · exact .pure hleft
    · refine .here (.skip ((ih.binary _).bind fun right m hright => ?_))
      exact ih.binaryRest (again_binary op hleft hright)

theorem unary_leads : Leads (unary (n + 1)) c s fun e t => Again c.bare e s.bare t.bare := by
  refine .here (.next (peekAs_eq c s _) ?_)
  cases s.next.bind unaryOp? with
  | some op => exact .skip (ih.unary.bind fun e t he => .pure (again_unary op he))
  | none =>
    refine .next (peekAs_eq c s _) ?_
    cases s.next.bind updateOp? with
    | some op =>
      refine .skip (ih.unary.bind fun e t he => update_leads op true _ fun htarget => ?_)
      exact again_updateBefore op he htarget
    | none => exact ih.postfixed

theorem postfixed_leads :
    Leads (postfixed (n + 1)) c s fun e t => Again c.bare e s.bare t.bare := by
  refine ih.access.bind fun e m he => .next (newlineBefore_eq c m) ?_
  split
  · exact .pure he
  · refine .next (peekAs_eq c m _) ?_
    cases m.next.bind updateOp? with
    | some op =>
      exact .here (.skip (update_leads op false _ fun htarget => again_updateBehind op he htarget))
    | none => exact .pure he

theorem access_leads : Leads (access (n + 1)) c s fun e t => Again c.bare e s.bare t.bare :=
  ih.primary.bind fun _ _ => ih.accessRest

theorem accessRest_leads {s' : State} {e : Expr} (he : Again c.bare e s' s.bare) :
    Leads (accessRest (n + 1) e) c s fun e t => Again c.bare e s' t.bare := by
  refine .here (.eatMark (.expectName fun x => ih.accessRest (again_member x he)) fun _ => ?_)
  refine .eatMark (ih.expression.bind fun i m hi => .expectMark ?_) fun _ => .eatMark ?_ fun _ => ?_
  · exact ih.accessRest (again_index he hi)
  · exact ih.arguments.bind fun args m hargs => ih.accessRest (again_call he hargs)
  · exact .pure he

theorem arguments_leads :
    Leads (arguments (n + 1)) c s fun es t => AgainAll c.bare es s.bare t.bare :=
  .eatMark (.pure rfl) fun _ => ih.argumentList.bind fun _ _ hes => .expectMark (.pure hes)

theorem argumentList_leads :
    Leads (argumentList (n + 1)) c s fun es t => AgainAll c.bare es s.bare t.bare := by
  refine ih.assignment.bind fun e m he => .eatMark ?_ fun _ => .pure ⟨m.bare, he, rfl⟩
  exact ih.argumentList.bind fun es t hes => .pure ⟨m.bare, he, hes⟩

theorem primary_leads : Leads (primary (n + 1)) c s fun e t => Again c.bare e s.bare t.bare := by
  refine .here (.next (peekAs_eq c s _) ?_)
  cases hlit : s.next.bind (literal? (s.here c)) with
  | some e =>
    obtain ⟨k, -, hk⟩ := Option.bind_eq_some_iff.mp hlit
    exact .skip (.pure (again_literal hk rfl))
  | none =>
    refine .next (peek_eq c s) ?_
    split
    · exact .skip (ih.expression.bind fun e t he => .expectMark (.pure he))
    · exact .skip (ih.elements.bind fun es t hes => .expectMark (.pure (again_array hes)))
    · exact .skip (ih.properties.bind fun es t hes => .expectMark (.pure (again_object hes)))
    · exact .skip ((ih.function _ _).bind fun f t hf => .pure (again_function hf))
    · exact .failHere _

theorem elements_leads :
    Leads (elements (n + 1)) c s fun es t => AgainAll c.bare es s.bare t.bare := by
  refine .next (atMark_eq c s _) ?_
  split
  · exact .pure rfl
  · refine ih.assignment.bind fun e m he => .eatMark ?_ fun _ => .pure ⟨m.bare, he, rfl⟩
    exact ih.elements.bind fun es t hes => .pure ⟨m.bare, he, hes⟩

theorem properties_leads :
    Leads (properties (n + 1)) c s fun entries t => AgainEntries c.bare entries s.bare t.bare := by
  refine .next (atMark_eq c s _) ?_
  split
  · exact .pure rfl
  · refine .next (peekAs_eq c s _) ?_
    cases s.next.bind propertyName? with
    | none => exact .failHere _
    | some key =>
      refine .skip (.expectMark (ih.assignment.bind fun e m he => .eatMark ?_ fun _ => ?_))
      · exact ih.properties.bind fun es t hes => .pure ⟨m.bare, he, hes⟩
      · exact .pure ⟨m.bare, he, rfl⟩

end Expressions

section Statements

variable {n : Nat} (ih : Canonical n) {place : Location}
include ih

theorem functionBody_leads {named : Bool} {name : Option String}
    (hname : named = true → name.isSome) (params : List String) :
    Leads (functionBody n place name params) c s fun f t =>
      AgainFunction c.bare named f s.bare t.bare := by
  refine .expectMark (.expectMark (.inFunction_bind (ih.block _) fun body t hbody => .pure ?_))
  exact again_functionDef (s := s.bare) (t := t.bare) hname params hbody

theorem functionRest_leads {named : Bool} {name : Option String}
    (hname : named = true → name.isSome) :
    Leads (functionRest n place name) c s fun f t =>
      AgainFunction c.bare named f s.bare t.bare := by
  refine .expectMark (.next (atMark_eq _ _ _) ?_)
  split
  · exact functionBody_leads ih hname []
  · refine (parameters_leads n).bind fun params m hm => ?_
    exact (hm : m.bare = s.bare) ▸ functionBody_leads ih hname params

theorem function_leads (named : Bool) (place : Location) :
    Leads (function (n + 1) named place) c s fun f t =>
      AgainFunction c.bare named f s.bare t.bare := by
  rw [function_succ]
  refine .next (peek_eq c s) ?_
  split
  · exact .skip (functionRest_leads ih fun _ => rfl)
  · split
    · exact .failHere_bind _
    case isFalse h => exact functionRest_leads ih fun h' => absurd h' h

theorem block_leads (what : String) :
    Leads (block (n + 1) what) c s fun body t => AgainBlock c.bare body s.bare t.bare := by
  refine (ih.blockRest what).bind fun body m hbody => .next (warnUnreachable_eq c m body) (.pure ?_)
  exact State.bare_warnUnreachable c m body ▸ again_block hbody

theorem blockRest_leads (what : String) :
    Leads (blockRest (n + 1) what) c s fun body t => AgainStmts c.bare body s.bare t.bare := by
  refine .eatMark (.pure rfl) fun _ => .next (atEnd_eq c s) ?_
  split
  · exact .failHere _
  · refine ih.statement.bind fun st m hst => (ih.blockRest what).bind fun body t hbody => .pure ?_
    exact ⟨m.bare, hst.again, hbody⟩

theorem declaratorsAfter_leads (kind : DeclKind) (name : String) (init : Option Expr) :
    Leads (declaratorsAfter n place kind name init) c s fun ds t =>
      ∃ others, ds = .mk name init place :: others ∧
        AgainDeclarators c.bare kind others s.bare t.bare :=
  .eatMark ((ih.declarators kind).bind fun _ _ h => .pure ⟨_, rfl, h.2⟩) fun _ => .pure ⟨_, rfl, rfl⟩

theorem declaratorsFrom_leads (kind : DeclKind) (name : String) (init : Option Expr) :
    Leads (declaratorsFrom n place kind name init) c s fun ds t =>
      ∃ others, ds = .mk name init place :: others ∧ AgainDeclarators c.bare kind others
        (if kind = .var then s.bare.declareVar c.bare name default else s.bare) t.bare := by
  unfold declaratorsFrom
  split
  · refine .next (declareVar_eq c s name place) ?_
    rw [State.bare_declareVar c s name place]
    exact declaratorsAfter_leads ih kind name init
  · exact declaratorsAfter_leads ih kind name init

theorem declarators_leads (kind : DeclKind) :
    Leads (declarators (n + 1) kind) c s fun ds t =>
      ds ≠ [] ∧ AgainDeclarators c.bare kind ds s.bare t.bare := by
  rw [declarators_succ]
  have hafter {s : State} {m : State} {name : String} {place : Location} {i : Option Expr}
      (hinit : AgainOption c.bare i s.bare m.bare) (hconst : kind = .const → i.isSome) :
      Leads (declaratorsFrom n place kind name i) c m fun ds t =>
        ds ≠ [] ∧ AgainDeclarators c.bare kind ds s.bare t.bare := by
    refine (declaratorsFrom_leads ih kind name i).imp (fun ds t h => ?_) fun _ _ _ => trivial
    obtain ⟨others, rfl, hothers⟩ := h
    exact ⟨List.cons_ne_nil _ _, m.bare, hinit, hconst, hothers⟩
  refine .here (.expectName fun name => .eatMark ?_ fun _ => ?_)
  · exact ih.assignment.bind fun e m he => hafter (s := s) (i := some e) he fun _ => rfl
  · change Leads (if kind = .const then _ else _) c s.skip _
    split
    · exact .failHere_bind _
    case isFalse h => exact hafter (s := s) (i := none) rfl fun h' => absurd h' h

theorem condition_leads :
    Leads (condition (n + 1)) c s fun e t =>
      ∃ m, Again c.bare e s.bare m ∧ t.bare = m.warnCondition c.bare e.unplaced := by
  refine .expectMark (ih.expression.bind fun e m he => ?_)
  refine .next (warnCondition_eq c m e) (.expectMark (.pure ⟨m.bare, he, ?_⟩))
  exact (State.bare_warnCondition c m e).symm

theorem ifStatement_leads (place : Location) :
    Leads (ifStatement (n + 1) place) c s (Reread c s.bare) := by
  refine ih.condition.bind fun e m ⟨m₀, he, hm⟩ => ih.statement.bind fun yes m' hyes => ?_
  have hagain : AgainStmt c.bare yes (m₀.warnCondition c.bare e.unplaced) m'.bare := hm ▸ hyes.again
  refine .eatKeyword (fun hnext => ih.statement.bind fun no t hno => .pure ?_) fun hnext => .pure ?_
  · have hopen : yes.endsOpen = false := Bool.eq_false_iff.mpr fun h =>
      absurd hnext (by simp [hyes.closed h])
    exact ⟨hno.closed, again_ifElse he hagain hopen hno.again⟩
  · exact ⟨fun _ => hnext, again_if he hagain⟩

theorem whileStatement_leads (place : Location) :
    Leads (whileStatement n place) c s (Reread c s.bare) := by
  refine ih.condition.bind fun e m ⟨m₀, he, hm⟩ => .inLoop_bind ih.statement fun st t hst => .pure ?_
  refine ⟨hst.closed, again_while (t := t.bare) he ?_⟩
  exact hm ▸ hst.again

theorem doStatement_leads (place : Location) :
    Leads (doStatement (n + 1) place) c s (Reread c s.bare) := by
  rw [doStatement_succ]
  refine .inLoop_bind ih.statement fun st m hst => .eatKeyword (fun _ => ?_) fun _ => ?_
  · refine ih.condition.bind fun e t ⟨m₀, he, ht⟩ => ?_
    have hread : AgainStmt c.bare (.doWhile st e place) s.bare t.bare :=
      ht ▸ again_doWhile hst.again he
    exact .eatMark (.pure ⟨Bool.noConfusion, hread⟩) fun _ => .pure ⟨Bool.noConfusion, hread⟩
  · exact .failHere_bind _

theorem forInit_leads :
    Leads (forInit (n + 1)) c s fun init t => AgainInit c.bare init s.bare t.bare := by
  refine .here (.next (peekAs_eq c s _) ?_)
  cases s.next.bind declKind? with
  | some kind =>
    exact .skip ((ih.declarators kind).bind fun ds t h => .pure (againInit_declare h.1 h.2))
  | none =>
    refine .next (atMark_eq c s _) ?_
    split
    · exact .pure againInit_none
    · exact ih.expression.bind fun e t he => .pure (againInit_expr he)

theorem optional_leads (stop : Mark) :
    Leads (optional (n + 1) stop) c s fun o t => AgainOption c.bare o s.bare t.bare := by
  refine .next (atMark_eq c s _) ?_
  split
  · exact .pure rfl
  · exact ih.expression.bind fun e t he => .pure he

theorem forStatement_leads (place : Location) :
    Leads (forStatement (n + 1) place) c s (Reread c s.bare) := by
  refine .expectMark (ih.forInit.bind fun init m hinit => .expectMark ?_)
  refine (ih.optional _).bind fun test m' htest => .expectMark ?_
  refine (ih.optional _).bind fun step m'' hstep => .expectMark ?_
  refine .inLoop_bind ih.statement fun st t hst => .pure ⟨hst.closed, ?_⟩
  exact again_for (t := t.bare) hinit htest hstep hst.again

theorem returnStatement_leads (place : Location) :
    Leads (returnStatement (n + 1) place) c s (Reread c s.bare) := by
  rw [returnStatement_succ]
  refine .next (get_eq c s) ?_
  split
  · exact .failAt_bind _ _
  case isFalse hdepth =>
    refine .next (newlineBefore_eq c s) (.next (atEnd_eq c s) (.next (atMark_eq c s _)
      (.next (atMark_eq c s _) ?_)))
    split
    · have hread : AgainStmt c.bare (.return_ none place) s.bare s.bare := again_return hdepth rfl
      exact .endStatement fun t ht => .pure ⟨Bool.noConfusion, ht ▸ hread⟩
    · refine ih.expression.bind fun e m he => .endStatement fun t ht => .pure ?_
      exact ⟨Bool.noConfusion, ht ▸ again_return (o := some e) hdepth he⟩

omit ih in
theorem loopJump_leads {fault : ParseFault} {st : Stmt}
    (hopen : st.endsOpen = false) (hst : s.loopDepth ≠ 0 → AgainStmt c.bare st s.bare s.bare) :
    Leads (loopJump fault place st) c s (Reread c s.bare) := by
  refine .next (get_eq c s) ?_
  split
  · exact .failAt_bind _ _
  case isFalse hdepth =>
    refine .endStatement fun t ht => .pure ⟨fun h => absurd h (by simp [hopen]), ?_⟩
    exact ht.symm ▸ hst hdepth

theorem throwStatement_leads (place : Location) :
    Leads (throwStatement n place) c s (Reread c s.bare) := by
  refine .next (newlineBefore_eq c s) ?_
  split
  · exact .failHere_bind _
  · refine ih.expression.bind fun e m he => .endStatement fun t ht => .pure ?_
    exact ⟨Bool.noConfusion, ht ▸ again_throw he⟩

theorem catchClause_leads :
    Leads (catchClause (n + 1)) c s fun handler t =>
      AgainHandler c.bare handler s.bare t.bare := by
  refine .eatKeyword (fun _ => .expectMark (.expectName fun param => ?_)) fun _ => .pure rfl
  exact .expectMark (.expectMark ((ih.block _).bind fun body t hbody => .pure hbody))

theorem finallyClause_leads :
    Leads (finallyClause (n + 1)) c s fun finalizer t =>
      AgainFinalizer c.bare finalizer s.bare t.bare := by
  refine .eatKeyword (fun _ => .expectMark ?_) fun _ => .pure rfl
  exact (ih.block _).bind fun body t hbody => .pure hbody

theorem tryStatement_leads (place : Location) :
    Leads (tryStatement (n + 1) place) c s (Reread c s.bare) := by
  rw [tryStatement_succ]
  refine .expectMark ((ih.block _).bind fun body m hbody => ?_)
  refine ih.catchClause.bind fun handler m' hhandler => ?_
  refine ih.finallyClause.bind fun finalizer t hfinalizer => ?_
  split
  · exact .failHere_bind _
  case isFalse hany =>
    refine .pure ⟨Bool.noConfusion, again_try hbody hhandler hfinalizer ?_⟩
    exact Bool.eq_false_iff.mpr hany

theorem statementAt_leads (place : Location) (k : TokenKind) :
    Leads (statementAt n place k) c s (Reread c s.bare) := by
  unfold statementAt
  split
  case h_1 =>
    exact .skip ((ih.function _ _).bind fun f t hf => .pure ⟨Bool.noConfusion, again_functionStmt hf⟩)
  case h_2 => exact .skip (ih.ifStatement place)
  case h_3 => exact .skip (whileStatement_leads ih place)
  case h_4 => exact .skip (ih.doStatement place)
  case h_5 => exact .skip (ih.forStatement place)
  case h_6 => exact .skip (ih.returnStatement place)
  case h_7 =>
    refine .skip (loopJump_leads rfl fun hdepth => ?_)
    exact again_jump (fun _ _ => rfl) rfl rfl rfl hdepth
  case h_8 =>
    refine .skip (loopJump_leads rfl fun hdepth => ?_)
    exact again_jump (fun _ _ => rfl) rfl rfl rfl hdepth
  case h_9 => exact .skip (throwStatement_leads ih place)
  case h_10 => exact .skip (ih.tryStatement place)
  case h_11 =>
    exact .skip ((ih.block _).bind fun body t hbody => .pure
      ⟨Bool.noConfusion, again_blockStmt hbody⟩)
  case h_12 => exact .skip (.pure ⟨Bool.noConfusion, again_empty⟩)
  case h_13 =>
    refine ih.expression.bind fun e m he => .endStatement fun t ht => .pure ?_
    exact ⟨Bool.noConfusion, ht ▸ again_exprStmt he⟩

theorem statement_leads : Leads (statement (n + 1)) c s (Reread c s.bare) := by
  rw [statement_succ]
  refine .here (.next (peekAs_eq c s _) ?_)
  cases s.next.bind declKind? with
  | some kind =>
    refine .skip ((ih.declarators kind).bind fun ds m h => .endStatement fun t ht => .pure ?_)
    exact ⟨Bool.noConfusion, ht ▸ again_declare h.1 h.2⟩
  | none =>
    refine .next (peek_eq c s) ?_
    cases s.next with
    | some k => exact statementAt_leads ih _ k
    | none =>
      refine ih.expression.bind fun e m he => .endStatement fun t ht => .pure ?_
      exact ⟨Bool.noConfusion, ht ▸ again_exprStmt he⟩

end Statements

theorem canonical_zero : Canonical 0 := by
  constructor <;> intros <;> exact .exhausted

/-- Whatever the parser reads, it reads again from the canonical tokens of it. -/
theorem canonical (n : Nat) : Canonical n := by
  -- On the depth; at zero every routine is exhausted and has read nothing.
  induction n with
  | zero => exact canonical_zero
  | succ n ih =>
    exact {
      expression := expression_leads ih
      sequenceRest := sequenceRest_leads ih
      assignment := assignment_leads ih
      conditional := conditional_leads ih
      disjunction := disjunction_leads ih
      disjunctionRest := disjunctionRest_leads ih
      conjunction := conjunction_leads ih
      conjunctionRest := conjunctionRest_leads ih
      binary := binary_leads ih
      binaryRest := binaryRest_leads ih
      unary := unary_leads ih
      postfixed := postfixed_leads ih
      access := access_leads ih
      accessRest := accessRest_leads ih
      arguments := arguments_leads ih
      argumentList := argumentList_leads ih
      primary := primary_leads ih
      elements := elements_leads ih
      properties := properties_leads ih
      function := function_leads ih
      block := block_leads ih
      blockRest := blockRest_leads ih
      declarators := declarators_leads ih
      condition := condition_leads ih
      statement := statement_leads ih
      ifStatement := ifStatement_leads ih
      doStatement := doStatement_leads ih
      forInit := forInit_leads ih
      optional := optional_leads ih
      forStatement := forStatement_leads ih
      returnStatement := returnStatement_leads ih
      tryStatement := tryStatement_leads ih
      catchClause := catchClause_leads ih
      finallyClause := finallyClause_leads ih }

theorem statements_leads (n : Nat) {c : Context} {s : State} :
    Leads (statements n) c s fun body t => t.rest = [] ∧ AgainStmts c.bare body s.bare t.bare := by
  induction n generalizing s with
  | zero => exact .exhausted
  | succ n ih =>
    refine .next (atEnd_eq c s) ?_
    split
    case isTrue hend => exact .pure ⟨List.isEmpty_iff.mp hend, rfl⟩
    case isFalse =>
      refine (canonical n).statement.bind fun st m hst => ih.bind fun body t hbody => .pure ?_
      exact ⟨hbody.1, m.bare, hst.again, hbody.2⟩

end ScriptShell.Parser
