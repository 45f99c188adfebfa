import ScriptShell.Proofs.Parser.Run
import ScriptShell.Proofs.Program.Place

namespace ScriptShell.Parser

variable {ok : Location → Prop} {U : ∀ {α : Type}, (α → Prop) → Parser α → Prop} {α β : Type}

/-- The rules of a property that the parser has step by step. Steps that name a place are given
one that is `ok`. -/
structure Uniform (ok : Location → Prop) (U : ∀ {α : Type}, (α → Prop) → Parser α → Prop) :
    Prop where
  pure : ∀ {α : Type} {P : α → Prop} {a : α}, P a → U P (pure a)
  bind : ∀ {α β : Type} {P : α → Prop} {Q : β → Prop} {x : Parser α} {f : α → Parser β},
    U P x → (∀ a, P a → U Q (f a)) → U Q (x >>= f)
  peek : U any peek
  here : U ok here
  newlineBefore : U any newlineBefore
  atEnd : U any atEnd
  skip : U any skip
  failAt : ∀ {α : Type} {P : α → Prop} fault {place}, ok place →
    U P (failAt fault place : Parser α)
  failHere : ∀ {α : Type} {P : α → Prop} fault, U P (failHere fault : Parser α)
  warn : ∀ remark {place}, ok place → U any (warn remark place)
  declareVar : ∀ name {place}, ok place → U any (declareVar name place)
  /-- How deep in loops and functions a state is may be looked at. -/
  depths : ∀ {α : Type} {P : α → Prop} (f : Nat → Nat → Parser α),
    (∀ loops functions, U P (f loops functions)) →
      U P (do
        let s ← get
        f s.loopDepth s.functionDepth)
  inLoop : ∀ {α : Type} {P : α → Prop} {x : Parser α}, U P x → U P (inLoop x)
  inFunction : ∀ {α : Type} {P : α → Prop} {x : Parser α}, U P x →
    U (fun r => P r.1) (inFunction x)

def SitedExpr (ok : Location → Prop) (e : Expr) : Prop :=
  (Part.expr e).Sited ok

def SitedStmt (ok : Location → Prop) (s : Stmt) : Prop :=
  (Part.stmt s).Sited ok

def SitedDeclarator (ok : Location → Prop) (d : Declarator) : Prop :=
  ok d.place ∧ ∀ q ∈ Part.ofDeclarator d, q.Sited ok

/-- The property holds of each function of the parser with a bound of `n`. All places in what is
read are `ok`. -/
structure Covers (ok : Location → Prop) (U : ∀ {α : Type}, (α → Prop) → Parser α → Prop)
    (n : Nat) : Prop where
  expression : U (SitedExpr ok) (expression n)
  sequenceRest : U (fun es => ∀ e ∈ es, SitedExpr ok e) (sequenceRest n)
  assignment : U (SitedExpr ok) (assignment n)
  conditional : U (SitedExpr ok) (conditional n)
  disjunction : U (SitedExpr ok) (disjunction n)
  disjunctionRest : ∀ left, SitedExpr ok left → U (SitedExpr ok) (disjunctionRest n left)
  conjunction : U (SitedExpr ok) (conjunction n)
  conjunctionRest : ∀ left, SitedExpr ok left → U (SitedExpr ok) (conjunctionRest n left)
  binary : ∀ least, U (SitedExpr ok) (binary n least)
  binaryRest : ∀ least left, SitedExpr ok left → U (SitedExpr ok) (binaryRest n least left)
  unary : U (SitedExpr ok) (unary n)
  postfixed : U (SitedExpr ok) (postfixed n)
  access : U (SitedExpr ok) (access n)
  accessRest : ∀ e, SitedExpr ok e → U (SitedExpr ok) (accessRest n e)
  arguments : U (fun es => ∀ e ∈ es, SitedExpr ok e) (arguments n)
  argumentList : U (fun es => ∀ e ∈ es, SitedExpr ok e) (argumentList n)
  primary : U (SitedExpr ok) (primary n)
  elements : U (fun es => ∀ e ∈ es, SitedExpr ok e) (elements n)
  properties : U (fun es => ∀ entry ∈ es, SitedExpr ok entry.2) (properties n)
  function : ∀ named place, ok place →
    U (fun f => (Part.function f).Sited ok) (function n named place)
  block : ∀ what, U (fun ss => ∀ s ∈ ss, SitedStmt ok s) (block n what)
  blockRest : ∀ what, U (fun ss => ∀ s ∈ ss, SitedStmt ok s) (blockRest n what)
  declarators : ∀ kind, U (fun ds => ∀ d ∈ ds, SitedDeclarator ok d) (declarators n kind)
  condition : U (SitedExpr ok) (condition n)
  statement : U (SitedStmt ok) (statement n)
  ifStatement : ∀ place, ok place → U (SitedStmt ok) (ifStatement n place)
  doStatement : ∀ place, ok place → U (SitedStmt ok) (doStatement n place)
  forInit : U (fun init => ∀ s ∈ init, SitedStmt ok s) (forInit n)
  optional : ∀ stop, U (fun e? => ∀ e ∈ e?, SitedExpr ok e) (optional n stop)
  forStatement : ∀ place, ok place → U (SitedStmt ok) (forStatement n place)
  returnStatement : ∀ place, ok place → U (SitedStmt ok) (returnStatement n place)
  tryStatement : ∀ place, ok place → U (SitedStmt ok) (tryStatement n place)
  catchClause : U (fun handler => ∀ q ∈ handler.toList.flatMap Part.ofHandler, q.Sited ok)
    (catchClause n)
  finallyClause : U (fun finalizer => ∀ q ∈ finalizer.toList.flatMap Part.ofBody, q.Sited ok)
    (finallyClause n)

theorem unreachable?_place {body : List Stmt} (hbody : ∀ s ∈ body, SitedStmt ok s)
    (returned : Bool) : ∀ place ∈ unreachable? returned body, ok place := by
  induction body generalizing returned with
  | nil => nofun
  | cons s body ih =>
    have hrest := ih fun s hs => hbody s (List.mem_cons_of_mem _ hs)
    have hfirst : ∀ place ∈ some s.place, ok place := by
      rintro place ⟨⟩
      exact (hbody s List.mem_cons_self).stmt_place
    cases s <;> cases returned <;> first | exact hrest _ | exact hfirst

theorem literal?_sited {place : Location} (hplace : ok place) {k : TokenKind} {e : Expr}
    (h : literal? place k = some e) : SitedExpr ok e := by
  unfold literal? at h
  split at h <;> cases h <;> exact .expr hplace nofun

theorem sited_declare {kind : DeclKind} {ds : List Declarator} {place : Location}
    (hds : ∀ d ∈ ds, SitedDeclarator ok d) (hplace : ok place) :
    SitedStmt ok (.declare kind ds place) := by
  refine .stmt hplace (List.forall_mem_map.mpr fun d hd => (hds d hd).1) fun q hq => ?_
  obtain ⟨d, hd, hq⟩ := List.mem_flatMap.mp hq
  exact (hds d hd).2 q hq

theorem sited_stmt {s : Stmt} (hs : s.declared = []) (hplace : ok s.place)
    (h : ∀ q ∈ Part.ofStmt s, q.Sited ok) : SitedStmt ok s :=
  .stmt hplace (by simp [hs]) h

theorem sited_option {e? : Option Expr} (h : ∀ e ∈ e?, SitedExpr ok e) :
    ∀ q ∈ e?.toList.map Part.expr, q.Sited ok :=
  Part.Sited.exprs fun e he => h e (Option.mem_toList.mp he)

namespace Uniform

variable {P : α → Prop}

theorem ite (_ : Uniform ok U) {p : Prop} [Decidable p] {x y : Parser α} (hx : U P x)
    (hy : U P y) : U P (if p then x else y) := by
  split <;> assumption

variable (h : Uniform ok U)
include h

theorem result (a : α) : U any (Pure.pure a : Parser α) :=
  h.pure trivial

section Tokens

theorem peekAs (reading : TokenKind → Option α) : U any (peekAs reading) :=
  h.bind h.peek fun _ _ => h.result _

theorem atMark (m : Mark) : U any (atMark m) := by
  refine h.bind h.peek fun k _ => ?_
  split <;> exact h.result _

theorem eatMark (m : Mark) : U any (eatMark m) :=
  h.bind (h.atMark m) fun _ _ => h.ite (h.bind h.skip fun _ _ => h.result _) (h.result _)

theorem eatKeyword (k : Keyword) : U any (eatKeyword k) := by
  refine h.bind h.peek fun next _ => ?_
  split
  · exact h.ite (h.bind h.skip fun _ _ => h.result _) (h.result _)
  · exact h.result _

theorem expectMark (m : Mark) (what : String) : U any (expectMark m what) :=
  h.bind (h.eatMark m) fun _ _ => h.ite (h.failHere _) (h.result _)

theorem expectName (what : String) : U any (expectName what) := by
  refine h.bind h.peek fun k _ => ?_
  split
  · exact h.bind h.skip fun _ _ => h.result _
  · exact h.failHere _

theorem endStatement : U any endStatement := by
  refine h.bind (h.eatMark _) fun _ _ => h.ite (h.result _) ?_
  refine h.bind h.newlineBefore fun _ _ => h.bind h.atEnd fun _ _ => ?_
  exact h.bind (h.atMark _) fun _ _ => h.ite (h.result _) (h.failHere _)

theorem exhausted : U P exhausted :=
  h.bind h.here fun _ hplace => h.failAt _ hplace

end Tokens

theorem warnUnreachable {body : List Stmt} (hbody : ∀ s ∈ body, SitedStmt ok s) :
    U any (warnUnreachable body) := by
  have hplace := unreachable?_place hbody false
  unfold Parser.warnUnreachable
  split
  next place heq => exact h.warn _ (hplace place heq)
  next => exact h.result _

theorem warnCondition {e : Expr} (he : SitedExpr ok e) : U any (warnCondition e) := by
  unfold Parser.warnCondition
  split
  · exact h.warn _ he.place
  · exact h.result _

theorem update (op : UpdateOp) (before : Bool) {e : Expr} {place : Location}
    (he : SitedExpr ok e) (hplace : ok place) : U (SitedExpr ok) (update op before e place) :=
  h.ite (h.pure (.expr hplace (List.forall_mem_singleton.mpr he.target))) (h.failAt _ he.place)

theorem parameters (n : Nat) : U any (parameters n) := by
  induction n with
  | zero => exact h.exhausted
  | succ n ih =>
    refine h.bind (h.expectName _) fun _ _ => h.bind (h.eatMark _) fun _ _ => h.ite ?_ (h.result _)
    exact h.bind ih fun _ _ => h.result _

theorem returnNothing {place : Location} (hplace : ok place) :
    U (SitedStmt ok) (returnNothing place) :=
  h.bind h.endStatement fun _ _ => h.pure (sited_stmt rfl hplace nofun)

theorem loopJump (fault : ParseFault) {place : Location} (hplace : ok place) {s : Stmt}
    (hs : SitedStmt ok s) :
    U (SitedStmt ok) (loopJump fault place s) := by
  have hrest : U (SitedStmt ok) (do
      Parser.endStatement
      return s) :=
    h.bind h.endStatement fun _ _ => h.pure hs
  refine h.depths (fun loops _ => if loops = 0 then _ else _) fun _ _ => h.ite ?_ hrest
  exact h.bind (P := any) (h.failAt _ hplace) fun _ _ => hrest

variable {n : Nat} (ih : Covers ok U n)
include ih

section Expressions

theorem expression : U (SitedExpr ok) (expression (n + 1)) := by
  refine h.bind ih.assignment fun first hfirst => h.bind (h.atMark _) fun _ _ => h.ite ?_ ?_
  · refine h.bind ih.sequenceRest fun others hothers => h.pure (.expr hfirst.place ?_)
    exact .exprs (List.forall_mem_cons.mpr ⟨hfirst, hothers⟩)
  · exact h.pure hfirst

theorem sequenceRest : U (fun es => ∀ e ∈ es, SitedExpr ok e) (sequenceRest (n + 1)) := by
  refine h.bind (h.eatMark _) fun _ _ => h.ite ?_ (h.pure nofun)
  refine h.bind ih.assignment fun e he => h.bind ih.sequenceRest fun es hes => ?_
  exact h.pure (List.forall_mem_cons.mpr ⟨he, hes⟩)

theorem assignment : U (SitedExpr ok) (assignment (n + 1)) := by
  refine h.bind ih.conditional fun target htarget => h.bind (h.peekAs _) fun op _ => ?_
  cases op with
  | none => exact h.pure htarget
  | some op =>
    refine h.bind h.here fun place hplace => h.ite ?_ (h.failAt _ htarget.place)
    refine h.bind h.skip fun _ _ => h.bind ih.assignment fun value hvalue => ?_
    refine h.pure (.expr hplace ?_)
    simpa [Part.ofExpr] using ⟨htarget.target, hvalue⟩

theorem conditional : U (SitedExpr ok) (conditional (n + 1)) := by
  refine h.bind ih.disjunction fun condition hcondition =>
    h.bind (h.eatMark _) fun _ _ => h.ite ?_ (h.pure hcondition)
  refine h.bind ih.assignment fun yes hyes => h.bind (h.expectMark _ _) fun _ _ => ?_
  refine h.bind ih.assignment fun no hno => h.pure (.expr hcondition.place ?_)
  simpa [Part.ofExpr] using ⟨hcondition, hyes, hno⟩

theorem disjunction : U (SitedExpr ok) (disjunction (n + 1)) :=
  h.bind ih.conjunction fun left hleft => ih.disjunctionRest left hleft

theorem disjunctionRest (left : Expr) (hleft : SitedExpr ok left) :
    U (SitedExpr ok) (disjunctionRest (n + 1) left) := by
  refine h.bind h.here fun _ hplace => h.bind (h.eatMark _) fun _ _ => h.ite ?_ (h.pure hleft)
  refine h.bind ih.conjunction fun right hright => ih.disjunctionRest _ (.expr hplace ?_)
  simpa [Part.ofExpr] using ⟨hleft, hright⟩

theorem conjunction : U (SitedExpr ok) (conjunction (n + 1)) :=
  h.bind (ih.binary _) fun left hleft => ih.conjunctionRest left hleft

theorem conjunctionRest (left : Expr) (hleft : SitedExpr ok left) :
    U (SitedExpr ok) (conjunctionRest (n + 1) left) := by
  refine h.bind h.here fun _ hplace => h.bind (h.eatMark _) fun _ _ => h.ite ?_ (h.pure hleft)
  refine h.bind (ih.binary _) fun right hright => ih.conjunctionRest _ (.expr hplace ?_)
  simpa [Part.ofExpr] using ⟨hleft, hright⟩

theorem binary (least : Nat) : U (SitedExpr ok) (binary (n + 1) least) :=
  h.bind ih.unary fun left hleft => ih.binaryRest least left hleft

theorem binaryRest (least : Nat) (left : Expr) (hleft : SitedExpr ok left) :
    U (SitedExpr ok) (binaryRest (n + 1) least left) := by
  refine h.bind (h.peekAs _) fun op _ => ?_
  cases op with
  | none => exact h.pure hleft
  | some op =>
    refine h.ite (h.pure hleft) (h.bind h.here fun _ hplace => h.bind h.skip fun _ _ => ?_)
    refine h.bind (ih.binary _) fun right hright => ih.binaryRest _ _ (.expr hplace ?_)
    simpa [Part.ofExpr] using ⟨hleft, hright⟩

theorem unary : U (SitedExpr ok) (unary (n + 1)) := by
  refine h.bind h.here fun place hplace => h.bind (h.peekAs _) fun op _ => ?_
  cases op with
  | some op =>
    refine h.bind h.skip fun _ _ => h.bind ih.unary fun operand hoperand => ?_
    exact h.pure (.expr hplace (List.forall_mem_singleton.mpr hoperand))
  | none =>
    refine h.bind (h.peekAs _) fun op _ => ?_
    cases op with
    | some op =>
      exact h.bind h.skip fun _ _ => h.bind ih.unary fun _ htarget => h.update _ _ htarget hplace
    | none => exact ih.postfixed

theorem postfixed : U (SitedExpr ok) (postfixed (n + 1)) := by
  refine h.bind ih.access fun e he => h.bind h.newlineBefore fun _ _ => h.ite (h.pure he) ?_
  refine h.bind (h.peekAs _) fun op _ => ?_
  cases op with
  | some op =>
    exact h.bind h.here fun _ hplace => h.bind h.skip fun _ _ => h.update _ _ he hplace
  | none => exact h.pure he

theorem access : U (SitedExpr ok) (access (n + 1)) :=
  h.bind ih.primary fun e he => ih.accessRest e he

theorem accessRest (e : Expr) (he : SitedExpr ok e) :
    U (SitedExpr ok) (accessRest (n + 1) e) := by
  refine h.bind h.here fun _ hplace => h.bind (h.eatMark _) fun _ _ => h.ite ?_ ?_
  · refine h.bind (h.expectName _) fun _ _ => ih.accessRest _ (.expr hplace ?_)
    exact List.forall_mem_singleton.mpr he
  refine h.bind (h.eatMark _) fun _ _ => h.ite ?_ ?_
  · refine h.bind ih.expression fun index hindex => h.bind (h.expectMark _ _) fun _ _ => ?_
    refine ih.accessRest _ (.expr hplace ?_)
    simpa [Part.ofExpr] using ⟨he, hindex⟩
  refine h.bind (h.eatMark _) fun _ _ => h.ite ?_ (h.pure he)
  refine h.bind ih.arguments fun args hargs => ih.accessRest _ (.expr hplace ?_)
  exact List.forall_mem_cons.mpr ⟨he, .exprs hargs⟩

theorem arguments : U (fun es => ∀ e ∈ es, SitedExpr ok e) (arguments (n + 1)) := by
  refine h.bind (h.eatMark _) fun _ _ => h.ite (h.pure nofun) ?_
  refine h.bind ih.argumentList fun args hargs => h.bind (h.expectMark _ _) fun _ _ => ?_
  exact h.pure hargs

theorem argumentList : U (fun es => ∀ e ∈ es, SitedExpr ok e) (argumentList (n + 1)) := by
  refine h.bind ih.assignment fun e he => h.bind (h.eatMark _) fun _ _ => h.ite ?_ ?_
  · refine h.bind ih.argumentList fun es hes => ?_
    exact h.pure (List.forall_mem_cons.mpr ⟨he, hes⟩)
  · exact h.pure (List.forall_mem_singleton.mpr he)

theorem primary : U (SitedExpr ok) (primary (n + 1)) := by
  refine h.bind h.here fun place hplace => ?_
  -- The reading of a single token keeps its place, which the rule for `peekAs` would forget.
  have hliteral : U (fun e? => ∀ e ∈ e?, SitedExpr ok e) (Parser.peekAs (literal? place)) := by
    refine h.bind h.peek fun k _ => h.pure fun e he => ?_
    obtain ⟨k, -, hk⟩ := Option.bind_eq_some_iff.mp he
    exact literal?_sited hplace hk
  refine h.bind hliteral fun e? he? => ?_
  cases e? with
  | some e => exact h.bind h.skip fun _ _ => h.pure (he? e rfl)
  | none =>
    refine h.bind h.peek fun k _ => ?_
    split
    · refine h.bind h.skip fun _ _ => h.bind ih.expression fun _ he => ?_
      exact h.bind (h.expectMark _ _) fun _ _ => h.pure he
    · refine h.bind h.skip fun _ _ => h.bind ih.elements fun es hes => ?_
      exact h.bind (h.expectMark _ _) fun _ _ => h.pure (.expr hplace (.exprs hes))
    · refine h.bind h.skip fun _ _ => h.bind ih.properties fun entries hentries => ?_
      refine h.bind (h.expectMark _ _) fun _ _ => h.pure (.expr hplace ?_)
      exact List.forall_mem_map.mpr hentries
    · refine h.bind h.skip fun _ _ => h.bind (ih.function _ _ hplace) fun f hf => ?_
      exact h.pure (.expr hplace (List.forall_mem_singleton.mpr hf))
    · exact h.failHere _

theorem elements : U (fun es => ∀ e ∈ es, SitedExpr ok e) (elements (n + 1)) := by
  refine h.bind (h.atMark _) fun _ _ => h.ite (h.pure nofun) ?_
  refine h.bind ih.assignment fun e he => h.bind (h.eatMark _) fun _ _ => h.ite ?_ ?_
  · refine h.bind ih.elements fun es hes => ?_
    exact h.pure (List.forall_mem_cons.mpr ⟨he, hes⟩)
  · exact h.pure (List.forall_mem_singleton.mpr he)

theorem properties : U (fun es => ∀ entry ∈ es, SitedExpr ok entry.2) (properties (n + 1)) := by
  refine h.bind (h.atMark _) fun _ _ => h.ite (h.pure nofun) ?_
  refine h.bind (h.peekAs _) fun key _ => ?_
  cases key with
  | none => exact h.failHere _
  | some key =>
    refine h.bind h.skip fun _ _ => h.bind (h.expectMark _ _) fun _ _ => ?_
    refine h.bind ih.assignment fun e he => h.bind (h.eatMark _) fun _ _ => h.ite ?_ ?_
    · refine h.bind ih.properties fun es hes => ?_
      exact h.pure (List.forall_mem_cons.mpr ⟨he, hes⟩)
    · exact h.pure (List.forall_mem_singleton.mpr he)

end Expressions

section Functions

variable {place : Location} (hplace : ok place)
include hplace

theorem functionBody (name : Option String) (params : List String) :
    U (fun f => (Part.function f).Sited ok) (functionBody n place name params) := by
  refine h.bind (h.expectMark _ _) fun _ _ => h.bind (h.expectMark _ _) fun _ _ => ?_
  refine h.bind (h.inFunction (ih.block _)) fun r hr => h.pure ?_
  exact .of_parts (List.forall_mem_singleton.mpr hplace) (.body hr)

theorem functionRest (name : Option String) :
    U (fun f => (Part.function f).Sited ok) (functionRest n place name) := by
  refine h.bind (h.expectMark _ _) fun _ _ => h.bind (h.atMark _) fun _ _ => h.ite ?_ ?_
  · exact h.functionBody ih hplace _ _
  · exact h.bind (h.parameters n) fun _ _ => h.functionBody ih hplace _ _

theorem function (named : Bool) :
    U (fun f => (Part.function f).Sited ok) (function (n + 1) named place) := by
  rw [function_succ]
  refine h.bind h.peek fun k _ => ?_
  split
  · exact h.bind h.skip fun _ _ => h.functionRest ih hplace _
  · refine h.ite (h.bind (P := any) (h.failHere _) fun _ _ => ?_) ?_ <;>
      exact h.functionRest ih hplace _

end Functions

section Statements

theorem block (what : String) : U (fun ss => ∀ s ∈ ss, SitedStmt ok s) (block (n + 1) what) :=
  h.bind (ih.blockRest _) fun _ hbody => h.bind (h.warnUnreachable hbody) fun _ _ => h.pure hbody

theorem blockRest (what : String) :
    U (fun ss => ∀ s ∈ ss, SitedStmt ok s) (blockRest (n + 1) what) := by
  refine h.bind (h.eatMark _) fun _ _ => h.ite (h.pure nofun) (h.bind h.atEnd fun _ _ => ?_)
  refine h.ite (h.failHere _) (h.bind ih.statement fun s hs => ?_)
  exact h.bind (ih.blockRest _) fun _ hss => h.pure (List.forall_mem_cons.mpr ⟨hs, hss⟩)

section Declarators

variable (kind : DeclKind) {place : Location} (name : String) {init : Option Expr}
  (hplace : ok place) (hinit : ∀ e ∈ init, SitedExpr ok e)
include hplace hinit

theorem declaratorsAfter :
    U (fun ds => ∀ d ∈ ds, SitedDeclarator ok d) (declaratorsAfter n place kind name init) := by
  have hd : SitedDeclarator ok (.mk name init place) := ⟨hplace, sited_option hinit⟩
  refine h.bind (h.eatMark _) fun _ _ => h.ite ?_ (h.pure (List.forall_mem_singleton.mpr hd))
  exact h.bind (ih.declarators _) fun _ hds => h.pure (List.forall_mem_cons.mpr ⟨hd, hds⟩)

theorem declaratorsFrom :
    U (fun ds => ∀ d ∈ ds, SitedDeclarator ok d) (declaratorsFrom n place kind name init) := by
  have hafter := h.declaratorsAfter ih kind name hplace hinit
  exact h.ite (h.bind (h.declareVar _ hplace) fun _ _ => hafter) hafter

end Declarators

theorem declarators (kind : DeclKind) :
    U (fun ds => ∀ d ∈ ds, SitedDeclarator ok d) (declarators (n + 1) kind) := by
  rw [declarators_succ]
  refine h.bind h.here fun _ hplace => h.bind (h.expectName _) fun _ _ => ?_
  refine h.bind (h.eatMark _) fun _ _ => h.ite ?_ (h.ite ?_ ?_)
  · refine h.bind ih.assignment fun e he => h.declaratorsFrom ih kind _ hplace ?_
    rintro _ ⟨⟩
    exact he
  · refine h.bind (P := fun init => ∀ e ∈ init, SitedExpr ok e) (h.failHere _) fun _ hinit => ?_
    exact h.declaratorsFrom ih kind _ hplace hinit
  · exact h.declaratorsFrom ih kind _ hplace nofun

theorem condition : U (SitedExpr ok) (condition (n + 1)) := by
  refine h.bind (h.expectMark _ _) fun _ _ => h.bind ih.expression fun _ he => ?_
  refine h.bind (h.warnCondition he) fun _ _ => h.bind (h.expectMark _ _) fun _ _ => ?_
  exact h.pure he

variable {place : Location}

theorem ifStatement (hplace : ok place) :
    U (SitedStmt ok) (ifStatement (n + 1) place) := by
  refine h.bind ih.condition fun c hc => h.bind ih.statement fun yes hyes => ?_
  refine h.bind (h.eatKeyword _) fun _ _ => h.ite ?_ (h.pure (sited_stmt rfl hplace ?_))
  · refine h.bind ih.statement fun no hno => h.pure (sited_stmt rfl hplace ?_)
    simpa [Part.ofStmt] using ⟨hc, hyes, hno⟩
  · simpa [Part.ofStmt] using ⟨hc, hyes⟩

theorem whileStatement (hplace : ok place) :
    U (SitedStmt ok) (whileStatement n place) := by
  refine h.bind ih.condition fun c hc => h.bind (h.inLoop ih.statement) fun body hbody => ?_
  refine h.pure (sited_stmt rfl hplace ?_)
  simpa [Part.ofStmt] using ⟨hc, hbody⟩

theorem doRest (hplace : ok place) {body : Stmt} (hbody : SitedStmt ok body) :
    U (SitedStmt ok) (doRest n place body) := by
  have hrest : U (SitedStmt ok) (do
      let e ← Parser.condition n
      let _ ← Parser.eatMark .semicolon
      return Stmt.doWhile body e place) := by
    refine h.bind ih.condition fun e he => h.bind (h.eatMark _) fun _ _ => ?_
    refine h.pure (sited_stmt rfl hplace ?_)
    simpa [Part.ofStmt] using ⟨he, hbody⟩
  refine h.bind (h.eatKeyword _) fun _ _ => h.ite ?_ hrest
  exact h.bind (P := any) (h.failHere _) fun _ _ => hrest

theorem doStatement (hplace : ok place) :
    U (SitedStmt ok) (doStatement (n + 1) place) := by
  rw [doStatement_succ]
  exact h.bind (h.inLoop ih.statement) fun _ hbody => h.doRest ih hplace hbody

theorem forInit : U (fun init => ∀ s ∈ init, SitedStmt ok s) (forInit (n + 1)) := by
  refine h.bind h.here fun _ hplace => h.bind (h.peekAs _) fun kind _ => ?_
  cases kind with
  | some kind =>
    refine h.bind h.skip fun _ _ => h.bind (ih.declarators _) fun _ hds => h.pure ?_
    rintro _ ⟨⟩
    exact sited_declare hds hplace
  | none =>
    refine h.bind (h.atMark _) fun _ _ => h.ite (h.pure nofun) ?_
    refine h.bind ih.expression fun _ he => h.pure ?_
    rintro _ ⟨⟩
    exact sited_stmt rfl hplace (List.forall_mem_singleton.mpr he)

theorem optional (stop : Mark) :
    U (fun e? => ∀ e ∈ e?, SitedExpr ok e) (optional (n + 1) stop) := by
  refine h.bind (h.atMark _) fun _ _ => h.ite (h.pure nofun) ?_
  refine h.bind ih.expression fun _ he => h.pure ?_
  rintro _ ⟨⟩
  exact he

theorem forStatement (hplace : ok place) :
    U (SitedStmt ok) (forStatement (n + 1) place) := by
  refine h.bind (h.expectMark _ _) fun _ _ => h.bind ih.forInit fun init hinit => ?_
  refine h.bind (h.expectMark _ _) fun _ _ => h.bind (ih.optional _) fun test htest => ?_
  refine h.bind (h.expectMark _ _) fun _ _ => h.bind (ih.optional _) fun step hstep => ?_
  refine h.bind (h.expectMark _ _) fun _ _ => ?_
  refine h.bind (h.inLoop ih.statement) fun body hbody => h.pure (sited_stmt rfl hplace ?_)
  refine List.forall_mem_cons.mpr ⟨hbody, List.forall_mem_append.mpr ⟨?_, ?_⟩⟩
  · exact List.forall_mem_map.mpr fun s hs => hinit s (Option.mem_toList.mp hs)
  · rw [List.map_append]
    exact List.forall_mem_append.mpr ⟨sited_option htest, sited_option hstep⟩

theorem returnValue (hplace : ok place) : U (SitedStmt ok) (returnValue n place) := by
  refine h.bind ih.expression fun _ he => h.bind h.endStatement fun _ _ => ?_
  exact h.pure (sited_stmt rfl hplace (List.forall_mem_singleton.mpr he))

theorem returnStatement (hplace : ok place) :
    U (SitedStmt ok) (returnStatement (n + 1) place) := by
  rw [returnStatement_succ]
  have hrest : U (SitedStmt ok) (do
      if (← Parser.newlineBefore) || (← Parser.atEnd) || (← Parser.atMark .semicolon) ||
          (← Parser.atMark .rightBrace) then
        Parser.returnNothing place
      else Parser.returnValue n place) := by
    refine h.bind h.newlineBefore fun _ _ => h.bind h.atEnd fun _ _ => ?_
    refine h.bind (h.atMark _) fun _ _ => h.bind (h.atMark _) fun _ _ => h.ite ?_ ?_
    · exact h.returnNothing hplace
    · exact h.returnValue ih hplace
  refine h.depths (fun _ functions => if functions = 0 then _ else _) fun _ _ => h.ite ?_ hrest
  exact h.bind (P := any) (h.failAt _ hplace) fun _ _ => hrest

theorem throwStatement (hplace : ok place) :
    U (SitedStmt ok) (throwStatement n place) := by
  have hrest : U (SitedStmt ok) (do
      let e ← Parser.expression n
      Parser.endStatement
      return Stmt.throw e place) := by
    refine h.bind ih.expression fun _ he => h.bind h.endStatement fun _ _ => ?_
    exact h.pure (sited_stmt rfl hplace (List.forall_mem_singleton.mpr he))
  refine h.bind h.newlineBefore fun _ _ => h.ite ?_ hrest
  exact h.bind (P := any) (h.failHere _) fun _ _ => hrest

theorem tryRest (hplace : ok place) {body : List Stmt} (hbody : ∀ s ∈ body, SitedStmt ok s) :
    U (SitedStmt ok) (tryRest n place body) := by
  refine h.bind ih.catchClause fun handler hhandler =>
    h.bind ih.finallyClause fun finalizer hfinalizer => ?_
  have hrest : U (SitedStmt ok)
      (Pure.pure (Stmt.try_ body handler finalizer place) : Parser Stmt) := by
    refine h.pure (sited_stmt rfl hplace (List.forall_mem_append.mpr ⟨?_, hfinalizer⟩))
    exact List.forall_mem_append.mpr ⟨.body hbody, hhandler⟩
  exact h.ite (h.bind (P := any) (h.failHere _) fun _ _ => hrest) hrest

theorem tryStatement (hplace : ok place) :
    U (SitedStmt ok) (tryStatement (n + 1) place) := by
  rw [tryStatement_succ]
  refine h.bind (h.expectMark _ _) fun _ _ => h.bind (ih.block _) fun _ hbody => ?_
  exact h.tryRest ih hplace hbody

theorem catchClause :
    U (fun handler => ∀ q ∈ handler.toList.flatMap Part.ofHandler, q.Sited ok)
      (catchClause (n + 1)) := by
  refine h.bind (h.eatKeyword _) fun _ _ => h.ite ?_ (h.pure nofun)
  refine h.bind (h.expectMark _ _) fun _ _ => h.bind (h.expectName _) fun _ _ => ?_
  refine h.bind (h.expectMark _ _) fun _ _ => h.bind (h.expectMark _ _) fun _ _ => ?_
  refine h.bind (ih.block _) fun _ hbody => h.pure ?_
  simpa [Part.ofHandler] using Part.Sited.body hbody

theorem finallyClause :
    U (fun finalizer => ∀ q ∈ finalizer.toList.flatMap Part.ofBody, q.Sited ok)
      (finallyClause (n + 1)) := by
  refine h.bind (h.eatKeyword _) fun _ _ => h.ite ?_ (h.pure nofun)
  refine h.bind (h.expectMark _ _) fun _ _ => h.bind (ih.block _) fun _ hbody => h.pure ?_
  simpa using Part.Sited.body hbody

theorem expressionStatement (hplace : ok place) :
    U (SitedStmt ok) (do
      let e ← Parser.expression n
      Parser.endStatement
      return Stmt.expr e place) := by
  refine h.bind ih.expression fun _ he => h.bind h.endStatement fun _ _ => ?_
  exact h.pure (sited_stmt rfl hplace (List.forall_mem_singleton.mpr he))

theorem statementAt (hplace : ok place) (k : TokenKind) :
    U (SitedStmt ok) (statementAt n place k) := by
  have behind {x : Parser Stmt} (hx : U (SitedStmt ok) x) :
      U (SitedStmt ok) (do Parser.skip; x) := h.bind h.skip fun _ _ => hx
  have hempty {s : Stmt} (hs : s.declared = []) (hparts : Part.ofStmt s = [])
      (hplace : ok s.place) : SitedStmt ok s := sited_stmt hs hplace (by simp [hparts])
  unfold Parser.statementAt
  split
  case h_1 =>
    refine behind (h.bind (ih.function _ _ hplace) fun _ hf => h.pure ?_)
    exact sited_stmt rfl hplace (List.forall_mem_singleton.mpr hf)
  case h_2 => exact behind (ih.ifStatement _ hplace)
  case h_3 => exact behind (h.whileStatement ih hplace)
  case h_4 => exact behind (ih.doStatement _ hplace)
  case h_5 => exact behind (ih.forStatement _ hplace)
  case h_6 => exact behind (ih.returnStatement _ hplace)
  case h_7 => exact behind (h.loopJump _ hplace (hempty rfl rfl hplace))
  case h_8 => exact behind (h.loopJump _ hplace (hempty rfl rfl hplace))
  case h_9 => exact behind (h.throwStatement ih hplace)
  case h_10 => exact behind (ih.tryStatement _ hplace)
  case h_11 =>
    exact behind (h.bind (ih.block _) fun _ hbody => h.pure (sited_stmt rfl hplace (.body hbody)))
  case h_12 => exact behind (h.pure (hempty rfl rfl hplace))
  case h_13 => exact h.expressionStatement ih hplace

theorem statement : U (SitedStmt ok) (statement (n + 1)) := by
  rw [statement_succ]
  refine h.bind h.here fun place hplace => h.bind (h.peekAs _) fun kind _ => ?_
  cases kind with
  | some kind =>
    refine h.bind h.skip fun _ _ => h.bind (ih.declarators _) fun _ hds => ?_
    exact h.bind h.endStatement fun _ _ => h.pure (sited_declare hds hplace)
  | none =>
    refine h.bind h.peek fun k _ => ?_
    cases k with
    | some k => exact h.statementAt ih hplace k
    | none => exact h.expressionStatement ih hplace

end Statements

omit ih

/-- What the parser does step by step it does in all of its functions. -/
theorem covers (n : Nat) : Covers ok U n := by
  -- On the depth, for all routines at once: each needs the others one level below.
  induction n with
  | zero => constructor <;> intros <;> exact h.exhausted
  | succ n ih =>
    exact {
      expression := h.expression ih
      sequenceRest := h.sequenceRest ih
      assignment := h.assignment ih
      conditional := h.conditional ih
      disjunction := h.disjunction ih
      disjunctionRest := h.disjunctionRest ih
      conjunction := h.conjunction ih
      conjunctionRest := h.conjunctionRest ih
      binary := h.binary ih
      binaryRest := h.binaryRest ih
      unary := h.unary ih
      postfixed := h.postfixed ih
      access := h.access ih
      accessRest := h.accessRest ih
      arguments := h.arguments ih
      argumentList := h.argumentList ih
      primary := h.primary ih
      elements := h.elements ih
      properties := h.properties ih
      function named _ hplace := h.function ih hplace named
      block := h.block ih
      blockRest := h.blockRest ih
      declarators := h.declarators ih
      condition := h.condition ih
      statement := h.statement ih
      ifStatement _ := h.ifStatement ih
      doStatement _ := h.doStatement ih
      forInit := h.forInit ih
      optional := h.optional ih
      forStatement _ := h.forStatement ih
      returnStatement _ := h.returnStatement ih
      tryStatement _ := h.tryStatement ih
      catchClause := h.catchClause ih
      finallyClause := h.finallyClause ih }

theorem statements (n : Nat) : U (fun ss => ∀ s ∈ ss, SitedStmt ok s) (statements n) := by
  induction n with
  | zero => exact h.exhausted
  | succ n ih =>
    refine h.bind h.atEnd fun _ _ => h.ite (h.pure nofun) ?_
    refine h.bind (h.covers n).statement fun _ hs => h.bind ih fun _ hss => ?_
    exact h.pure (List.forall_mem_cons.mpr ⟨hs, hss⟩)

end Uniform

end ScriptShell.Parser
