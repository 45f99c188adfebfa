import ScriptShell.Proofs.Program.Parsing

namespace ScriptShell

namespace Parser

def Sound (e : Expr) : Prop :=
  (Part.expr e).WellFormed

def FunctionPlaced (named : Bool) (d : FunctionDef) : Prop :=
  (Part.function d).WellFormed ∧ (named = true → d.name.isSome = true)

/-- With a bound on the depth of calls, each function of the parser gives well-formed parts. -/
structure Reads (n : Nat) : Prop where
  expression : ∀ {l f}, Gives l f Sound (Parser.expression n)
  sequenceRest : ∀ {l f}, Gives l f (fun es => ∀ e ∈ es, Sound e) (Parser.sequenceRest n)
  assignment : ∀ {l f}, Gives l f Sound (Parser.assignment n)
  conditional : ∀ {l f}, Gives l f Sound (Parser.conditional n)
  disjunction : ∀ {l f}, Gives l f Sound (Parser.disjunction n)
  disjunctionRest : ∀ {l f} left, Sound left → Gives l f Sound (Parser.disjunctionRest n left)
  conjunction : ∀ {l f}, Gives l f Sound (Parser.conjunction n)
  conjunctionRest : ∀ {l f} left, Sound left → Gives l f Sound (Parser.conjunctionRest n left)
  binary : ∀ {l f} least, Gives l f Sound (Parser.binary n least)
  binaryRest : ∀ {l f} least left, Sound left →
    Gives l f Sound (Parser.binaryRest n least left)
  unary : ∀ {l f}, Gives l f Sound (Parser.unary n)
  postfixed : ∀ {l f}, Gives l f Sound (Parser.postfixed n)
  access : ∀ {l f}, Gives l f Sound (Parser.access n)
  accessRest : ∀ {l f} e, Sound e → Gives l f Sound (Parser.accessRest n e)
  arguments : ∀ {l f}, Gives l f (fun es => ∀ e ∈ es, Sound e) (Parser.arguments n)
  argumentList : ∀ {l f}, Gives l f (fun es => ∀ e ∈ es, Sound e) (Parser.argumentList n)
  primary : ∀ {l f}, Gives l f Sound (Parser.primary n)
  elements : ∀ {l f}, Gives l f (fun es => ∀ e ∈ es, Sound e) (Parser.elements n)
  properties : ∀ {l f}, Gives l f (fun es => ∀ entry ∈ es, Sound entry.2) (Parser.properties n)
  function : ∀ {l f} named place,
    Gives l f (FunctionPlaced named) (Parser.function n named place)
  block : ∀ {l f} what, Gives l f (fun body => ∀ s ∈ body, s.Placed l f) (Parser.block n what)
  blockRest : ∀ {l f} what,
    Gives l f (fun body => ∀ s ∈ body, s.Placed l f) (Parser.blockRest n what)
  declarators : ∀ {l f} kind,
    Gives l f (fun ds => ∀ q ∈ ds.flatMap Part.ofDeclarator, q.WellFormed)
      (Parser.declarators n kind)
  condition : ∀ {l f}, Gives l f Sound (Parser.condition n)
  statement : ∀ {l f}, Gives l f (Stmt.Placed l f) (Parser.statement n)
  ifStatement : ∀ {l f} place, Gives l f (Stmt.Placed l f) (Parser.ifStatement n place)
  doStatement : ∀ {l f} place, Gives l f (Stmt.Placed l f) (Parser.doStatement n place)
  forInit : ∀ {l f}, Gives l f
    (fun init => ∀ s ∈ init, s.Placed l f ∧ s.declaresFunction = false) (Parser.forInit n)
  optional : ∀ {l f} stop, Gives l f (fun o => ∀ e ∈ o, Sound e) (Parser.optional n stop)
  forStatement : ∀ {l f} place, Gives l f (Stmt.Placed l f) (Parser.forStatement n place)
  returnStatement : ∀ {l f} place, Gives l f (Stmt.Placed l f) (Parser.returnStatement n place)
  tryStatement : ∀ {l f} place, Gives l f (Stmt.Placed l f) (Parser.tryStatement n place)
  catchClause : ∀ {l f},
    Gives l f (fun o => ∀ c ∈ o, ∀ param body, c = .mk param body → ∀ s ∈ body, s.Placed l f)
      (Parser.catchClause n)
  finallyClause : ∀ {l f},
    Gives l f (fun o => ∀ body ∈ o, ∀ s ∈ body, s.Placed l f) (Parser.finallyClause n)

theorem sound_of_parts {e : Expr} (h : ∀ q ∈ Part.ofExpr e, q.WellFormed) : Sound e :=
  Part.wellFormed_of_parts trivial h

theorem sound_exprs {es : List Expr} (h : ∀ e ∈ es, Sound e) :
    ∀ q ∈ es.map Part.expr, q.WellFormed := by
  intro q hq
  obtain ⟨e, he, rfl⟩ := List.mem_map.mp hq
  exact h e he

theorem wellFormed_target {e : Expr} (he : Sound e) (htarget : e.isTarget = true) :
    (Part.target e).WellFormed := by
  refine Part.wellFormed_of_parts htarget fun q hq => ?_
  have below : q ∈ Part.ofExpr e := by
    cases e with
    | member | index => exact hq
    | _ => cases hq
  exact Part.hereditary_wellFormed (.expr e) q below he

theorem sound_literal (place : Location) {k : TokenKind} {e : Expr}
    (h : literal? place k = some e) : Sound e := by
  refine sound_of_parts fun q hq => ?_
  unfold literal? at h
  split at h <;> cases h <;> cases hq

theorem update_sound {l f : Nat} (op : UpdateOp) (before : Bool) (e : Expr) (place : Location)
    (he : Sound e) : Gives l f Sound (update op before e place) := by
  unfold update
  split
  case isTrue his =>
    refine Gives.pure (sound_of_parts ?_)
    simpa [Part.ofExpr] using wellFormed_target he his
  · exact Gives.failAt _ _

section Expressions

variable {n l f : Nat} (ih : Reads n)
include ih

theorem expression_sound : Gives l f Sound (expression (n + 1)) := by
  refine ih.assignment.bind fun first hfirst => (Gives.atMark _).bind fun b _ => ?_
  split
  · refine ih.sequenceRest.bind fun others hothers => Gives.pure (sound_of_parts ?_)
    exact sound_exprs (List.forall_mem_cons.mpr ⟨hfirst, hothers⟩)
  · exact Gives.pure hfirst

theorem sequenceRest_sound :
    Gives l f (fun es => ∀ e ∈ es, Sound e) (sequenceRest (n + 1)) := by
  refine (Gives.eatMark _).bind fun b _ => ?_
  split
  · refine ih.assignment.bind fun e he => ih.sequenceRest.bind fun es hes => ?_
    exact Gives.pure (List.forall_mem_cons.mpr ⟨he, hes⟩)
  · exact Gives.pure fun e he => nomatch he

theorem assignment_sound : Gives l f Sound (assignment (n + 1)) := by
  refine ih.conditional.bind fun target htarget => (Gives.peekAs _).bind fun op _ => ?_
  split
  · exact Gives.pure htarget
  · refine Gives.here.bind fun place _ => ?_
    split
    case isTrue his =>
      refine Gives.skip.bind fun _ _ => ih.assignment.bind fun value hvalue => ?_
      refine Gives.pure (sound_of_parts ?_)
      simpa [Part.ofExpr] using ⟨wellFormed_target htarget his, hvalue⟩
    · exact Gives.failAt _ _

theorem conditional_sound : Gives l f Sound (conditional (n + 1)) := by
  refine ih.disjunction.bind fun c hc => (Gives.eatMark _).bind fun b _ => ?_
  split
  · refine ih.assignment.bind fun yes hyes => (Gives.expectMark _ _).bind fun _ _ => ?_
    refine ih.assignment.bind fun no hno => Gives.pure (sound_of_parts ?_)
    simpa [Part.ofExpr] using ⟨hc, hyes, hno⟩
  · exact Gives.pure hc

theorem disjunction_sound : Gives l f Sound (disjunction (n + 1)) :=
  ih.conjunction.bind fun left hleft => ih.disjunctionRest left hleft

theorem disjunctionRest_sound (left : Expr) (hleft : Sound left) :
    Gives l f Sound (disjunctionRest (n + 1) left) := by
  refine Gives.here.bind fun place _ => (Gives.eatMark _).bind fun b _ => ?_
  split
  · refine ih.conjunction.bind fun right hright => ih.disjunctionRest _ (sound_of_parts ?_)
    simpa [Part.ofExpr] using ⟨hleft, hright⟩
  · exact Gives.pure hleft

theorem conjunction_sound : Gives l f Sound (conjunction (n + 1)) :=
  (ih.binary 1).bind fun left hleft => ih.conjunctionRest left hleft

theorem conjunctionRest_sound (left : Expr) (hleft : Sound left) :
    Gives l f Sound (conjunctionRest (n + 1) left) := by
  refine Gives.here.bind fun place _ => (Gives.eatMark _).bind fun b _ => ?_
  split
  · refine (ih.binary 1).bind fun right hright => ih.conjunctionRest _ (sound_of_parts ?_)
    simpa [Part.ofExpr] using ⟨hleft, hright⟩
  · exact Gives.pure hleft

theorem binary_sound (least : Nat) : Gives l f Sound (binary (n + 1) least) :=
  ih.unary.bind fun left hleft => ih.binaryRest least left hleft

theorem binaryRest_sound (least : Nat) (left : Expr) (hleft : Sound left) :
    Gives l f Sound (binaryRest (n + 1) least left) := by
  refine (Gives.peekAs _).bind fun op _ => ?_
  split
  · exact Gives.pure hleft
  · split
    · exact Gives.pure hleft
    · refine Gives.here.bind fun place _ => Gives.skip.bind fun _ _ => ?_
      refine (ih.binary _).bind fun right hright => ih.binaryRest _ _ (sound_of_parts ?_)
      simpa [Part.ofExpr] using ⟨hleft, hright⟩

theorem unary_sound : Gives l f Sound (unary (n + 1)) := by
  refine Gives.here.bind fun place _ => (Gives.peekAs _).bind fun op _ => ?_
  split
  · refine Gives.skip.bind fun _ _ => ih.unary.bind fun e he => Gives.pure (sound_of_parts ?_)
    exact List.forall_mem_singleton.mpr he
  · refine (Gives.peekAs _).bind fun op _ => ?_
    split
    · exact Gives.skip.bind fun _ _ => ih.unary.bind fun e he => update_sound _ _ _ _ he
    · exact ih.postfixed

theorem postfixed_sound : Gives l f Sound (postfixed (n + 1)) := by
  refine ih.access.bind fun e he => Gives.newlineBefore.bind fun b _ => ?_
  split
  · exact Gives.pure he
  · refine (Gives.peekAs _).bind fun op _ => ?_
    split
    · exact Gives.here.bind fun place _ => Gives.skip.bind fun _ _ => update_sound _ _ _ _ he
    · exact Gives.pure he

theorem access_sound : Gives l f Sound (access (n + 1)) :=
  ih.primary.bind fun e he => ih.accessRest e he

theorem accessRest_sound (e : Expr) (he : Sound e) :
    Gives l f Sound (accessRest (n + 1) e) := by
  refine Gives.here.bind fun place _ => (Gives.eatMark _).bind fun b _ => ?_
  split
  · refine (Gives.expectName _).bind fun property _ => ih.accessRest _ (sound_of_parts ?_)
    exact List.forall_mem_singleton.mpr he
  · refine (Gives.eatMark _).bind fun b _ => ?_
    split
    · refine ih.expression.bind fun i hi => (Gives.expectMark _ _).bind fun _ _ => ?_
      refine ih.accessRest _ (sound_of_parts ?_)
      simpa [Part.ofExpr] using ⟨he, hi⟩
    · refine (Gives.eatMark _).bind fun b _ => ?_
      split
      · refine ih.arguments.bind fun args hargs => ih.accessRest _ (sound_of_parts ?_)
        exact List.forall_mem_cons.mpr ⟨he, sound_exprs hargs⟩
      · exact Gives.pure he

theorem arguments_sound : Gives l f (fun es => ∀ e ∈ es, Sound e) (arguments (n + 1)) := by
  refine (Gives.eatMark _).bind fun b _ => ?_
  split
  · exact Gives.pure fun e he => nomatch he
  · refine ih.argumentList.bind fun args hargs => (Gives.expectMark _ _).bind fun _ _ => ?_
    exact Gives.pure hargs

theorem argumentList_sound : Gives l f (fun es => ∀ e ∈ es, Sound e) (argumentList (n + 1)) := by
  refine ih.assignment.bind fun e he => (Gives.eatMark _).bind fun b _ => ?_
  split
  · refine ih.argumentList.bind fun es hes => ?_
    exact Gives.pure (List.forall_mem_cons.mpr ⟨he, hes⟩)
  · exact Gives.pure (List.forall_mem_singleton.mpr he)

theorem elements_sound : Gives l f (fun es => ∀ e ∈ es, Sound e) (elements (n + 1)) := by
  refine (Gives.atMark _).bind fun b _ => ?_
  split
  · exact Gives.pure fun e he => nomatch he
  · refine ih.assignment.bind fun e he => (Gives.eatMark _).bind fun b _ => ?_
    split
    · refine ih.elements.bind fun es hes => ?_
      exact Gives.pure (List.forall_mem_cons.mpr ⟨he, hes⟩)
    · exact Gives.pure (List.forall_mem_singleton.mpr he)

theorem properties_sound :
    Gives l f (fun es => ∀ entry ∈ es, Sound entry.2) (properties (n + 1)) := by
  refine (Gives.atMark _).bind fun b _ => ?_
  split
  · exact Gives.pure fun e he => nomatch he
  · refine (Gives.peekAs _).bind fun key _ => ?_
    split
    · exact Gives.failHere _
    · refine Gives.skip.bind fun _ _ => (Gives.expectMark _ _).bind fun _ _ => ?_
      refine ih.assignment.bind fun e he => (Gives.eatMark _).bind fun b _ => ?_
      split
      · refine ih.properties.bind fun es hes => ?_
        exact Gives.pure (List.forall_mem_cons.mpr ⟨he, hes⟩)
      · exact Gives.pure (List.forall_mem_singleton.mpr he)

theorem primary_sound : Gives l f Sound (primary (n + 1)) := by
  refine Gives.here.bind fun place _ => (Gives.peekAs _).bind fun literal hliteral => ?_
  split
  case h_1 e =>
    obtain ⟨k, hk⟩ := hliteral e rfl
    exact Gives.skip.bind fun _ _ => Gives.pure (sound_literal place hk)
  · refine Gives.peek.bind fun next _ => ?_
    split
    · refine Gives.skip.bind fun _ _ => ih.expression.bind fun e he => ?_
      exact (Gives.expectMark _ _).bind fun _ _ => Gives.pure he
    · refine Gives.skip.bind fun _ _ => ih.elements.bind fun es hes => ?_
      exact (Gives.expectMark _ _).bind fun _ _ => Gives.pure (sound_of_parts (sound_exprs hes))
    · refine Gives.skip.bind fun _ _ => ih.properties.bind fun es hes => ?_
      refine (Gives.expectMark _ _).bind fun _ _ => Gives.pure (sound_of_parts fun q hq => ?_)
      obtain ⟨entry, hentry, rfl⟩ := List.mem_map.mp hq
      exact hes entry hentry
    · refine Gives.skip.bind fun _ _ => (ih.function _ _).bind fun d hd => ?_
      exact Gives.pure (sound_of_parts (List.forall_mem_singleton.mpr hd.1))
    · exact Gives.failHere _

end Expressions

theorem parameters_read {l f : Nat} (n : Nat) : Gives l f any (parameters n) := by
  induction n with
  | zero => exact Gives.exhausted
  | succ n ih =>
    refine (Gives.expectName _).bind fun name _ => (Gives.eatMark _).bind fun b _ => ?_
    split
    · exact ih.bind fun _ _ => Gives.pure trivial
    · exact Gives.pure trivial

theorem wellFormed_function {f : Nat} {name : Option String} {params varNames : List String}
    {body : List Stmt} {place : Location} (h : ∀ s ∈ body, s.Placed 0 f) :
    (Part.function (.mk name params body varNames place)).WellFormed := by
  refine Part.wellFormed_of_parts (fun j hj => ?_) (wellFormed_ofBody h)
  have free : j.isFree 0 f = true := emitsAny_free h j hj
  cases j with
  | return_ => rfl
  | break_ | continue_ => cases free

theorem free_of_loop {l f : Nat} {body : Stmt} (hbody : body.Placed (l + 1) f) (j : Jump)
    (hj : (decide (j = .return_) && body.emits j) = true) : j.isFree l f = true := by
  obtain ⟨hreturn, hemits⟩ := Bool.and_eq_true_iff.mp hj
  obtain rfl := of_decide_eq_true hreturn
  exact hbody.free .return_ hemits

theorem loopJump_sound {l f : Nat} (fault : ParseFault) (place : Location) {s : Stmt}
    (hs : l ≠ 0 → s.Placed l f) :
    Gives l f (Stmt.Placed l f) (do
      if (← get).loopDepth = 0 then failAt fault place
      endStatement
      return s) := by
  refine Gives.get.bind fun state hstate => Gives.ite (fun _ => ?_) fun hne => ?_
  · exact Gives.failAt_bind _ _
  · rw [hstate.1] at hne
    exact Gives.endStatement.bind fun _ _ => Gives.pure (hs hne)

theorem placed_break {l f : Nat} (place : Location) (h : l ≠ 0) :
    (Stmt.break_ place).Placed l f := by
  refine placed_of_parts trivial (fun q hq => nomatch hq) fun j hj => ?_
  obtain rfl := of_decide_eq_true hj
  exact decide_eq_true h

theorem placed_continue {l f : Nat} (place : Location) (h : l ≠ 0) :
    (Stmt.continue_ place).Placed l f := by
  refine placed_of_parts trivial (fun q hq => nomatch hq) fun j hj => ?_
  obtain rfl := of_decide_eq_true hj
  exact decide_eq_true h

theorem placed_return {l f : Nat} {e : Option Expr} (place : Location)
    (he : ∀ e' ∈ e, Sound e') (h : f ≠ 0) : (Stmt.return_ e place).Placed l f := by
  refine placed_of_parts trivial (sound_exprs fun e' he' => he e' (Option.mem_toList.mp he'))
    fun j hj => ?_
  obtain rfl := of_decide_eq_true hj
  exact decide_eq_true h

theorem placed_try {l f : Nat} {body : List Stmt} {handler : Option CatchClause}
    {finalizer : Option (List Stmt)} (place : Location) (hbody : ∀ s ∈ body, s.Placed l f)
    (hhandler : ∀ c ∈ handler, ∀ param body, c = .mk param body → ∀ s ∈ body, s.Placed l f)
    (hfinalizer : ∀ body ∈ finalizer, ∀ s ∈ body, s.Placed l f) :
    (Stmt.try_ body handler finalizer place).Placed l f := by
  refine placed_of_parts trivial (fun q hq => ?_) fun j hj => ?_
  · rcases List.mem_append.mp hq with hq | hq
    · rcases List.mem_append.mp hq with hq | hq
      · exact wellFormed_ofBody hbody q hq
      · obtain ⟨⟨param, caught⟩, hc, hq⟩ := List.mem_flatMap.mp hq
        have placed := hhandler _ (Option.mem_toList.mp hc) param caught rfl
        exact wellFormed_ofBody placed q hq
    · obtain ⟨last, hlast, hq⟩ := List.mem_flatMap.mp hq
      exact wellFormed_ofBody (hfinalizer last (Option.mem_toList.mp hlast)) q hq
  · rcases Bool.or_eq_true_iff.mp hj with hj | hj
    · rcases Bool.or_eq_true_iff.mp hj with hj | hj
      · exact emitsAny_free hbody j hj
      · obtain _ | ⟨param, caught⟩ := handler
        · cases hj
        · exact emitsAny_free (hhandler _ rfl param caught rfl) j hj
    · obtain _ | last := finalizer
      · cases hj
      · exact emitsAny_free (hfinalizer last rfl) j hj

section Statements

variable {n l f : Nat} (ih : Reads n)
include ih

theorem function_sound (named : Bool) (place : Location) :
    Gives l f (FunctionPlaced named) (function (n + 1) named place) := by
  have made : ∀ name params, (named = true → name.isSome = true) →
      Gives l f (FunctionPlaced named) (do
        expectMark .rightParen ") after formal parameters"
        expectMark .leftBrace "\x7b before function body"
        let r ← inFunction (block n "\x7d after function body")
        return .mk name params r.1 r.2 place) := by
    intro name params hname
    refine (Gives.expectMark _ _).bind fun _ _ => (Gives.expectMark _ _).bind fun _ _ => ?_
    refine (Gives.inFunction (ih.block _)).bind fun r hr => Gives.pure ⟨?_, hname⟩
    exact wellFormed_function hr
  have signed : ∀ name, (named = true → name.isSome = true) →
      Gives l f (FunctionPlaced named) (do
        expectMark .leftParen "( before formal parameters"
        let params ← if ← atMark .rightParen then pure [] else parameters n
        expectMark .rightParen ") after formal parameters"
        expectMark .leftBrace "\x7b before function body"
        let r ← inFunction (block n "\x7d after function body")
        return .mk name params r.1 r.2 place) := by
    intro name hname
    refine (Gives.expectMark _ _).bind fun _ _ => (Gives.atMark _).bind fun b _ => ?_
    refine Gives.ite (fun _ => made name [] hname) fun _ => ?_
    exact (parameters_read n).bind fun params _ => made name params hname
  refine Gives.peek.bind fun next _ => ?_
  split
  · exact Gives.skip.bind fun _ _ => signed _ fun _ => rfl
  · exact Gives.ite (fun _ => Gives.failHere_bind _) fun hnamed =>
      signed none fun h => (hnamed h).elim

theorem block_sound (what : String) :
    Gives l f (fun body => ∀ s ∈ body, s.Placed l f) (block (n + 1) what) :=
  (ih.blockRest what).bind fun body hbody =>
    (Gives.warnUnreachable body).bind fun _ _ => Gives.pure hbody

theorem blockRest_sound (what : String) :
    Gives l f (fun body => ∀ s ∈ body, s.Placed l f) (blockRest (n + 1) what) := by
  refine (Gives.eatMark _).bind fun b _ => ?_
  split
  · exact Gives.pure fun s hs => nomatch hs
  · refine Gives.atEnd.bind fun b _ => ?_
    split
    · exact Gives.failHere _
    · refine ih.statement.bind fun s hs => (ih.blockRest what).bind fun ss hss => ?_
      exact Gives.pure (List.forall_mem_cons.mpr ⟨hs, hss⟩)

theorem condition_sound : Gives l f Sound (condition (n + 1)) :=
  (Gives.expectMark _ _).bind fun _ _ => ih.expression.bind fun e he =>
    (Gives.warnCondition e).bind fun _ _ => (Gives.expectMark _ _).bind fun _ _ => Gives.pure he

theorem optional_sound (stop : Mark) :
    Gives l f (fun o => ∀ e ∈ o, Sound e) (optional (n + 1) stop) := by
  refine (Gives.atMark _).bind fun b _ => ?_
  split
  · exact Gives.pure fun e he => nomatch he
  · refine ih.expression.bind fun e he => Gives.pure fun e' he' => ?_
    cases he'
    exact he

theorem declarators_sound (kind : DeclKind) :
    Gives l f (fun ds => ∀ q ∈ ds.flatMap Part.ofDeclarator, q.WellFormed)
      (declarators (n + 1) kind) := by
  refine Gives.here.bind fun place _ => (Gives.expectName _).bind fun name _ => ?_
  have others : ∀ init : Option Expr, (∀ e ∈ init, Sound e) →
      Gives l f (fun ds => ∀ q ∈ ds.flatMap Part.ofDeclarator, q.WellFormed) (do
        if ← eatMark .comma then
          let ds ← declarators n kind
          return .mk name init place :: ds
        else return [.mk name init place]) := by
    intro init hinit
    have first : ∀ q ∈ Part.ofDeclarator (.mk name init place), q.WellFormed := by
      intro q hq
      obtain ⟨e, he, rfl⟩ := List.mem_map.mp hq
      exact hinit e (Option.mem_toList.mp he)
    refine (Gives.eatMark _).bind fun b _ => Gives.ite (fun _ => ?_) fun _ => ?_
    · refine (ih.declarators kind).bind fun ds hds => Gives.pure ?_
      exact List.forall_mem_append.mpr ⟨first, hds⟩
    · exact Gives.pure (List.forall_mem_append.mpr ⟨first, fun q hq => nomatch hq⟩)
  have declared : ∀ init : Option Expr, (∀ e ∈ init, Sound e) →
      Gives l f (fun ds => ∀ q ∈ ds.flatMap Part.ofDeclarator, q.WellFormed) (do
        if kind = .var then declareVar name place
        if ← eatMark .comma then
          let ds ← declarators n kind
          return .mk name init place :: ds
        else return [.mk name init place]) := by
    intro init hinit
    refine Gives.ite (fun _ => ?_) fun _ => others init hinit
    exact (Gives.declareVar _ _).bind fun _ _ => others init hinit
  refine (Gives.eatMark _).bind fun b _ => Gives.ite (fun _ => ?_) fun _ => Gives.ite ?_ ?_
  · refine Gives.bind (ih.assignment.map fun e he => ?_) declared
    intro e' he'
    cases he'
    exact he
  · exact fun _ => Gives.failHere_bind _
  · exact fun _ => declared none fun e he => nomatch he

theorem ifStatement_sound (place : Location) :
    Gives l f (Stmt.Placed l f) (ifStatement (n + 1) place) := by
  refine ih.condition.bind fun c hc => ih.statement.bind fun yes hyes => ?_
  refine (Gives.eatKeyword _).bind fun b _ => Gives.ite (fun _ => ?_) fun _ => ?_
  · refine ih.statement.bind fun no hno => Gives.pure (placed_of_parts trivial ?_ fun j hj => ?_)
    · simpa [Part.ofStmt] using ⟨hc, hyes.wellFormed, hno.wellFormed⟩
    · rcases Bool.or_eq_true_iff.mp hj with hj | hj
      · exact hyes.free j hj
      · exact hno.free j hj
  · refine Gives.pure (placed_of_parts trivial ?_ fun j hj => ?_)
    · simpa [Part.ofStmt] using ⟨hc, hyes.wellFormed⟩
    · exact hyes.free j (by simpa [Stmt.emits, emitsElse] using hj)

theorem whileStatement_sound (place : Location) :
    Gives l f (Stmt.Placed l f) (do
      let e ← condition n
      let body ← inLoop (statement n)
      return .while e body place) := by
  refine ih.condition.bind fun c hc => (Gives.inLoop ih.statement).bind fun body hbody => ?_
  refine Gives.pure (placed_of_parts trivial ?_ (free_of_loop hbody))
  simpa [Part.ofStmt] using ⟨hc, hbody.wellFormed⟩

theorem doStatement_sound (place : Location) :
    Gives l f (Stmt.Placed l f) (doStatement (n + 1) place) := by
  have tested : ∀ body : Stmt, body.Placed (l + 1) f → Gives l f (Stmt.Placed l f) (do
      let e ← condition n
      let _ ← eatMark .semicolon
      return .doWhile body e place) := by
    intro body hbody
    refine ih.condition.bind fun c hc => (Gives.eatMark _).bind fun _ _ => ?_
    refine Gives.pure (placed_of_parts trivial ?_ (free_of_loop hbody))
    simpa [Part.ofStmt] using ⟨hc, hbody.wellFormed⟩
  refine (Gives.inLoop ih.statement).bind fun body hbody => (Gives.eatKeyword _).bind fun b _ => ?_
  exact Gives.ite (fun _ => Gives.failHere_bind _) fun _ => tested body hbody

theorem forInit_sound :
    Gives l f (fun init => ∀ s ∈ init, s.Placed l f ∧ s.declaresFunction = false)
      (forInit (n + 1)) := by
  refine Gives.here.bind fun place _ => (Gives.peekAs _).bind fun kind _ => ?_
  split
  · refine Gives.skip.bind fun _ _ => (ih.declarators _).bind fun ds hds => Gives.pure ?_
    rintro s ⟨⟩
    exact ⟨placed_of_parts trivial hds (fun j hj => nomatch hj), rfl⟩
  · refine (Gives.atMark _).bind fun b _ => Gives.ite (fun _ => ?_) fun _ => ?_
    · exact Gives.pure fun s hs => nomatch hs
    · refine ih.expression.bind fun e he => Gives.pure ?_
      rintro s ⟨⟩
      refine ⟨placed_of_parts trivial ?_ (fun j hj => nomatch hj), rfl⟩
      exact List.forall_mem_singleton.mpr he

theorem forStatement_sound (place : Location) :
    Gives l f (Stmt.Placed l f) (forStatement (n + 1) place) := by
  refine (Gives.expectMark _ _).bind fun _ _ => ih.forInit.bind fun init hinit => ?_
  refine (Gives.expectMark _ _).bind fun _ _ => (ih.optional _).bind fun c hc => ?_
  refine (Gives.expectMark _ _).bind fun _ _ => (ih.optional _).bind fun step hstep => ?_
  refine (Gives.expectMark _ _).bind fun _ _ => ?_
  refine (Gives.inLoop ih.statement).bind fun body hbody => ?_
  refine Gives.pure (placed_of_parts (fun s hs => (hinit s hs).2) ?_ (free_of_loop hbody))
  have exprs : ∀ q ∈ (c.toList ++ step.toList).map Part.expr, q.WellFormed := by
    refine sound_exprs (List.forall_mem_append.mpr ⟨fun e he => ?_, fun e he => ?_⟩)
    · exact hc e (Option.mem_toList.mp he)
    · exact hstep e (Option.mem_toList.mp he)
  have initial : ∀ q ∈ init.toList.map Part.stmt, q.WellFormed :=
    wellFormed_ofBody fun s hs => (hinit s (Option.mem_toList.mp hs)).1
  refine List.forall_mem_cons.mpr ⟨hbody.wellFormed, ?_⟩
  exact List.forall_mem_append.mpr ⟨initial, exprs⟩

theorem returnStatement_sound (place : Location) :
    Gives l f (Stmt.Placed l f) (returnStatement (n + 1) place) := by
  refine Gives.get.bind fun state hstate => Gives.ite (fun _ => ?_) fun hne => ?_
  · exact Gives.failAt_bind _ _
  · rw [hstate.2] at hne
    refine Gives.newlineBefore.bind fun _ _ => Gives.atEnd.bind fun _ _ => ?_
    refine (Gives.atMark _).bind fun _ _ => (Gives.atMark _).bind fun _ _ => ?_
    refine Gives.ite (fun _ => ?_) fun _ => ?_
    · refine Gives.endStatement.bind fun _ _ => Gives.pure ?_
      exact placed_return place (fun e he => nomatch he) hne
    · refine ih.expression.bind fun e he => Gives.endStatement.bind fun _ _ => Gives.pure ?_
      refine placed_return place (fun e' he' => ?_) hne
      cases he'
      exact he

theorem tryStatement_sound (place : Location) :
    Gives l f (Stmt.Placed l f) (tryStatement (n + 1) place) := by
  refine (Gives.expectMark _ _).bind fun _ _ => (ih.block _).bind fun body hbody => ?_
  refine ih.catchClause.bind fun handler hhandler => ?_
  refine ih.finallyClause.bind fun finalizer hfinalizer => ?_
  refine Gives.ite (fun _ => Gives.failHere_bind _) fun _ => Gives.pure ?_
  exact placed_try place hbody hhandler hfinalizer

theorem catchClause_sound :
    Gives l f (fun o => ∀ c ∈ o, ∀ param body, c = .mk param body → ∀ s ∈ body, s.Placed l f)
      (catchClause (n + 1)) := by
  refine (Gives.eatKeyword _).bind fun b _ => Gives.ite (fun _ => ?_) fun _ => ?_
  · refine (Gives.expectMark _ _).bind fun _ _ => (Gives.expectName _).bind fun param _ => ?_
    refine (Gives.expectMark _ _).bind fun _ _ => (Gives.expectMark _ _).bind fun _ _ => ?_
    refine (ih.block _).bind fun body hbody => Gives.pure ?_
    rintro c ⟨⟩ param' body' ⟨⟩
    exact hbody
  · exact Gives.pure fun c hc => nomatch hc

theorem finallyClause_sound :
    Gives l f (fun o => ∀ body ∈ o, ∀ s ∈ body, s.Placed l f) (finallyClause (n + 1)) := by
  refine (Gives.eatKeyword _).bind fun b _ => Gives.ite (fun _ => ?_) fun _ => ?_
  · refine (Gives.expectMark _ _).bind fun _ _ => (ih.block _).bind fun body hbody => ?_
    refine Gives.pure ?_
    rintro body' ⟨⟩
    exact hbody
  · exact Gives.pure fun body hbody => nomatch hbody

theorem throwStatement_sound (place : Location) :
    Gives l f (Stmt.Placed l f) (do
      if ← newlineBefore then failHere .unexpected
      let e ← expression n
      endStatement
      return .throw e place) := by
  refine Gives.newlineBefore.bind fun b _ => Gives.ite (fun _ => ?_) fun _ => ?_
  · exact Gives.failHere_bind _
  · refine ih.expression.bind fun e he => Gives.endStatement.bind fun _ _ => Gives.pure ?_
    exact placed_of_parts trivial (List.forall_mem_singleton.mpr he) fun j hj => nomatch hj

theorem statement_sound : Gives l f (Stmt.Placed l f) (statement (n + 1)) := by
  refine Gives.here.bind fun place _ => (Gives.peekAs _).bind fun kind _ => ?_
  split
  · refine Gives.skip.bind fun _ _ => (ih.declarators _).bind fun ds hds => ?_
    refine Gives.endStatement.bind fun _ _ => Gives.pure ?_
    exact placed_of_parts trivial hds fun j hj => nomatch hj
  refine Gives.peek.bind fun next _ => ?_
  split
  · refine Gives.skip.bind fun _ _ => (ih.function _ _).bind fun d hd => Gives.pure ?_
    exact placed_of_parts (hd.2 rfl) (List.forall_mem_singleton.mpr hd.1) fun j hj => nomatch hj
  · exact Gives.skip.bind fun _ _ => ih.ifStatement place
  · exact Gives.skip.bind fun _ _ => whileStatement_sound ih place
  · exact Gives.skip.bind fun _ _ => ih.doStatement place
  · exact Gives.skip.bind fun _ _ => ih.forStatement place
  · exact Gives.skip.bind fun _ _ => ih.returnStatement place
  · exact Gives.skip.bind fun _ _ => loopJump_sound _ _ (placed_break place)
  · exact Gives.skip.bind fun _ _ => loopJump_sound _ _ (placed_continue place)
  · exact Gives.skip.bind fun _ _ => throwStatement_sound ih place
  · exact Gives.skip.bind fun _ _ => ih.tryStatement place
  · refine Gives.skip.bind fun _ _ => (ih.block _).bind fun body hbody => Gives.pure ?_
    exact placed_of_parts trivial (wellFormed_ofBody hbody) (emitsAny_free hbody)
  · refine Gives.skip.bind fun _ _ => Gives.pure ?_
    exact placed_of_parts trivial (fun q hq => nomatch hq) fun j hj => nomatch hj
  · refine ih.expression.bind fun e he => Gives.endStatement.bind fun _ _ => Gives.pure ?_
    exact placed_of_parts trivial (List.forall_mem_singleton.mpr he) fun j hj => nomatch hj

end Statements

/-- Where the depth is used up nothing is read. -/
theorem reads_zero : Reads 0 where
  expression := Gives.exhausted
  sequenceRest := Gives.exhausted
  assignment := Gives.exhausted
  conditional := Gives.exhausted
  disjunction := Gives.exhausted
  disjunctionRest _ _ := Gives.exhausted
  conjunction := Gives.exhausted
  conjunctionRest _ _ := Gives.exhausted
  binary _ := Gives.exhausted
  binaryRest _ _ _ := Gives.exhausted
  unary := Gives.exhausted
  postfixed := Gives.exhausted
  access := Gives.exhausted
  accessRest _ _ := Gives.exhausted
  arguments := Gives.exhausted
  argumentList := Gives.exhausted
  primary := Gives.exhausted
  elements := Gives.exhausted
  properties := Gives.exhausted
  function _ _ := Gives.exhausted
  block _ := Gives.exhausted
  blockRest _ := Gives.exhausted
  declarators _ := Gives.exhausted
  condition := Gives.exhausted
  statement := Gives.exhausted
  ifStatement _ := Gives.exhausted
  doStatement _ := Gives.exhausted
  forInit := Gives.exhausted
  optional _ := Gives.exhausted
  forStatement _ := Gives.exhausted
  returnStatement _ := Gives.exhausted
  tryStatement _ := Gives.exhausted
  catchClause := Gives.exhausted
  finallyClause := Gives.exhausted

theorem reads (n : Nat) : Reads n := by
  -- On the depth, for all routines at once.
  induction n with
  | zero => exact reads_zero
  | succ n ih =>
    exact {
      expression := expression_sound ih
      sequenceRest := sequenceRest_sound ih
      assignment := assignment_sound ih
      conditional := conditional_sound ih
      disjunction := disjunction_sound ih
      disjunctionRest := disjunctionRest_sound ih
      conjunction := conjunction_sound ih
      conjunctionRest := conjunctionRest_sound ih
      binary := binary_sound ih
      binaryRest := binaryRest_sound ih
      unary := unary_sound ih
      postfixed := postfixed_sound ih
      access := access_sound ih
      accessRest := accessRest_sound ih
      arguments := arguments_sound ih
      argumentList := argumentList_sound ih
      primary := primary_sound ih
      elements := elements_sound ih
      properties := properties_sound ih
      function := function_sound ih
      block := block_sound ih
      blockRest := blockRest_sound ih
      declarators := declarators_sound ih
      condition := condition_sound ih
      statement := statement_sound ih
      ifStatement := ifStatement_sound ih
      doStatement := doStatement_sound ih
      forInit := forInit_sound ih
      optional := optional_sound ih
      forStatement := forStatement_sound ih
      returnStatement := returnStatement_sound ih
      tryStatement := tryStatement_sound ih
      catchClause := catchClause_sound ih
      finallyClause := finallyClause_sound ih }

theorem statements_sound (n : Nat) :
    Gives 0 0 (fun body => ∀ s ∈ body, s.Placed 0 0) (statements n) := by
  induction n with
  | zero => exact Gives.exhausted
  | succ n ih =>
    refine Gives.atEnd.bind fun b _ => Gives.ite (fun _ => ?_) fun _ => ?_
    · exact Gives.pure fun s hs => nomatch hs
    · refine (reads n).statement.bind fun s hs => ih.bind fun ss hss => ?_
      exact Gives.pure (List.forall_mem_cons.mpr ⟨hs, hss⟩)

end Parser

namespace Program

variable {p : Program} {warnings : List ParseWarning}

theorem wellFormed_of_ofTokens {strict : Bool} {ts : Tokens}
    (h : ofTokens strict ts = .ok (p, warnings)) : (Part.program p).WellFormed := by
  unfold ofTokens at h
  dsimp only at h
  split at h
  case h_1 body s hr =>
    have placed := (Parser.statements_sound _ _ _ body s rfl rfl hr).1
    cases h
    refine Part.wellFormed_of_parts (fun j => ?_) (wellFormed_ofBody placed)
    refine Bool.eq_false_iff.mpr fun hj => ?_
    have free : j.isFree 0 0 = true := emitsAny_free placed j hj
    cases j <;> cases free
  case h_2 => cases h

theorem wellFormed_of_ofSource {options : ParseOptions} {source : String}
    (h : ofSource options source = .ok (p, warnings)) : (Part.program p).WellFormed := by
  unfold ofSource at h
  split at h
  · exact wellFormed_of_ofTokens h
  · cases h

end Program

end ScriptShell
