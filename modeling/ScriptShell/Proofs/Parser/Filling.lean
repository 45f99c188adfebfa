import ScriptShell.Proofs.Parser.Yields
import ScriptShell.Proofs.Program.Part

namespace ScriptShell.Parser

variable {α β : Type}

def Filling : List (TokenKind × Bool) → List Token → List Token → Prop
  | [], more, v => v = more
  | (k, newline) :: ks, more, v =>
    ∃ token w, v = token :: w ∧ token.kind = k ∧ token.newlineBefore = newline ∧
      Filling ks more w

/-- A token for where one is missing. -/
inductive Filler where
  | name
  | mark (m : Mark)
  | while
  | finally_

def Filler.kind : Filler → TokenKind
  | .name => .name "x"
  | .mark m => .mark m
  | .while => .keyword .while
  | .finally_ => .keyword .finally_

def onLines (fill : List Filler) : List (TokenKind × Bool) :=
  fill.map fun filler => (filler.kind, true)

theorem onLines_append (fill fill' : List Filler) :
    onLines (fill ++ fill') = onLines fill ++ onLines fill' :=
  List.map_append

def EndsExpr (v : List Token) : Prop :=
  ∀ token ∈ v.head?, looseness token.kind = 9

def EndsStmt (v : List Token) : Prop :=
  ∀ token ∈ v.head?, token.newlineBefore = true ∧
    (token.kind = .mark .rightBrace ∨ token.kind = .keyword .while)

theorem EndsExpr.nil : EndsExpr [] := nofun

theorem EndsStmt.nil : EndsStmt [] := nofun

theorem EndsStmt.endsExpr {v : List Token} (h : EndsStmt v) : EndsExpr v := by
  intro token htoken
  rcases (h token htoken).2 with hk | hk <;> rw [hk] <;> rfl

theorem EndsExpr.looseness {s : State} (h : EndsExpr s.rest) : s.looseness = 9 := by
  unfold State.looseness State.next
  cases hrest : s.rest with
  | nil => rfl
  | cons token rest => exact h token (by simp [hrest])

section Stops

variable {c : Context} {s : State} (h : EndsExpr s.rest) (n : Nat) (e : Expr)
include h

theorem EndsExpr.accessRest : accessRest (n + 1) e c s = .ok e s :=
  accessRest_stop n e (by rw [h.looseness]; decide)

theorem EndsExpr.binaryRest (least : Nat) : binaryRest (n + 1) least e c s = .ok e s :=
  binaryRest_stop n e least (by rw [h.looseness]; decide)

theorem EndsExpr.conjunctionRest : conjunctionRest (n + 1) e c s = .ok e s :=
  conjunctionRest_stop n e (by rw [h.looseness]; decide)

theorem EndsExpr.disjunctionRest : disjunctionRest (n + 1) e c s = .ok e s :=
  disjunctionRest_stop n e (by rw [h.looseness]; decide)

end Stops

theorem EndsExpr.nextIs {s : State} {m : Mark} (h : EndsExpr s.rest)
    (hm : Parser.looseness (.mark m) < 9) : s.nextIs m = false :=
  nextIs_eq_false_of_looseness (h.looseness ▸ hm)

theorem EndsExpr.eatMark {c : Context} {s : State} {m : Mark} (h : EndsExpr s.rest)
    (hm : Parser.looseness (.mark m) < 9) : eatMark m c s = .ok false s :=
  eatMark_stop (h.looseness ▸ hm)

theorem EndsStmt.next {s : State} {k : TokenKind} (h : EndsStmt s.rest) (hnext : s.next = some k) :
    k = .mark .rightBrace ∨ k = .keyword .while := by
  obtain ⟨token, rest, hrest, rfl⟩ := State.rest_of_next hnext
  exact (h token (by simp [hrest])).2

theorem EndsStmt.newlineBefore_or_isEmpty {s : State} (h : EndsStmt s.rest) (c : Context) :
    (s.newlineBefore c || s.rest.isEmpty) = true := by
  cases hrest : s.rest with
  | nil => simp
  | cons token rest => simp [State.newlineBefore, hrest, (h token (by simp [hrest])).1]

theorem EndsStmt.nextIs_semicolon {s : State} (h : EndsStmt s.rest) :
    s.nextIs .semicolon = false := by
  refine Bool.eq_false_iff.mpr fun hnext => ?_
  rcases h.next (State.nextIs_iff.mp hnext) with hk | hk <;> cases hk

namespace Filling

variable {ks ks' : List (TokenKind × Bool)} {k : TokenKind} {newline : Bool}
  {more v : List Token} {s : State}

theorem append (h : Filling (ks ++ ks') more v) :
    ∃ w, Filling ks w v ∧ Filling ks' more w := by
  induction ks generalizing v with
  | nil => exact ⟨v, rfl, h⟩
  | cons k ks ih =>
    obtain ⟨token, v', rfl, hk, hnewline, h⟩ := h
    obtain ⟨w, hks, hks'⟩ := ih h
    exact ⟨w, ⟨token, v', rfl, hk, hnewline, hks⟩, hks'⟩

theorem next (h : Filling ((k, newline) :: ks) more s.rest) : s.next = some k := by
  obtain ⟨token, w, hrest, rfl, -, -⟩ := h
  rw [State.next, hrest]
  rfl

theorem skip (h : Filling ((k, newline) :: ks) more s.rest) : Filling ks more s.skip.rest := by
  obtain ⟨token, w, hrest, -, -, h⟩ := h
  rwa [State.rest_skip, hrest]

end Filling

def Accepts (P : List Token → Prop) (Q : α → Prop) (ks : List (TokenKind × Bool))
    (f : Nat → Parser α) : Prop :=
  ∀ c s more, Filling ks more s.rest → P more → ∃ a t, Yields f c s a t ∧ Q a ∧ t.rest = more

def Joins (P' : List Token → Prop) (ks : List (TokenKind × Bool)) (P : List Token → Prop) : Prop :=
  ∀ more w, Filling ks more w → P' more → P w

namespace Joins

variable {P P' : List Token → Prop} {ks : List (TokenKind × Bool)} {k : TokenKind}
  {newline : Bool}

theorem any : Joins P' ks any :=
  fun _ _ _ _ => trivial

theorem nil (h : ∀ more, P' more → P more) : Joins P' [] P :=
  fun _ _ hfill hmore => hfill ▸ h _ hmore

theorem endsExpr (hk : looseness k = 9) : Joins P' ((k, newline) :: ks) EndsExpr := by
  rintro more w ⟨token, w, rfl, rfl, -, -⟩ - token' ⟨⟩
  exact hk

theorem endsStmt (hk : k = .mark .rightBrace ∨ k = .keyword .while) :
    Joins P' ((k, true) :: ks) EndsStmt := by
  rintro more w ⟨token, w, rfl, rfl, hnewline, -⟩ - token' ⟨⟩
  exact ⟨hnewline, hk⟩

end Joins

namespace Accepts

variable {P P' : List Token → Prop} {Q : α → Prop} {R : β → Prop} {ks r : List (TokenKind × Bool)}
  {k : TokenKind} {newline : Bool} {f : Nat → Parser α} {g : Nat → α → Parser β}

protected theorem bind (hf : Accepts P Q ks f) (hg : ∀ a, Q a → Accepts P' R r (g · a))
    (h : Joins P' r P) : Accepts P' R (ks ++ r) (fun n => f n >>= g n) := by
  intro c s more hfill hmore
  obtain ⟨w, hks, hr⟩ := hfill.append
  obtain ⟨a, t, ha, hQ, rfl⟩ := hf c s w hks (h more w hr hmore)
  obtain ⟨b, u, hb, hR, hu⟩ := hg a hQ c t more hr hmore
  exact ⟨b, u, ha.bind hb, hR, hu⟩

theorem step {g : Nat → Parser α} (h : ∀ n, f (n + 1) = g n) (hg : Accepts P Q ks g) :
    Accepts P Q ks f := by
  intro c s more hfill hmore
  obtain ⟨a, t, ha, h'⟩ := hg c s more hfill hmore
  exact ⟨a, t, .step h ha, h'⟩

theorem weaken {Q' : α → Prop} (hf : Accepts P Q ks f) (hP : ∀ more, P' more → P more)
    (hQ : ∀ a, Q a → Q' a) : Accepts P' Q' ks f := by
  intro c s more hfill hmore
  obtain ⟨a, t, ha, hQ', ht⟩ := hf c s more hfill (hP more hmore)
  exact ⟨a, t, ha, hQ a hQ', ht⟩

protected theorem pure {a : α} (ha : Q a) : Accepts P Q [] (fun _ => pure a) :=
  fun _ s _ hfill _ => ⟨a, s, .of_ok rfl, ha, hfill⟩

theorem open_bind (hf : Accepts P Q ks f) (hg : ∀ a, Accepts P R [] (g · a)) :
    Accepts P R ks (fun n => f n >>= g n) := by
  have h := hf.bind (fun a _ => hg a) (.nil fun _ => id)
  rwa [List.append_nil] at h

theorem token {x : Parser α} {a : α} (hx : ∀ c s, s.next = some k → x c s = .ok a s.skip)
    (ha : Q a) : Accepts P Q [(k, newline)] (fun _ => x) :=
  fun c s _ hfill _ => ⟨a, s.skip, .of_ok (hx c s hfill.next), ha, hfill.skip⟩

theorem take {x : Parser α} {a : α} (hx : ∀ c s, s.next = some k → x c s = .ok a s.skip)
    (hg : Accepts P R ks (g · a)) : Accepts P R ((k, newline) :: ks) (fun n => x >>= g n) := by
  intro c s more hfill hmore
  obtain ⟨b, t, hb, h⟩ := hg c s.skip more hfill.skip hmore
  exact ⟨b, t, .next (hx c s hfill.next) hb, h⟩

theorem see {x : Parser α} {a : α} (hx : ∀ c s, s.next = some k → x c s = .ok a s)
    (hg : Accepts P R ((k, newline) :: ks) (g · a)) :
    Accepts P R ((k, newline) :: ks) (fun n => x >>= g n) := by
  intro c s more hfill hmore
  obtain ⟨b, t, hb, h⟩ := hg c s more hfill hmore
  exact ⟨b, t, .next (hx c s hfill.next) hb, h⟩

theorem stay {x : Parser α} {a : α} (hx : ∀ c s, P s.rest → x c s = .ok a s)
    (hg : Accepts P R [] (g · a)) : Accepts P R [] (fun n => x >>= g n) := by
  intro c s more hfill hmore
  obtain ⟨b, t, hb, h⟩ := hg c s more hfill hmore
  exact ⟨b, t, .next (hx c s (hfill ▸ hmore)) hb, h⟩

theorem rest {a : α} (hf : ∀ n c s, P s.rest → f (n + 1) c s = .ok a s) (ha : Q a) :
    Accepts P Q [] f := by
  intro c s more hfill hmore
  exact ⟨a, s, .of_succ fun n => hf n c s (hfill ▸ hmore), ha, hfill⟩

theorem here {g : Nat → Location → Parser β} (hg : ∀ place, Accepts P R ks (g · place)) :
    Accepts P R ks (fun n => Parser.here >>= g n) := by
  intro c s more hfill hmore
  obtain ⟨b, t, hb, h⟩ := hg (s.here c) c s more hfill hmore
  exact ⟨b, t, .next (here_eq c s) hb, h⟩

theorem change {x : Parser Unit} {h : Context → State → State} (hx : ∀ c s, x c s = .ok () (h c s))
    (hrest : ∀ c s, (h c s).rest = s.rest) : Accepts P any [] (fun _ => x) := by
  intro c s more hfill _
  exact ⟨(), _, .of_ok (hx c s), trivial, (hrest c s).trans hfill⟩

theorem declareVar (name : String) (place : Location) :
    Accepts P any [] (fun _ => declareVar name place) :=
  change (declareVar_eq · · name place) (State.rest_declareVar · · name place)

theorem warnUnreachable (body : List Stmt) :
    Accepts P any [] (fun _ => warnUnreachable body) :=
  change (warnUnreachable_eq · · body) (State.rest_warnUnreachable · · body)

theorem warnCondition (e : Expr) : Accepts P any [] (fun _ => warnCondition e) :=
  change (warnCondition_eq · · e) (State.rest_warnCondition · · e)

theorem map {g : Nat → Parser α} (hf : Accepts EndsExpr Q ks f)
    (h : ∀ {c s a t}, Yields f c s a t → t.looseness = 9 → Yields g c s a t) :
    Accepts EndsExpr Q ks g := by
  intro c s more hfill hmore
  obtain ⟨a, t, ha, hQ, rfl⟩ := hf c s more hfill hmore
  exact ⟨a, t, h ha hmore.looseness, hQ, rfl⟩

theorem inLoop (hf : Accepts P Q ks f) : Accepts P Q ks (fun n => inLoop (f n)) := by
  intro c s more hfill hmore
  obtain ⟨a, t, ha, h⟩ := hf c s.enterLoop more hfill hmore
  exact ⟨a, _, ha.inLoop, h⟩

theorem inFunction (hf : Accepts P any ks f) : Accepts P any ks (fun n => inFunction (f n)) := by
  intro c s more hfill hmore
  obtain ⟨a, t, ha, -, h⟩ := hf c s.enterFunction more hfill hmore
  exact ⟨_, _, ha.inFunction, trivial, h⟩

theorem skip {g : Nat → Unit → Parser β} (hg : Accepts P R ks (g · ())) :
    Accepts P R ((k, newline) :: ks) (fun n => Parser.skip >>= g n) :=
  take (fun c s _ => skip_eq c s) hg

theorem peek {g : Nat → Option TokenKind → Parser β}
    (hg : Accepts P R ((k, newline) :: ks) (g · (some k))) :
    Accepts P R ((k, newline) :: ks) (fun n => Parser.peek >>= g n) :=
  see (fun c s h => h ▸ peek_eq c s) hg

theorem peekAs {reading : TokenKind → Option α} {g : Nat → Option α → Parser β}
    (hg : Accepts P R ((k, newline) :: ks) (g · (reading k))) :
    Accepts P R ((k, newline) :: ks) (fun n => Parser.peekAs reading >>= g n) :=
  see (fun c s h => by rw [peekAs_eq, h, Option.bind_some]) hg

theorem expectMark_take {c : Context} {s : State} {m : Mark} {what : String}
    (h : s.next = some (.mark m)) : Parser.expectMark m what c s = .ok () s.skip :=
  (expectMark_eq c s m what).trans (if_pos (State.nextIs_iff.mpr h))

theorem expectMark {m : Mark} {what : String} {g : Nat → Unit → Parser β}
    (hg : Accepts P R ks (g · ())) :
    Accepts P R ((.mark m, newline) :: ks) (fun n => Parser.expectMark m what >>= g n) :=
  take (fun _ _ => expectMark_take) hg

theorem expectName_take {c : Context} {s : State} {name what : String}
    (h : s.next = some (.name name)) : Parser.expectName what c s = .ok name s.skip := by
  rw [expectName_eq, h]

theorem expectName {name what : String} {g : Nat → String → Parser β}
    (hg : Accepts P R ks (g · name)) :
    Accepts P R ((.name name, newline) :: ks) (fun n => Parser.expectName what >>= g n) :=
  take (fun _ _ => expectName_take) hg

theorem eatMark {m : Mark} {g : Nat → Bool → Parser β} (hg : Accepts P R ks (g · true)) :
    Accepts P R ((.mark m, newline) :: ks) (fun n => Parser.eatMark m >>= g n) :=
  take (fun c s h => (eatMark_eq c s m).trans (if_pos (State.nextIs_iff.mpr h))) hg

theorem eatKeyword {k : Keyword} {g : Nat → Bool → Parser β} (hg : Accepts P R ks (g · true)) :
    Accepts P R ((.keyword k, newline) :: ks) (fun n => Parser.eatKeyword k >>= g n) :=
  take (fun c s h => (eatKeyword_eq c s k).trans (if_pos (State.nextIsKeyword_iff.mpr h))) hg

theorem atMark {m : Mark} {g : Nat → Bool → Parser β}
    (hg : Accepts P R ((.mark m, newline) :: ks) (g · true)) :
    Accepts P R ((.mark m, newline) :: ks) (fun n => Parser.atMark m >>= g n) :=
  see (fun c s h => by rw [atMark_eq, State.nextIs_iff.mpr h]) hg

theorem notAtMark {m : Mark} {g : Nat → Bool → Parser β} (hm : TokenKind.mark m ≠ k)
    (hg : Accepts P R ((k, newline) :: ks) (g · false)) :
    Accepts P R ((k, newline) :: ks) (fun n => Parser.atMark m >>= g n) := by
  refine see (fun c s h => ?_) hg
  have hnext : s.nextIs m = false := Bool.eq_false_iff.mpr fun hnext =>
    hm (Option.some.inj ((State.nextIs_iff.mp hnext).symm.trans h))
  rw [atMark_eq, hnext]

theorem noMark {m : Mark} (hm : looseness (.mark m) < 9) {g : Nat → Bool → Parser β}
    (hg : Accepts EndsExpr R [] (g · false)) :
    Accepts EndsExpr R [] (fun n => Parser.eatMark m >>= g n) :=
  stay (fun _ _ h => h.eatMark hm) hg

end Accepts

def operand : List Filler :=
  [.name, .mark .dot, .name]

section Expressions

variable {P : List Token → Prop} (newline : Bool)

theorem accepts_primary : Accepts P any [(.name "x", newline)] primary :=
  .step (fun _ => rfl) (.here fun _ => .peekAs (.skip (.pure trivial)))

theorem accepts_accessRest_nil (e : Expr) : Accepts EndsExpr (· = e) [] (accessRest · e) :=
  .rest (fun n _ _ h => h.accessRest n e) rfl

theorem accepts_accessRest (e : Expr) :
    Accepts EndsExpr (·.isTarget = true) (onLines [.mark .dot, .name]) (accessRest · e) := by
  refine .step (fun _ => rfl) (.here fun place => .eatMark (.expectName ?_))
  exact (accepts_accessRest_nil _).weaken (fun _ => id) fun a ha => ha ▸ rfl

theorem accepts_access :
    Accepts EndsExpr (·.isTarget = true) ((.name "x", newline) :: onLines [.mark .dot, .name])
      access :=
  .step (fun _ => rfl) ((accepts_primary newline).bind (fun e _ => accepts_accessRest e) .any)

theorem accepts_postfixed :
    Accepts EndsExpr (·.isTarget = true) ((.name "x", newline) :: onLines [.mark .dot, .name])
      postfixed :=
  (accepts_access newline).map fun h ht => h.postfixed (by omega)

theorem accepts_target :
    Accepts EndsExpr (·.isTarget = true) ((.name "x", newline) :: onLines [.mark .dot, .name])
      unary :=
  .step (fun _ => rfl) (.here fun _ => .peekAs (.peekAs (accepts_postfixed newline)))

theorem accepts_unary :
    Accepts EndsExpr any ((.name "x", newline) :: onLines [.mark .dot, .name]) unary :=
  (accepts_target newline).weaken (fun _ => id) fun _ _ => trivial

theorem accepts_binary (least : Nat) :
    Accepts EndsExpr any ((.name "x", newline) :: onLines [.mark .dot, .name])
      (binary · least) :=
  (accepts_unary newline).map fun h ht => h.binary least (by omega)

theorem accepts_conjunction :
    Accepts EndsExpr any ((.name "x", newline) :: onLines [.mark .dot, .name]) conjunction :=
  (accepts_binary newline 1).map fun h ht => h.conjunction (by omega)

theorem accepts_disjunction :
    Accepts EndsExpr any ((.name "x", newline) :: onLines [.mark .dot, .name]) disjunction :=
  (accepts_conjunction newline).map fun h ht => h.disjunction (by omega)

theorem accepts_conditional :
    Accepts EndsExpr any ((.name "x", newline) :: onLines [.mark .dot, .name]) conditional :=
  (accepts_disjunction newline).map fun h ht => h.conditional (by omega)

theorem accepts_assignment :
    Accepts EndsExpr any ((.name "x", newline) :: onLines [.mark .dot, .name]) assignment :=
  (accepts_conditional newline).map fun h ht => h.assignment (by omega)

theorem accepts_expression :
    Accepts EndsExpr any ((.name "x", newline) :: onLines [.mark .dot, .name]) expression :=
  (accepts_assignment newline).map fun h ht => h.expression (by omega)

end Expressions

section Lists

variable {P : List Token → Prop}

theorem accepts_sequenceRest : Accepts EndsExpr any [] sequenceRest :=
  .step (fun _ => rfl) (.noMark (by decide) (.pure trivial))

theorem accepts_disjunctionRest (left : Expr) :
    Accepts EndsExpr any [] (disjunctionRest · left) :=
  .rest (fun n _ _ h => h.disjunctionRest n left) trivial

theorem accepts_conjunctionRest (left : Expr) :
    Accepts EndsExpr any [] (conjunctionRest · left) :=
  .rest (fun n _ _ h => h.conjunctionRest n left) trivial

theorem accepts_binaryRest (least : Nat) (left : Expr) :
    Accepts EndsExpr any [] (binaryRest · least left) :=
  .rest (fun n _ _ h => h.binaryRest n left least) trivial

theorem accepts_arguments : Accepts P any (onLines [.mark .rightParen]) arguments :=
  .step (fun _ => rfl) (.eatMark (.pure trivial))

theorem accepts_argumentList : Accepts EndsExpr any (onLines operand) argumentList :=
  .step (fun _ => rfl)
    ((accepts_assignment true).open_bind fun _ => .noMark (by decide) (.pure trivial))

theorem accepts_elements : Accepts EndsExpr any (onLines operand) elements :=
  .step (fun _ => rfl) (.notAtMark nofun
    ((accepts_assignment true).open_bind fun _ => .noMark (by decide) (.pure trivial)))

def property : List Filler :=
  .name :: .mark .colon :: operand

theorem accepts_properties : Accepts EndsExpr any (onLines property) properties :=
  .step (fun _ => rfl) (.notAtMark nofun (.peekAs (.skip (.expectMark
    ((accepts_assignment true).open_bind fun _ => .noMark (by decide) (.pure trivial))))))

theorem accepts_parameters : Accepts EndsExpr any (onLines [.name]) parameters :=
  .step (fun _ => rfl) (.expectName (.noMark (by decide) (.pure trivial)))

end Lists

section Blocks

variable {P : List Token → Prop}

theorem accepts_blockRest (what : String) :
    Accepts P any (onLines [.mark .rightBrace]) (blockRest · what) :=
  .step (fun _ => rfl) (.eatMark (.pure trivial))

theorem accepts_block (what : String) :
    Accepts P any (onLines [.mark .rightBrace]) (block · what) :=
  .step (fun _ => rfl) ((accepts_blockRest what).bind (fun body _ =>
    (Accepts.warnUnreachable body).bind (fun _ _ => .pure trivial) .any) .any)

def functionEnd : List Filler :=
  [.mark .rightParen, .mark .leftBrace, .mark .rightBrace]

theorem accepts_functionBody (place : Location) (name : Option String) (params : List String) :
    Accepts P any (onLines functionEnd) (functionBody · place name params) :=
  .expectMark (.expectMark
    ((accepts_block _).inFunction.bind (fun _ _ => .pure trivial) .any))

theorem accepts_functionRest (place : Location) (name : Option String) :
    Accepts P any (onLines (.mark .leftParen :: functionEnd)) (functionRest · place name) :=
  .expectMark (.atMark (accepts_functionBody place name []))

theorem accepts_function (named : Bool) (place : Location) :
    Accepts P any (onLines (.name :: .mark .leftParen :: functionEnd))
      (function · named place) :=
  .step (fun n => function_succ n place named) (.peek (.skip (accepts_functionRest place _)))

end Blocks

section Statements

variable {P : List Token → Prop} (place : Location)

theorem EndsStmt.endStatement {c : Context} {s : State} (h : EndsStmt s.rest) :
    endStatement c s = .ok () s := by
  rw [endStatement_eq, h.nextIs_semicolon, h.newlineBefore_or_isEmpty]
  rfl

theorem accepts_throwStatement :
    Accepts EndsStmt any ((.name "x", false) :: onLines [.mark .dot, .name])
      (throwStatement · place) := by
  intro c s more hfill hmore
  have hnewline : s.newlineBefore c = false := by
    obtain ⟨token, w, hrest, -, hnewline, -⟩ := hfill
    simp [State.newlineBefore, hrest, hnewline]
  obtain ⟨e, t, he, -, rfl⟩ := accepts_expression false c s more hfill hmore.endsExpr
  have hend : Yields (fun _ => do
      endStatement
      return Stmt.throw e place) c t (.throw e place) t :=
    .of_ok (bind_ok hmore.endStatement)
  refine ⟨.throw e place, t, .next (newlineBefore_eq c s) ?_, trivial, rfl⟩
  rw [hnewline]
  exact he.bind hend

theorem accepts_declaratorsAfter (kind : DeclKind) (name : String) (init : Option Expr) :
    Accepts EndsExpr any [] (declaratorsAfter · place kind name init) :=
  .noMark (by decide) (.pure trivial)

theorem accepts_declaratorsFrom (kind : DeclKind) (name : String) (init : Option Expr) :
    Accepts EndsExpr any [] (declaratorsFrom · place kind name init) := by
  unfold declaratorsFrom
  by_cases hkind : kind = .var
  · simp only [hkind, if_true]
    exact (Accepts.declareVar name place).bind
      (fun _ _ => accepts_declaratorsAfter place .var name init) .any
  · simp only [hkind, if_false]
    exact accepts_declaratorsAfter place kind name init

def declarator : List Filler :=
  .name :: .mark .eq :: operand

theorem accepts_declarators (kind : DeclKind) :
    Accepts EndsExpr any (onLines declarator) (declarators · kind) :=
  .step (fun n => declarators_succ n kind) (.here fun place => .expectName (.eatMark
    ((accepts_assignment true).open_bind fun e =>
      accepts_declaratorsFrom place kind _ (some e))))

def inParens : List Filler :=
  .mark .leftParen :: operand ++ [.mark .rightParen]

theorem accepts_condition : Accepts P any (onLines inParens) condition := by
  refine .step (fun _ => rfl) (.expectMark ((accepts_expression true).bind (fun e _ => ?_)
    (r := onLines [.mark .rightParen]) (.endsExpr rfl)))
  exact (Accepts.warnCondition e).bind (fun _ _ => .expectMark (.pure trivial)) .any

theorem accepts_statement : Accepts P any (onLines [.mark .semicolon]) statement :=
  .step statement_succ (.here fun _ => .peekAs (.peek (.skip (.pure trivial))))

def BeginsWithout (k : Keyword) (v : List Token) : Prop :=
  ∀ token ∈ v.head?, token.kind ≠ .keyword k

theorem BeginsWithout.nil {k : Keyword} : BeginsWithout k [] := nofun

theorem EndsStmt.without {k : Keyword} {v : List Token} (hk : k ≠ .while) (h : EndsStmt v) :
    BeginsWithout k v := by
  intro token htoken heq
  rcases (h token htoken).2 with h' | h'
  · cases heq.symm.trans h'
  · exact hk (by simpa using heq.symm.trans h')

theorem BeginsWithout.eatKeyword {c : Context} {s : State} {k : Keyword}
    (h : BeginsWithout k s.rest) : eatKeyword k c s = .ok false s := by
  refine (eatKeyword_eq c s k).trans (if_neg fun hnext => ?_)
  obtain ⟨token, rest, hrest, hk⟩ := State.rest_of_next (State.nextIsKeyword_iff.mp hnext)
  exact h token (by simp [hrest]) hk

theorem accepts_ifStatement :
    Accepts EndsStmt any (onLines (inParens ++ [.mark .semicolon])) (ifStatement · place) := by
  refine .step (fun _ => rfl) (accepts_condition.bind (fun e _ => ?_) .any)
  refine accepts_statement.open_bind fun yes => ?_
  exact .stay (a := false) (fun _ _ h => (h.without (by decide)).eatKeyword)
    (.pure trivial)

def doEnd : List Filler :=
  .while :: inParens

theorem accepts_doRest (body : Stmt) :
    Accepts EndsStmt any (onLines doEnd) (doRest · place body) := by
  refine .eatKeyword (accepts_condition.open_bind fun e => ?_)
  exact .stay (a := false)
    (fun c s h => (eatMark_eq c s _).trans (if_neg (by simp [h.nextIs_semicolon]))) (.pure trivial)

theorem accepts_doStatement :
    Accepts EndsStmt any (onLines (.mark .semicolon :: doEnd)) (doStatement · place) :=
  .step (fun n => doStatement_succ n place) (accepts_statement.inLoop.bind
    (r := onLines doEnd) (fun body _ => accepts_doRest place body) .any)

theorem accepts_forInit : Accepts EndsExpr any (onLines operand) forInit := by
  refine .step (fun _ => rfl) (.here fun _ => .peekAs (.notAtMark nofun ?_))
  exact (accepts_expression true).open_bind fun _ => .pure trivial

theorem accepts_optional {stop : Mark} :
    Accepts EndsExpr any (onLines operand) (optional · stop) := by
  refine .step (fun _ => rfl) (.notAtMark nofun ?_)
  exact (accepts_expression true).open_bind fun _ => .pure trivial

def forEnd : List Filler :=
  .mark .semicolon :: operand ++ [.mark .rightParen, .mark .semicolon]

def forTest : List Filler :=
  .mark .semicolon :: operand ++ forEnd

theorem accepts_forStatement :
    Accepts EndsStmt any (onLines (.mark .leftParen :: operand ++ forTest))
      (forStatement · place) := by
  refine .step (fun _ => rfl) (.expectMark (accepts_forInit.bind (r := onLines forTest)
    (fun init _ => .expectMark ?_) (.endsExpr rfl)))
  refine accepts_optional.bind (r := onLines forEnd) (fun test _ => .expectMark ?_) (.endsExpr rfl)
  refine accepts_optional.bind (r := onLines [.mark .rightParen, .mark .semicolon])
    (fun step _ => .expectMark ?_) (.endsExpr rfl)
  exact accepts_statement.inLoop.open_bind fun body => .pure trivial

theorem accepts_catchClause : Accepts (BeginsWithout .catch_) any [] catchClause :=
  .step (fun _ => rfl) (.stay (a := false) (fun _ _ h => h.eatKeyword) (.pure trivial))

def finallyEnd : List Filler :=
  [.finally_, .mark .leftBrace, .mark .rightBrace]

theorem accepts_finallyClause : Accepts P (·.isSome = true) (onLines finallyEnd) finallyClause :=
  .step (fun _ => rfl) (.eatKeyword (.expectMark
    ((accepts_block _).bind (fun _ _ => .pure rfl) .any)))

def finallyRest (n : Nat) (place : Location) (body : List Stmt) (handler : Option CatchClause) :
    Parser Stmt := do
  let finalizer ← finallyClause n
  if handler.isNone && finalizer.isNone then failHere (.missing "catch or finally after try")
  return .try_ body handler finalizer place

theorem accepts_finallyRest (body : List Stmt) (handler : Option CatchClause) :
    Accepts P any (onLines finallyEnd) (finallyRest · place body handler) := by
  refine accepts_finallyClause.bind (r := []) (fun finalizer h => ?_) .any
  obtain ⟨block, rfl⟩ := Option.isSome_iff_exists.mp h
  simp only [Option.isNone_some, Bool.and_false, Bool.false_eq_true, if_false]
  exact .pure trivial

theorem joins_finallyEnd : Joins P (onLines finallyEnd) (BeginsWithout .catch_) := by
  rintro more w ⟨token, w, rfl, hk, -, -⟩ - token' ⟨⟩ hk'
  cases hk.symm.trans hk'

theorem accepts_tryRest (body : List Stmt) :
    Accepts P any (onLines finallyEnd) (tryRest · place body) :=
  accepts_catchClause.bind (r := onLines finallyEnd)
    (fun handler _ => accepts_finallyRest place body handler) joins_finallyEnd

def tryEnd : List Filler :=
  .mark .leftBrace :: .mark .rightBrace :: finallyEnd

theorem accepts_tryStatement :
    Accepts EndsStmt any (onLines tryEnd) (tryStatement · place) :=
  .step (fun n => tryStatement_succ n place) (.expectMark
    ((accepts_block _).bind (fun body _ => accepts_tryRest place body) .any))

theorem accepts_statements : Accepts (· = []) any [] statements := by
  refine .step (fun _ => rfl) (.stay (a := true) (fun c s h => ?_) (.pure trivial))
  rw [atEnd_eq, h]
  rfl

end Statements

end ScriptShell.Parser
