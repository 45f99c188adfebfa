import ScriptShell.Proofs.Parser.Extension
import ScriptShell.Proofs.Parser.Walk

namespace ScriptShell.Parser

variable {α : Type}

/-- The functions of the parser, each without the bound on the depth of its calls. -/
inductive Routine : Type → Type where
  | expression : Routine Expr
  | sequenceRest : Routine (List Expr)
  | assignment : Routine Expr
  | conditional : Routine Expr
  | disjunction : Routine Expr
  | disjunctionRest (left : Expr) : Routine Expr
  | conjunction : Routine Expr
  | conjunctionRest (left : Expr) : Routine Expr
  | binary (least : Nat) : Routine Expr
  | binaryRest (least : Nat) (left : Expr) : Routine Expr
  | unary : Routine Expr
  | postfixed : Routine Expr
  | access : Routine Expr
  | accessRest (e : Expr) : Routine Expr
  | arguments : Routine (List Expr)
  | argumentList : Routine (List Expr)
  | primary : Routine Expr
  | elements : Routine (List Expr)
  | properties : Routine (List (String × Expr))
  | parameters : Routine (List String)
  | function (named : Bool) (place : Location) : Routine FunctionDef
  | block (what : String) : Routine (List Stmt)
  | blockRest (what : String) : Routine (List Stmt)
  | declarators (kind : DeclKind) : Routine (List Declarator)
  | condition : Routine Expr
  | statement : Routine Stmt
  | ifStatement (place : Location) : Routine Stmt
  | doStatement (place : Location) : Routine Stmt
  | forInit : Routine (Option Stmt)
  | optional (stop : Mark) : Routine (Option Expr)
  | forStatement (place : Location) : Routine Stmt
  | returnStatement (place : Location) : Routine Stmt
  | tryStatement (place : Location) : Routine Stmt
  | catchClause : Routine (Option CatchClause)
  | finallyClause : Routine (Option (List Stmt))
  | statements : Routine (List Stmt)

namespace Routine

/-- The function with a bound of `n`. -/
def parser (n : Nat) : Routine α → Parser α
  | expression => Parser.expression n
  | sequenceRest => Parser.sequenceRest n
  | assignment => Parser.assignment n
  | conditional => Parser.conditional n
  | disjunction => Parser.disjunction n
  | disjunctionRest left => Parser.disjunctionRest n left
  | conjunction => Parser.conjunction n
  | conjunctionRest left => Parser.conjunctionRest n left
  | binary least => Parser.binary n least
  | binaryRest least left => Parser.binaryRest n least left
  | unary => Parser.unary n
  | postfixed => Parser.postfixed n
  | access => Parser.access n
  | accessRest e => Parser.accessRest n e
  | arguments => Parser.arguments n
  | argumentList => Parser.argumentList n
  | primary => Parser.primary n
  | elements => Parser.elements n
  | properties => Parser.properties n
  | parameters => Parser.parameters n
  | function named place => Parser.function n named place
  | block what => Parser.block n what
  | blockRest what => Parser.blockRest n what
  | declarators kind => Parser.declarators n kind
  | condition => Parser.condition n
  | statement => Parser.statement n
  | ifStatement place => Parser.ifStatement n place
  | doStatement place => Parser.doStatement n place
  | forInit => Parser.forInit n
  | optional stop => Parser.optional n stop
  | forStatement place => Parser.forStatement n place
  | returnStatement place => Parser.returnStatement n place
  | tryStatement place => Parser.tryStatement n place
  | catchClause => Parser.catchClause n
  | finallyClause => Parser.finallyClause n
  | statements => Parser.statements n

theorem exists_walk (n : Nat) (r : Routine α) : ∃ walk : Walk α, r.parser n = walk.parser := by
  have h := Walks.uniform.covers n
  have anywhere (p : Part) : p.Sited (fun _ => True) := fun _ _ _ _ => trivial
  -- One case for each routine: the induction has been done for all of them together.
  cases r with
  | expression => exact h.expression.exists_walk
  | sequenceRest => exact h.sequenceRest.exists_walk
  | assignment => exact h.assignment.exists_walk
  | conditional => exact h.conditional.exists_walk
  | disjunction => exact h.disjunction.exists_walk
  | disjunctionRest left => exact (h.disjunctionRest left (anywhere _)).exists_walk
  | conjunction => exact h.conjunction.exists_walk
  | conjunctionRest left => exact (h.conjunctionRest left (anywhere _)).exists_walk
  | binary least => exact (h.binary least).exists_walk
  | binaryRest least left => exact (h.binaryRest least left (anywhere _)).exists_walk
  | unary => exact h.unary.exists_walk
  | postfixed => exact h.postfixed.exists_walk
  | access => exact h.access.exists_walk
  | accessRest e => exact (h.accessRest e (anywhere _)).exists_walk
  | arguments => exact h.arguments.exists_walk
  | argumentList => exact h.argumentList.exists_walk
  | primary => exact h.primary.exists_walk
  | elements => exact h.elements.exists_walk
  | properties => exact h.properties.exists_walk
  | parameters => exact (Walks.uniform.parameters n).exists_walk
  | function named place => exact (h.function named place trivial).exists_walk
  | block what => exact (h.block what).exists_walk
  | blockRest what => exact (h.blockRest what).exists_walk
  | declarators kind => exact (h.declarators kind).exists_walk
  | condition => exact h.condition.exists_walk
  | statement => exact h.statement.exists_walk
  | ifStatement place => exact (h.ifStatement place trivial).exists_walk
  | doStatement place => exact (h.doStatement place trivial).exists_walk
  | forInit => exact h.forInit.exists_walk
  | optional stop => exact (h.optional stop).exists_walk
  | forStatement place => exact (h.forStatement place trivial).exists_walk
  | returnStatement place => exact (h.returnStatement place trivial).exists_walk
  | tryStatement place => exact (h.tryStatement place trivial).exists_walk
  | catchClause => exact h.catchClause.exists_walk
  | finallyClause => exact h.finallyClause.exists_walk
  | statements => exact (Walks.uniform.statements n).exists_walk

/-- A higher bound changes nothing as long as the lower one is not reached. -/
theorem settled {n m : Nat} (hle : n ≤ m) (r : Routine α) :
    Settled 0 True (r.parser n) (r.parser m) := by
  have h := steady hle
  have ends {α : Type} {p : Prop} {x y : Parser α} (hxy : Settled 0 p x y) : Settled 0 True x y :=
    hxy.weaken fun _ => trivial
  cases r with
  | expression => exact ends h.expression.settled
  | sequenceRest => exact ends h.sequenceRest.settled
  | assignment => exact ends h.assignment.settled
  | conditional => exact ends h.conditional.settled
  | disjunction => exact ends h.disjunction.settled
  | disjunctionRest left => exact ends (h.disjunctionRest left).settled
  | conjunction => exact ends h.conjunction.settled
  | conjunctionRest left => exact ends (h.conjunctionRest left).settled
  | binary least => exact ends (h.binary least).settled
  | binaryRest least left => exact ends (h.binaryRest least left).settled
  | unary => exact ends h.unary.settled
  | postfixed => exact ends h.postfixed.settled
  | access => exact ends h.access.settled
  | accessRest e => exact ends (h.accessRest e).settled
  | arguments => exact ends h.arguments.settled
  | argumentList => exact ends h.argumentList.settled
  | primary => exact ends h.primary.settled
  | elements => exact ends h.elements.settled
  | properties => exact ends h.properties.settled
  | parameters => exact ends (parameters_follow hle).settled
  | function named place => exact ends (h.function named place).settled
  | block what => exact ends (h.block what).settled
  | blockRest what => exact ends (h.blockRest what).settled
  | declarators kind => exact ends (h.declarators kind).settled
  | condition => exact ends h.condition.settled
  | statement => exact ends h.statement.settled
  | ifStatement place => exact ends (h.ifStatement place).settled
  | doStatement place => exact ends (h.doStatement place).settled
  | forInit => exact ends h.forInit.settled
  | optional stop => exact ends (h.optional stop).settled
  | forStatement place => exact ends (h.forStatement place).settled
  | returnStatement place => exact ends (h.returnStatement place)
  | tryStatement place => exact ends (h.tryStatement place).settled
  | catchClause => exact ends h.catchClause.settled
  | finallyClause => exact ends h.finallyClause.settled
  | statements => exact ends (statements_follow hle).settled

/-- Twenty calls for each token and a few more are enough for every function. -/
theorem within {n hi : Nat} (hn : 20 * hi + 13 ≤ n) (r : Routine α) :
    Within 0 hi 0 (r.parser n) := by
  have h := ample n
  have some_ {α : Type} {k : Nat} {x : Parser α} (hx : Within 0 hi k x) : Within 0 hi 0 x :=
    hx.weaken (Nat.zero_le k)
  cases r with
  | expression => exact some_ (h.expression (by omega))
  | sequenceRest => exact some_ (h.sequenceRest (by omega))
  | assignment => exact some_ (h.assignment (by omega))
  | conditional => exact some_ (h.conditional (by omega))
  | disjunction => exact some_ (h.disjunction (by omega))
  | disjunctionRest left => exact some_ (h.disjunctionRest left (by omega))
  | conjunction => exact some_ (h.conjunction (by omega))
  | conjunctionRest left => exact some_ (h.conjunctionRest left (by omega))
  | binary least => exact some_ (h.binary least (by omega))
  | binaryRest least left => exact some_ (h.binaryRest least left (by omega))
  | unary => exact some_ (h.unary (by omega))
  | postfixed => exact some_ (h.postfixed (by omega))
  | access => exact some_ (h.access (by omega))
  | accessRest e => exact some_ (h.accessRest e (by omega))
  | arguments => exact some_ (h.arguments (by omega))
  | argumentList => exact some_ (h.argumentList (by omega))
  | primary => exact some_ (h.primary (by omega))
  | elements => exact some_ (h.elements (by omega))
  | properties => exact some_ (h.properties (by omega))
  | parameters => exact some_ (parameters_within (by omega))
  | function named place => exact some_ (h.function named place (by omega))
  | block what => exact some_ (h.block what (by omega))
  | blockRest what => exact some_ (h.blockRest what (by omega))
  | declarators kind => exact some_ (h.declarators kind (by omega))
  | condition => exact some_ (h.condition (by omega))
  | statement => exact some_ (h.statement (by omega))
  | ifStatement place => exact some_ (h.ifStatement place (by omega))
  | doStatement place => exact some_ (h.doStatement place (by omega))
  | forInit => exact some_ (h.forInit (by omega))
  | optional stop => exact some_ (h.optional stop (by omega))
  | forStatement place => exact some_ (h.forStatement place (by omega))
  | returnStatement place => exact some_ (h.returnStatement place (by omega))
  | tryStatement place => exact some_ (h.tryStatement place (by omega))
  | catchClause => exact some_ (h.catchClause (by omega))
  | finallyClause => exact some_ (h.finallyClause (by omega))
  | statements => exact some_ (statements_within (by omega))

end Routine

theorem Routine.parser_eq {n m : Nat} {c : Context} {s : State} (r : Routine α)
    (hn : 20 * s.rest.length + 13 ≤ n) (hle : n ≤ m) :
    r.parser m c s = r.parser n c s ∧
      Run (r.parser n) c s (fun _ _ => True) fun e _ => e.fault ≠ .exhausted := by
  have hwithin := r.within hn c s (Nat.zero_le _) (Nat.le_refl _)
  have hsettled := r.settled hle c s (Nat.zero_le _)
  cases hrun : r.parser n c s with
  | ok a t =>
    obtain ⟨-, hm, -⟩ := (Run.iff_ok hrun).mp hsettled
    exact ⟨hm, (Run.iff_ok hrun).mpr trivial⟩
  | error e t =>
    have he := (Run.iff_error hrun).mp hwithin
    obtain ⟨hm, -⟩ := ((Run.iff_error hrun).mp hsettled).resolve_left he
    exact ⟨hm, (Run.iff_error hrun).mpr he⟩

theorem statements_atEnd (n : Nat) (c : Context) (s : State) :
    Run (statements n) c s (fun _ t => t.rest = []) fun _ _ => True := by
  induction n generalizing s with
  | zero => exact (Run.iff_error (exhausted_eq c s)).mpr trivial
  | succ n ih =>
    rw [statements, Run.bind_iff, Run.iff_ok (atEnd_eq c s)]
    cases hempty : s.rest.isEmpty with
    | true => exact List.isEmpty_iff.mp hempty
    | false =>
      refine Run.bind_iff.mpr (Run.of_forall (fun first t => ?_) fun _ _ => trivial)
      exact Run.bind_iff.mpr ((ih t).imp (fun others u hu => hu) fun _ _ _ => trivial)

/-- A parser that starts at a position stops so. It comes to that by the tokens that are left, and
as well by position, where it looks only at positions where something stands. -/
structure StopsAt (strict : Bool) (ts : Tokens) (p : Nat) (notes : Notes) (x : Parser α)
    (stop : Stop α) : Prop where
  forward : p ≤ stop.position
  inRange : stop.position ≤ ts.items.length
  byRest : x (Program.contextOf strict ts) (notes.at ts p) = stop.on ts
  byPosition : ∃ walk : Walk α, x = walk.parser ∧
    walk.runAt ts.slots strict p notes = some stop

/-- A parser that does not succeed without getting further. -/
def Advances (strict : Bool) (ts : Tokens) (p : Nat) (notes : Notes) (x : Parser α) : Prop :=
  ∀ stop a, StopsAt strict ts p notes x stop → stop.result = .ok a → p < stop.position

namespace Stop

variable {ts : Tokens} {stop : Stop α} {a : α} {e : ParseError} {t : State}

theorem on_of_ok (h : stop.result = .ok a) :
    stop.on ts = .ok a (stop.notes.at ts stop.position) := by
  rw [on, h]

theorem on_of_error (h : stop.result = .error e) :
    stop.on ts = .error e (stop.notes.at ts stop.position) := by
  rw [on, h]

theorem on_eq_ok (h : stop.on ts = .ok a t) :
    stop.result = .ok a ∧ t = stop.notes.at ts stop.position := by
  cases hresult : stop.result with
  | ok b =>
    rw [on_of_ok hresult] at h
    cases h
    exact ⟨rfl, rfl⟩
  | error e =>
    rw [on_of_error hresult] at h
    cases h

theorem on_eq_error (h : stop.on ts = .error e t) :
    stop.result = .error e ∧ t = stop.notes.at ts stop.position := by
  cases hresult : stop.result with
  | ok a =>
    rw [on_of_ok hresult] at h
    cases h
  | error e' =>
    rw [on_of_error hresult] at h
    cases h
    exact ⟨rfl, rfl⟩

end Stop

theorem Notes.length_rest_at (notes : Notes) (ts : Tokens) (p : Nat) :
    (notes.at ts p).rest.length = ts.items.length - p :=
  List.length_drop

section Moves

variable {strict : Bool} {ts : Tokens} {p : Nat} {notes : Notes}

theorem Walk.stopsAt (walk : Walk α) (strict : Bool) (notes : Notes) (hp : p ≤ ts.items.length) :
    ∃ stop, StopsAt strict ts p notes walk.parser stop := by
  obtain ⟨stop, hrun, hrange, hparser⟩ := walk.exists_runAt strict notes hp
  exact ⟨stop, walk.le_position hrun, hrange, hparser, walk, rfl, hrun⟩

theorem Advances.of_settled {x y : Parser α} {q : Prop} (hsettled : Settled 0 q x y)
    (hwithin : Within 0 (ts.items.length - p) 1 y) : Advances strict ts p notes x := by
  intro stop a h ha
  have hlength := notes.length_rest_at ts p
  have hx := h.byRest.trans (Stop.on_of_ok ha)
  obtain ⟨-, hy, -⟩ := (Run.iff_ok hx).mp (hsettled _ _ (Nat.zero_le _))
  have htaken := (Run.iff_ok hy).mp (hwithin _ _ (Nat.zero_le _) (Nat.le_of_eq hlength))
  rw [hlength, Notes.length_rest_at] at htaken
  omega

theorem Routine.terminates {n m : Nat} {stop : Stop α} (r : Routine α)
    (hn : 20 * (ts.items.length - p) + 13 ≤ n) (hle : n ≤ m)
    (h : StopsAt strict ts p notes (r.parser n) stop) :
    r.parser m (Program.contextOf strict ts) (notes.at ts p) = stop.on ts ∧
      ∀ e, stop.result = .error e → e.fault ≠ .exhausted := by
  rw [← notes.length_rest_at ts p] at hn
  obtain ⟨hm, hrun⟩ := r.parser_eq (c := Program.contextOf strict ts) hn hle
  refine ⟨hm.trans h.byRest, fun e he => ?_⟩
  exact (Run.iff_error (h.byRest.trans (Stop.on_of_error he))).mp hrun

theorem StopsAt.atEnd {n : Nat} {stop : Stop (List Stmt)} {body : List Stmt}
    (h : StopsAt strict ts p notes (statements n) stop) (hbody : stop.result = .ok body) :
    stop.position = ts.items.length := by
  have hrun := h.byRest.trans (Stop.on_of_ok hbody)
  have hrest := (Run.iff_ok hrun).mp (statements_atEnd n _ _)
  exact Nat.le_antisymm h.inRange (List.drop_eq_nil_iff.mp hrest)

end Moves

/-- From every position the functions of the parser go forward only and stay in range. Those for
statements, assignments and blocks get further whenever they succeed. With twenty calls for each
token that is left and a few more, every function comes to an end, always the same. A program is
read only when the end has been reached. -/
theorem moves_forward (strict : Bool) {ts : Tokens} {p : Nat} (notes : Notes)
    (hp : p ≤ ts.items.length) :
    (∀ {α : Type} (r : Routine α) n, ∃ stop, StopsAt strict ts p notes (r.parser n) stop) ∧
    (∀ n, Advances strict ts p notes (statement n) ∧ Advances strict ts p notes (assignment n) ∧
      ∀ what, Advances strict ts p notes (block n what)) ∧
    (∀ {α : Type} (r : Routine α) n stop, 20 * (ts.items.length - p) + 13 ≤ n →
      StopsAt strict ts p notes (r.parser n) stop →
        (∀ m ≥ n, r.parser m (Program.contextOf strict ts) (notes.at ts p) = stop.on ts) ∧
          ∀ e, stop.result = .error e → e.fault ≠ .exhausted) ∧
    ∀ n stop body, StopsAt strict ts p notes (statements n) stop → stop.result = .ok body →
      stop.position = ts.items.length := by
  refine ⟨fun {α} r n => ?_, fun n => ?_, fun {α} r n stop hn h => ?_, fun n stop body h => h.atEnd⟩
  · obtain ⟨walk, hwalk⟩ := r.exists_walk n
    rw [hwalk]
    exact walk.stopsAt strict notes hp
  · have hsteady := steady (Nat.le_add_right n (20 * (ts.items.length - p) + 13))
    have hample := ample (n + (20 * (ts.items.length - p) + 13))
    refine ⟨.of_settled hsteady.statement.settled (hample.statement (by omega)),
      .of_settled hsteady.assignment.settled (hample.assignment (by omega)), fun what => ?_⟩
    exact .of_settled (hsteady.block what).settled (hample.block what (by omega))
  · exact ⟨fun m hm => (r.terminates hn hm h).1, (r.terminates hn (Nat.le_refl n) h).2⟩

def lineOf (kinds : List TokenKind) : Tokens :=
  ⟨kinds.map fun kind => ⟨kind, .start 1, false⟩, .start 1, false⟩

theorem moves_forward_semicolon :
    ∃ stop, StopsAt false (lineOf [.mark .semicolon]) 0 .initial (statement 33) stop ∧
      stop.position = 1 := by
  have hp : 0 ≤ (lineOf [.mark .semicolon]).items.length := by decide
  obtain ⟨hstops, hadvances, -⟩ := moves_forward false .initial hp
  obtain ⟨stop, hstop⟩ := hstops .statement 33
  have hrun : statement 33 (Program.contextOf false (lineOf [.mark .semicolon]))
      (Notes.initial.at (lineOf [.mark .semicolon]) 0) =
        .ok (.empty (.start 1)) (Notes.initial.at (lineOf [.mark .semicolon]) 1) := rfl
  obtain ⟨hresult, -⟩ := Stop.on_eq_ok (hstop.byRest.symm.trans hrun)
  have hforward : 0 < stop.position := (hadvances 33).1 stop _ hstop hresult
  have hrange : stop.position ≤ 1 := hstop.inRange
  exact ⟨stop, hstop, by omega⟩

end ScriptShell.Parser
