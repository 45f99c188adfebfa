import ScriptShell.Proofs.Evaluation.Fuel
import ScriptShell.Proofs.Evaluation.Simulation

namespace ScriptShell

namespace Evaluation

variable {σ α β : Type}

abbrev Finishes (host : Host σ) (bound patience depth : Nat) (x : Eval σ α) : Prop :=
  (Contract.within host bound patience depth).Holds .expression any x

/-- With some fuel, each function of the evaluator finishes where the fuel is enough. -/
structure Suffices (host : Host σ) (limit bound n : Nat) : Prop where
  expr : ∀ {patience depth} e, patience ≤ limit → Fits limit bound depth n 0 (sizeOf e) →
    Finishes host bound patience depth (Evaluation.expr host n e)
  exprs : ∀ {patience depth} es, patience ≤ limit → Fits limit bound depth n 0 (sizeOf es) →
    Finishes host bound patience depth (Evaluation.exprs host n es)
  sequence : ∀ {patience depth} es, patience ≤ limit → Fits limit bound depth n 0 (sizeOf es) →
    Finishes host bound patience depth (Evaluation.sequence host n es)
  entries : ∀ {patience depth} o es, patience ≤ limit → Fits limit bound depth n 0 (sizeOf es) →
    Finishes host bound patience depth (Evaluation.entries host n o es)
  unary : ∀ {patience depth} op e, patience ≤ limit → Fits limit bound depth n 1 (sizeOf e) →
    Finishes host bound patience depth (Evaluation.unary host n op e)
  reference : ∀ {patience depth} e, patience ≤ limit → Fits limit bound depth n 0 (sizeOf e) →
    Finishes host bound patience depth (Evaluation.reference host n e)
  update : ∀ {patience depth} op before e, patience ≤ limit →
    Fits limit bound depth n 1 (sizeOf e) →
    Finishes host bound patience depth (Evaluation.update host n op before e)
  assign : ∀ {patience depth} op e value, patience ≤ limit →
    Fits limit bound depth n 1 (sizeOf e + sizeOf value) →
    Finishes host bound patience depth (Evaluation.assign host n op e value)
  call : ∀ {patience depth} f args place, patience ≤ limit →
    Fits limit bound depth n 5 (sizeOf f + sizeOf args) →
    Finishes host bound patience depth (Evaluation.call host n f args place)
  callMethod : ∀ {patience depth} receiver key vs f, patience ≤ limit →
    Fits limit bound depth n 3 0 →
    Finishes host bound patience depth (Evaluation.callMethod host n receiver key vs f)
  callValue : ∀ {patience depth} callee vs description, patience ≤ limit →
    Fits limit bound depth n 2 0 →
    Finishes host bound patience depth (Evaluation.callValue host n callee vs description)
  load : ∀ {patience depth} vs, patience ≤ limit → Fits limit bound depth n 1 0 →
    Finishes host bound patience depth (Evaluation.load host n vs)
  statements : ∀ {patience depth} body, patience ≤ limit →
    Fits limit bound depth n 0 (sizeOf body) →
    Finishes host bound patience depth (Evaluation.statements host n body)
  block : ∀ {patience depth} body, patience ≤ limit →
    Fits limit bound depth n 1 (sizeOf body) →
    Finishes host bound patience depth (Evaluation.block host n body)
  statement : ∀ {patience depth} s, patience ≤ limit → Fits limit bound depth n 0 (sizeOf s) →
    Finishes host bound patience depth (Evaluation.statement host n s)
  declarators : ∀ {patience depth} kind ds, patience ≤ limit →
    Fits limit bound depth n 0 (sizeOf ds) →
    Finishes host bound patience depth (Evaluation.declarators host n kind ds)
  whileLoop : ∀ {patience depth} c body line, patience ≤ limit →
    Fits limit bound depth n (patience + 2) (sizeOf c + sizeOf body) →
    Finishes host bound patience depth (Evaluation.whileLoop host n c body line)
  doLoop : ∀ {patience depth} body c line, patience ≤ limit →
    Fits limit bound depth n (patience + 2) (sizeOf c + sizeOf body) →
    Finishes host bound patience depth (Evaluation.doLoop host n body c line)
  forLoop : ∀ {patience depth} init c step body line, patience ≤ limit →
    Fits limit bound depth n (patience + 3) (sizeOf init + sizeOf c + sizeOf step + sizeOf body) →
    Finishes host bound patience depth (Evaluation.forLoop host n init c step body line)
  forRounds : ∀ {patience depth} c step body line, patience ≤ limit →
    Fits limit bound depth n (patience + 2) (sizeOf c + sizeOf step + sizeOf body) →
    Finishes host bound patience depth (Evaluation.forRounds host n c step body line)
  tryBlock : ∀ {patience depth} body handler finalizer, patience ≤ limit →
    Fits limit bound depth n 2 (sizeOf body + sizeOf handler + sizeOf finalizer) →
    Finishes host bound patience depth (Evaluation.tryBlock host n body handler finalizer)

variable {host : Host σ} {limit bound patience depth n : Nat} {P : α → Prop}

namespace Finishes

open Contract

theorem bind {x : Eval σ α} {f : α → Eval σ β}
    (hx : (within host bound patience depth).Holds .expression P x)
    (hf : ∀ a, P a → Finishes host bound patience depth (f a)) :
    Finishes host bound patience depth (x >>= f) :=
  within_lawful.bind hx hf

theorem ofStep {x : ∀ σ, Eval σ α} (hx : IsStep (definedBy (Part.Within bound)) P x) :
    (within host bound patience depth).Holds .expression P (x σ) :=
  within_lawful.freeStep hx.free

theorem result (a : α) : Finishes host bound patience depth (pure a) :=
  within_lawful.sequencing.result (l := .expression) a

theorem asked (f : Heap → Except Fault α) (hf : ∀ h, f h.contents = f h) :
    Finishes host bound patience depth (ask f) :=
  within_lawful.sequencing.asked f hf

theorem raises (kind : ErrorKind) (message : String) :
    Finishes host bound patience depth (raise host kind message : Eval σ α) :=
  within_lawful.raise within_announces kind message

theorem declares (name : String) (v : Value) (isMutable : Bool) :
    Finishes host bound patience depth (declareLocal name v isMutable) :=
  declareLocal_alike (l := .expression) within_lawful.naming name v isMutable

theorem told (m : Moment) : Finishes host bound patience depth (observe host m) :=
  within_told m

end Finishes

theorem inScope_finishes (id : ScopeId) {x : Eval σ α}
    (hx : Finishes host bound patience depth x) :
    Finishes host bound patience depth (inScope id x) :=
  Contract.within_portable.inScope id hx

theorem hoistFunctions_finishes {body : List Stmt} (hbody : sizeOf body ≤ bound) :
    Finishes host bound patience depth (hoistFunctions host body) := by
  have sequencing : Sequencing _ (Contract.within host bound patience depth).rel :=
    Contract.within_lawful.sequencing
  refine hoistFunctions_alike (l := .expression) sequencing host host
    (fun f hf => sequencing.makeClosure f fun _ _ => hf) (fun _ _ => Finishes.told _) body
    (fun s hs => ?_) (hereditary_within bound).own fun _ _ name _ v => Finishes.declares name v true
  exact Nat.le_trans (Nat.le_of_lt (List.sizeOf_lt_of_mem hs)) hbody

section Parts

variable (hpatience : patience ≤ limit) (ih : Suffices host limit bound n)
include hpatience ih

open Finishes (bind ofStep result asked raises declares told)

theorem exprs_finishes (es : List Expr) (hfits : Fits limit bound depth (n + 1) 0 (sizeOf es)) :
    Finishes host bound patience depth (exprs host (n + 1) es) := by
  cases es with
  | nil => exact result _
  | cons e es =>
    have hsize : sizeOf (e :: es) = 1 + sizeOf e + sizeOf es := rfl
    refine bind (ih.expr e hpatience (hfits.of_lt (by omega) (by omega))) fun v _ => ?_
    exact bind (ih.exprs es hpatience (hfits.of_lt (by omega) (by omega))) fun vs _ => result _

theorem sequence_finishes (es : List Expr) (hfits : Fits limit bound depth (n + 1) 0 (sizeOf es)) :
    Finishes host bound patience depth (sequence host (n + 1) es) := by
  cases es with
  | nil => exact result _
  | cons e es =>
    have hsize : sizeOf (e :: es) = 1 + sizeOf e + sizeOf es := rfl
    have he : Finishes host bound patience depth (expr host n e) :=
      ih.expr e hpatience (hfits.of_lt (by omega) (by omega))
    cases es with
    | nil => exact he
    | cons e' es =>
      exact bind he fun _ _ => ih.sequence _ hpatience (hfits.of_lt (by omega) (by omega))

theorem unary_finishes (op : UnaryOp) (e : Expr)
    (hfits : Fits limit bound depth (n + 1) 1 (sizeOf e)) :
    Finishes host bound patience depth (unary host (n + 1) op e) := by
  have value : Finishes host bound patience depth
      (do
        let v ← expr host n e
        ask (·.unary op v)) :=
    bind (ih.expr e hpatience (hfits.of_le (by omega) (by omega))) fun v _ => asked _ (by simp)
  cases op <;> cases e <;> try exact value
  case typeof.name x place =>
    refine bind (bind (told (.reads x)) fun _ _ => ofStep (isStep_lookup? x)) fun v _ => ?_
    exact bind (ofStep (isStep_look _ (by simp))) fun _ _ => result _

theorem call_finishes (f : Expr) (args : List Expr) (place : Location)
    (hfits : Fits limit bound depth (n + 1) 5 (sizeOf f + sizeOf args)) :
    Finishes host bound patience depth (call host (n + 1) f args place) := by
  have hargs : Finishes host bound patience depth (exprs host n args) :=
    ih.exprs args hpatience (hfits.of_le (by omega) (by omega))
  have below (e : Expr) (he : .expr e ∈ Part.ofExpr f) :
      Finishes host bound patience depth (expr host n e) := by
    have hlt : sizeOf e < sizeOf f := Part.size_lt_of_mem_ofExpr he
    exact ih.expr e hpatience (hfits.of_le (by omega) (by omega))
  have method (receiver : Value) (key : String) : Finishes host bound patience depth
      (do
        let vs ← exprs host n args
        setLine place.line
        callMethod host n receiver key vs f) := by
    refine bind hargs fun vs _ => bind (Contract.within_lawful.setLine _) fun _ _ => ?_
    exact ih.callMethod receiver key vs f hpatience (hfits.of_le (by omega) (by omega))
  have value : Finishes host bound patience depth
      (do
        let v ← expr host n f
        let vs ← exprs host n args
        setLine place.line
        callValue host n v vs f.describe) := by
    refine bind (ih.expr f hpatience (hfits.of_le (by omega) (by omega))) fun v _ => ?_
    refine bind hargs fun vs _ => bind (Contract.within_lawful.setLine _) fun _ _ => ?_
    exact ih.callValue v vs _ hpatience (hfits.of_le (by omega) (by omega))
  cases f with
  | member e key _ =>
    exact bind (below e (by simp [Part.ofExpr])) fun receiver _ => method receiver key
  | index e i _ =>
    refine bind (below e (by simp [Part.ofExpr])) fun receiver _ => ?_
    refine bind (below i (by simp [Part.ofExpr])) fun v _ => ?_
    exact bind (asked _ (by simp)) fun key _ => method receiver key
  | _ => exact value

theorem callMethod_finishes (receiver : Value) (key : String) (vs : List Value) (f : Expr)
    (hfits : Fits limit bound depth (n + 1) 3 0) :
    Finishes host bound patience depth (callMethod host (n + 1) receiver key vs f) := by
  have own : Finishes host bound patience depth (receiverProperty receiver key) := by
    cases receiver with
    | object id => exact Contract.within_lawful.sequencing.ownProperty id key
    | undefined | null | bool | number | text => exact result none
  have method : Finishes host bound patience depth
      (located host (Library.method receiver key vs)) :=
    Contract.within_lawful.located Contract.within_announces
      (Library.method_alike Contract.within_lawful.sequencing
        (fun _ _ _ h => ⟨h, trivial⟩) receiver key vs)
  change Finishes host bound patience depth (if receiver.isNothing = true then _ else _)
  split
  · exact raises _ _
  · refine bind own fun own _ => ?_
    cases own with
    | some v => exact ih.callValue v vs _ hpatience (hfits.of_le (by omega) (by omega))
    | none =>
      refine bind method fun v _ => ?_
      cases v with
      | some v => exact result _
      | none => exact raises _ _

theorem inCall_finishes (callee : Value) (c : Closure) (vs : List Value)
    (hc : Part.Within bound (.function c.def_)) (hfits : Fits limit bound depth (n + 1) 2 0) :
    Finishes host bound patience depth
      (inCall host callee c vs (statements host n c.def_.body)) := by
  have hbody : sizeOf c.def_.body ≤ bound := by
    obtain ⟨⟨name, params, body, varNames, place⟩, scope, filename⟩ := c
    have hsize : sizeOf (FunctionDef.mk name params body varNames place) ≤ bound := hc
    rw [FunctionDef.mk.sizeOf_spec] at hsize
    change sizeOf body ≤ bound
    omega
  refine Contract.within_deeper fun hroom => ?_
  refine bind (openCall_alike (l := .expression) Contract.within_lawful.naming callee c vs)
    fun scope _ => ?_
  refine bind (ofStep isStep_frame) fun frame _ => Contract.within_portable.runInFrame _ ?_
  refine bind (hoistFunctions_finishes hbody) fun _ _ => ?_
  refine bind (ih.statements _ hpatience (hfits.call hroom hbody)) fun e _ => ?_
  cases e with
  | normal | return_ => exact result _
  | break_ | continue_ => exact bind (told .strayJump) fun _ _ => result _

theorem statements_finishes (body : List Stmt)
    (hfits : Fits limit bound depth (n + 1) 0 (sizeOf body)) :
    Finishes host bound patience depth (statements host (n + 1) body) := by
  cases body with
  | nil => exact result _
  | cons s rest =>
    have hsize : sizeOf (s :: rest) = 1 + sizeOf s + sizeOf rest := rfl
    refine bind (ih.statement s hpatience (hfits.of_lt (by omega) (by omega))) fun c _ => ?_
    cases c with
    | normal => exact ih.statements rest hpatience (hfits.of_lt (by omega) (by omega))
    | return_ | break_ | continue_ => exact result _

theorem block_finishes (body : List Stmt)
    (hfits : Fits limit bound depth (n + 1) 1 (sizeOf body)) :
    Finishes host bound patience depth (block host (n + 1) body) := by
  refine bind (ofStep isStep_frame) fun frame _ => ?_
  refine bind (ofStep (isStep_openScope _ _)) fun scope _ => inScope_finishes scope ?_
  refine bind (hoistFunctions_finishes hfits.within) fun _ _ => ?_
  exact ih.statements body hpatience (hfits.of_le (by omega) (by omega))

theorem whileLoop_finishes (c : Expr) (body : Stmt) (line : Nat)
    (hfits : Fits limit bound depth (n + 1) (patience + 2) (sizeOf c + sizeOf body)) :
    Finishes host bound patience depth (whileLoop host (n + 1) c body line) := by
  have again : Finishes host bound patience depth
      (branch host line >>= fun _ => whileLoop host n c body line) :=
    Contract.within_branch line fun less hless =>
      ih.whileLoop c body line (by omega) (hfits.of_le (by omega) (by omega))
  refine bind (Contract.within_lawful.setLine _) fun _ _ => ?_
  refine bind (ih.expr c hpatience (hfits.of_le (by omega) (by omega))) fun v _ => ?_
  split
  · refine bind (ih.statement body hpatience (hfits.of_le (by omega) (by omega))) fun e _ => ?_
    cases e with
    | normal | continue_ => exact again
    | break_ | return_ => exact result _
  · exact result _

theorem doLoop_finishes (body : Stmt) (c : Expr) (line : Nat)
    (hfits : Fits limit bound depth (n + 1) (patience + 2) (sizeOf c + sizeOf body)) :
    Finishes host bound patience depth (doLoop host (n + 1) body c line) := by
  refine bind (ih.statement body hpatience (hfits.of_le (by omega) (by omega))) fun e _ => ?_
  cases e with
  | normal | continue_ =>
    refine bind (Contract.within_lawful.setLine _) fun _ _ => ?_
    refine bind (ih.expr c hpatience (hfits.of_le (by omega) (by omega))) fun v _ => ?_
    split
    · exact Contract.within_branch line fun less hless =>
        ih.doLoop body c line (by omega) (hfits.of_le (by omega) (by omega))
    · exact result _
  | break_ | return_ => exact result _

theorem holds_finishes (c : Option Expr)
    (hfits : ∀ e ∈ c, Fits limit bound depth n 0 (sizeOf e)) :
    Finishes host bound patience depth (holds (c.map (expr host n))) := by
  cases c with
  | none => exact result _
  | some e => exact bind (ih.expr e hpatience (hfits e rfl)) fun v _ => result _

theorem advance_finishes (step : Option Expr) (line : Nat)
    (hfits : ∀ e ∈ step, Fits limit bound depth n 0 (sizeOf e)) :
    Finishes host bound patience depth (advance line (step.map (expr host n))) := by
  cases step with
  | none => exact result _
  | some e =>
    refine bind (Contract.within_lawful.setLine _) fun _ _ => ?_
    exact bind (ih.expr e hpatience (hfits e rfl)) fun _ _ => result _

theorem forRounds_finishes (c step : Option Expr) (body : Stmt) (line : Nat)
    (hfits : Fits limit bound depth (n + 1) (patience + 2)
      (sizeOf c + sizeOf step + sizeOf body)) :
    Finishes host bound patience depth (forRounds host (n + 1) c step body line) := by
  have again : Finishes host bound patience depth
      (branch host line >>= fun _ => forRounds host n c step body line) :=
    Contract.within_branch line fun less hless =>
      ih.forRounds c step body line (by omega) (hfits.of_le (by omega) (by omega))
  have head : Finishes host bound patience depth (holds (c.map (expr host n))) := by
    refine holds_finishes hpatience ih c fun e he => ?_
    have hsize : sizeOf c = 1 + sizeOf e := by
      rw [he]
      rfl
    exact hfits.of_le (by omega) (by omega)
  have tail : Finishes host bound patience depth (advance line (step.map (expr host n))) := by
    refine advance_finishes hpatience ih step line fun e he => ?_
    have hsize : sizeOf step = 1 + sizeOf e := by
      rw [he]
      rfl
    exact hfits.of_le (by omega) (by omega)
  refine bind (Contract.within_lawful.setLine _) fun _ _ => bind head fun goesOn _ => ?_
  split
  · refine bind (ih.statement body hpatience (hfits.of_le (by omega) (by omega))) fun e _ => ?_
    cases e with
    | normal | continue_ => exact bind tail fun _ _ => again
    | break_ | return_ => exact result _
  · exact result _

theorem forLoop_finishes (init : Option Stmt) (c step : Option Expr) (body : Stmt) (line : Nat)
    (hfits : Fits limit bound depth (n + 1) (patience + 3)
      (sizeOf init + sizeOf c + sizeOf step + sizeOf body)) :
    Finishes host bound patience depth (forLoop host (n + 1) init c step body line) := by
  have rounds : Finishes host bound patience depth (forRounds host n c step body line) :=
    ih.forRounds c step body line hpatience (hfits.of_le (by omega) (by omega))
  cases init with
  | none => exact rounds
  | some s =>
    have hsize : sizeOf (some s) = 1 + sizeOf s := rfl
    exact bind (ih.statement s hpatience (hfits.of_le (by omega) (by omega))) fun _ _ => rounds

theorem tryBlock_finishes (body : List Stmt) (handler : Option CatchClause)
    (finalizer : Option (List Stmt))
    (hfits : Fits limit bound depth (n + 1) 2
      (sizeOf body + sizeOf handler + sizeOf finalizer)) :
    Finishes host bound patience depth (tryBlock host (n + 1) body handler finalizer) := by
  refine Contract.within_lawful.guarded (fun t ht => (told .handlerBegins t ht).2)
    (fun t ht => (told .finalizerBegins t ht).2) ?_ ?_ ?_
  · exact ih.block body hpatience (hfits.of_le (by omega) (by omega))
  · intro handle hhandle v
    obtain ⟨⟨param, caught⟩, rfl, rfl⟩ := Option.map_eq_some_iff.mp hhandle
    have hsize : sizeOf (some (CatchClause.mk param caught)) =
        1 + (1 + sizeOf param + sizeOf caught) := by
      rw [Option.some.sizeOf_spec, CatchClause.mk.sizeOf_spec]
    refine bind (ofStep isStep_frame) fun frame _ => ?_
    refine bind (ofStep (isStep_openScope _ _)) fun scope _ => inScope_finishes scope ?_
    refine bind (declares param v true) fun _ _ => ?_
    exact ih.block caught hpatience (hfits.of_le (by omega) (by omega))
  · intro last hlast
    obtain ⟨last, rfl, rfl⟩ := Option.map_eq_some_iff.mp hlast
    have hsize : sizeOf (some last) = 1 + sizeOf last := rfl
    exact ih.block last hpatience (hfits.of_le (by omega) (by omega))

theorem reference_finishes (e : Expr) (hfits : Fits limit bound depth (n + 1) 0 (sizeOf e)) :
    Finishes host bound patience depth (reference host (n + 1) e) := by
  have below (q : Part) (hq : q ∈ Part.ofTarget e) : Fits limit bound depth n 0 q.size :=
    hfits.of_lt (Part.size_lt_of_mem (p := .target e) hq) (by omega)
  cases e with
  | name x place => exact result _
  | member e key place =>
    exact bind (ih.expr e hpatience (below (.expr e) (by simp [Part.ofTarget]))) fun _ _ => result _
  | index e i place =>
    refine bind (ih.expr e hpatience (below (.expr e) (by simp [Part.ofTarget]))) fun _ _ => ?_
    refine bind (ih.expr i hpatience (below (.expr i) (by simp [Part.ofTarget]))) fun _ _ => ?_
    exact bind (asked _ (by simp)) fun _ _ => result _
  | _ => exact bind (told .noTarget) fun _ _ => raises _ _

theorem statement_finishes (s : Stmt) (hfits : Fits limit bound depth (n + 1) 0 (sizeOf s)) :
    Finishes host bound patience depth (statement host (n + 1) s) := by
  have below (q : Part) (hq : q ∈ Part.ofStmt s) : Fits limit bound depth n 0 q.size :=
    hfits.of_lt (Part.size_lt_of_mem_ofStmt hq) (by omega)
  refine bind (Contract.within_lawful.setLine _) fun _ _ => bind (told (.statement s)) fun _ _ => ?_
  cases s with
  | declare kind ds place =>
    refine ih.declarators kind ds hpatience (hfits.of_lt ?_ (by omega))
    rw [Stmt.declare.sizeOf_spec]
    omega
  | function | empty | break_ | continue_ => exact result _
  | expr e place =>
    refine bind (ih.expr e hpatience (below (.expr e) (by simp [Part.ofStmt]))) fun v _ => ?_
    have kept : Finishes host bound patience depth (setLastValue v) :=
      fun s h => ⟨trivial, ⟨h.patience, h.depth, h.tells, h.definedIn⟩, trivial⟩
    exact bind kept fun _ _ => result _
  | if_ c yes no place =>
    refine bind (ih.expr c hpatience (below (.expr c) (by simp [Part.ofStmt]))) fun v _ => ?_
    split
    · exact ih.statement yes hpatience (below (.stmt yes) (by simp [Part.ofStmt]))
    · cases no with
      | none => exact result _
      | some no => exact ih.statement no hpatience (below (.stmt no) (by simp [Part.ofStmt]))
  | «while» c body place =>
    refine ih.whileLoop c body _ hpatience (hfits.of_lt ?_ (by omega))
    rw [Stmt.while.sizeOf_spec]
    omega
  | doWhile body c place =>
    refine ih.doLoop body c _ hpatience (hfits.of_lt ?_ (by omega))
    rw [Stmt.doWhile.sizeOf_spec]
    omega
  | for_ init c step body place =>
    -- The loop is the same inside a scope of its own and without one.
    have loop : Finishes host bound patience depth
        (forLoop host n init c step body place.line) := by
      refine ih.forLoop init c step body _ hpatience (hfits.of_lt ?_ (by omega))
      rw [Stmt.for_.sizeOf_spec]
      omega
    dsimp only
    split
    · refine bind (ofStep isStep_frame) fun frame _ => ?_
      exact bind (ofStep (isStep_openScope _ _)) fun scope _ => inScope_finishes scope loop
    · exact loop
  | block body place =>
    refine ih.block body hpatience (hfits.of_lt ?_ (by omega))
    rw [Stmt.block.sizeOf_spec]
    omega
  | return_ e place =>
    cases e with
    | none => exact result _
    | some e =>
      exact bind (ih.expr e hpatience (below (.expr e) (by simp [Part.ofStmt]))) fun v _ => result _
  | throw e place =>
    refine bind (ofStep isStep_frame) fun frame _ => ?_
    refine bind (ih.expr e hpatience (below (.expr e) (by simp [Part.ofStmt]))) fun v _ => ?_
    refine bind (ofStep isStep_frame) fun frame _ => ?_
    exact Contract.within_lawful.throwAt Contract.within_announces _ _ _
  | try_ body handler finalizer place =>
    refine ih.tryBlock body handler finalizer hpatience (hfits.of_lt ?_ (by omega))
    rw [Stmt.try_.sizeOf_spec]
    omega

variable (hdealing : Dealing (definedBy (Part.Within bound)) (.of (Part.Within bound)) host host
  (Contract.within host bound patience depth).rel)
include hdealing

theorem entries_finishes (o : Value) (es : List (String × Expr))
    (hfits : Fits limit bound depth (n + 1) 0 (sizeOf es)) :
    Finishes host bound patience depth (entries host (n + 1) o es) := by
  cases es with
  | nil => exact result _
  | cons entry es =>
    obtain ⟨key, e⟩ := entry
    have hsize : sizeOf ((key, e) :: es) = 1 + (1 + sizeOf key + sizeOf e) + sizeOf es := rfl
    refine bind (ih.expr e hpatience (hfits.of_lt (by omega) (by omega))) fun v _ => ?_
    refine bind (putProperty_alike hdealing o key v "") fun _ _ => ?_
    exact ih.entries o es hpatience (hfits.of_lt (by omega) (by omega))

theorem update_finishes (op : UpdateOp) (before : Bool) (e : Expr)
    (hfits : Fits limit bound depth (n + 1) 1 (sizeOf e)) :
    Finishes host bound patience depth (update host (n + 1) op before e) := by
  refine bind (ih.reference e hpatience (hfits.of_le (by omega) (by omega))) fun r _ => ?_
  refine bind (getReference_alike hdealing e r) fun v _ => ?_
  refine bind (asked _ (by simp)) fun old _ => ?_
  exact bind (putReference_alike hdealing e _ r) fun _ _ => result _

theorem assign_finishes (op : Option BinaryOp) (e value : Expr)
    (hfits : Fits limit bound depth (n + 1) 1 (sizeOf e + sizeOf value)) :
    Finishes host bound patience depth (assign host (n + 1) op e value) := by
  have hvalue : Finishes host bound patience depth (expr host n value) :=
    ih.expr value hpatience (hfits.of_le (by omega) (by omega))
  refine bind (ih.reference e hpatience (hfits.of_le (by omega) (by omega))) fun r _ => ?_
  cases op with
  | none =>
    refine bind hvalue fun v _ => ?_
    exact bind (putReference_alike hdealing e v r) fun _ _ => result _
  | some op =>
    refine bind (getReference_alike hdealing e r) fun old _ => ?_
    refine bind hvalue fun w _ => bind (asked _ (by simp)) fun v _ => ?_
    exact bind (putReference_alike hdealing e v r) fun _ _ => result _

theorem expr_finishes (e : Expr) (hfits : Fits limit bound depth (n + 1) 0 (sizeOf e)) :
    Finishes host bound patience depth (expr host (n + 1) e) := by
  have below (q : Part) (hq : q ∈ Part.ofExpr e) : Fits limit bound depth n 0 q.size :=
    hfits.of_lt (Part.size_lt_of_mem_ofExpr hq) (by omega)
  cases e with
  | number | text | bool | null => exact result _
  | name x place => exact readVariable_alike hdealing x
  | array es place =>
    refine bind (ih.exprs es hpatience (hfits.of_lt ?_ (by omega))) fun vs _ => ?_
    · rw [Expr.array.sizeOf_spec]
      omega
    · exact hdealing.newArray (l := .expression) _
  | object es place =>
    refine bind (hdealing.allocate (l := .expression) _ rfl) fun v _ => ?_
    refine bind (ih.entries v es hpatience (hfits.of_lt ?_ (by omega))) fun _ _ => result _
    rw [Expr.object.sizeOf_spec]
    omega
  | function f place =>
    have hlt : (Part.function f).size < sizeOf (Expr.function f place) :=
      Part.size_lt_of_mem_ofExpr (by simp [Part.ofExpr])
    exact hdealing.makeClosure (l := .expression) f fun _ _ =>
      Nat.le_trans (Nat.le_of_lt hlt) hfits.within
  | unary op e place =>
    refine ih.unary op e hpatience (hfits.of_lt ?_ (by omega))
    rw [Expr.unary.sizeOf_spec]
    omega
  | update op before e place =>
    refine ih.update op before e hpatience (hfits.of_lt ?_ (by omega))
    rw [Expr.update.sizeOf_spec]
    omega
  | binary op a b place =>
    refine bind (ih.expr a hpatience (below (.expr a) (by simp [Part.ofExpr]))) fun v _ => ?_
    refine bind (ih.expr b hpatience (below (.expr b) (by simp [Part.ofExpr]))) fun w _ => ?_
    exact asked _ (by simp)
  | logical op a b place =>
    refine bind (ih.expr a hpatience (below (.expr a) (by simp [Part.ofExpr]))) fun v _ => ?_
    split
    · exact result _
    · exact ih.expr b hpatience (below (.expr b) (by simp [Part.ofExpr]))
  | assign op e value place =>
    refine ih.assign op e value hpatience (hfits.of_lt ?_ (by omega))
    rw [Expr.assign.sizeOf_spec]
    omega
  | conditional c a b place =>
    refine bind (ih.expr c hpatience (below (.expr c) (by simp [Part.ofExpr]))) fun v _ => ?_
    split
    · exact ih.expr a hpatience (below (.expr a) (by simp [Part.ofExpr]))
    · exact ih.expr b hpatience (below (.expr b) (by simp [Part.ofExpr]))
  | member e key place =>
    refine bind (ih.expr e hpatience (below (.expr e) (by simp [Part.ofExpr]))) fun base _ => ?_
    exact getProperty_alike hdealing base key _
  | index e i place =>
    refine bind (ih.expr e hpatience (below (.expr e) (by simp [Part.ofExpr]))) fun base _ => ?_
    refine bind (ih.expr i hpatience (below (.expr i) (by simp [Part.ofExpr]))) fun v _ => ?_
    exact bind (asked _ (by simp)) fun key _ => getProperty_alike hdealing base key _
  | call f args place =>
    refine ih.call f args place hpatience (hfits.of_lt ?_ (by omega))
    rw [Expr.call.sizeOf_spec]
    omega
  | sequence es place =>
    refine ih.sequence es hpatience (hfits.of_lt ?_ (by omega))
    rw [Expr.sequence.sizeOf_spec]
    omega

theorem declarators_finishes (kind : DeclKind) (ds : List Declarator)
    (hfits : Fits limit bound depth (n + 1) 0 (sizeOf ds)) :
    Finishes host bound patience depth (declarators host (n + 1) kind ds) := by
  cases ds with
  | nil => exact result _
  | cons d rest =>
    obtain ⟨name, init, place⟩ := d
    have hsize : sizeOf (Declarator.mk name init place :: rest) =
        1 + (1 + sizeOf name + sizeOf init + sizeOf place) + sizeOf rest := by
      rw [List.cons.sizeOf_spec, Declarator.mk.sizeOf_spec]
    have hrest : Finishes host bound patience depth (declarators host n kind rest) :=
      ih.declarators kind rest hpatience (hfits.of_lt (by omega) (by omega))
    refine bind (Contract.within_lawful.setLine _) fun _ _ => ?_
    cases init with
    | none =>
      cases kind with
      | var => exact hrest
      | let_ | const =>
        exact bind (declares name _ _) fun _ _ => hrest
    | some e =>
      have hinit : sizeOf (some e) = 1 + sizeOf e := rfl
      have value : Finishes host bound patience depth (expr host n e) :=
        ih.expr e hpatience (hfits.of_lt (by omega) (by omega))
      cases kind with
      | var =>
        refine bind value fun v _ => ?_
        exact bind (writeVariable_alike hdealing name v) fun _ _ => hrest
      | let_ | const =>
        refine bind value fun v _ => ?_
        exact bind (declares name v _) fun _ _ => hrest

theorem callValue_finishes (callee : Value) (vs : List Value) (description : String)
    (hfits : Fits limit bound depth (n + 1) 2 0) :
    Finishes host bound patience depth (callValue host (n + 1) callee vs description) := by
  refine bind (ofStep (isStep_callable? callee)) fun f hf => ?_
  cases f with
  | none => exact raises _ _
  | some f =>
    cases f with
    | script c => exact inCall_finishes hpatience ih callee c vs (hf c rfl) hfits
    | native f =>
      have library (f : Native) : Finishes host bound patience depth
          (located host (Library.call host f vs)) :=
        Contract.within_lawful.located Contract.within_announces (Library.call_alike hdealing f vs)
      cases f with
      | load =>
        exact Contract.within_lawful.located Contract.within_announces
          (ih.load vs hpatience (hfits.of_le (by omega) (by omega)))
      | _ => exact library _

end Parts

theorem openUnit_fails (hfile : ∀ name, ∃ e, host.file name = .failed e) (name : String) :
    (Contract.within host bound patience depth).Holds .expression (fun _ => False)
      (openUnit host name) := by
  obtain ⟨e, he⟩ := hfile name
  have hread : Library.readFile host name =
      raise host .error ("can't open " ++ name ++ ": " ++ e.message) := by
    unfold Library.readFile
    rw [he]
  unfold openUnit
  rw [hread]
  exact Contract.within_lawful.bind
    (Contract.within_lawful.raise Contract.within_announces (P := fun _ => False) _ _)
    fun _ h => h.elim

theorem load_finishes (hfile : ∀ name, ∃ e, host.file name = .failed e) (vs : List Value) :
    Finishes host bound patience depth (load host (n + 1) vs) := by
  cases vs with
  | nil => exact Finishes.result _
  | cons v vs =>
    refine Finishes.bind (Finishes.asked _ (by simp)) fun name _ => ?_
    exact Finishes.bind (openUnit_fails hfile name) fun _ h => h.elim

theorem size_pos_expr (e : Expr) : 0 < sizeOf e := by
  cases e <;> simp +arith

theorem size_pos_stmt (s : Stmt) : 0 < sizeOf s := by
  cases s <;> simp +arith

theorem size_pos_list [SizeOf α] (l : List α) : 0 < sizeOf l := by
  cases l <;> simp +arith

/-- Whatever is run, it finishes if there is enough fuel. -/
theorem suffices_all (hfile : ∀ name, ∃ e, host.file name = .failed e) (n : Nat) :
    Suffices host limit bound n := by
  -- On the fuel. What `Fits` asks for falls with every recursive call, so at zero nothing is asked.
  induction n with
  | zero =>
    have none {depth slack size : Nat} {Q : Prop} (hpos : 0 < size ∨ 0 < slack)
        (h : Fits limit bound depth 0 slack size) : Q := absurd rfl (h.pos hpos)
    exact {
      expr := fun e _ => none (.inl (size_pos_expr e))
      exprs := fun es _ => none (.inl (size_pos_list es))
      sequence := fun es _ => none (.inl (size_pos_list es))
      entries := fun _ es _ => none (.inl (size_pos_list es))
      unary := fun _ _ _ => none (.inr (by omega))
      reference := fun e _ => none (.inl (size_pos_expr e))
      update := fun _ _ _ _ => none (.inr (by omega))
      assign := fun _ _ _ _ => none (.inr (by omega))
      call := fun _ _ _ _ => none (.inr (by omega))
      callMethod := fun _ _ _ _ _ => none (.inr (by omega))
      callValue := fun _ _ _ _ => none (.inr (by omega))
      load := fun _ _ => none (.inr (by omega))
      statements := fun body _ => none (.inl (size_pos_list body))
      block := fun _ _ => none (.inr (by omega))
      statement := fun s _ => none (.inl (size_pos_stmt s))
      declarators := fun _ ds _ => none (.inl (size_pos_list ds))
      whileLoop := fun _ _ _ _ => none (.inr (by omega))
      doLoop := fun _ _ _ _ => none (.inr (by omega))
      forLoop := fun _ _ _ _ _ _ => none (.inr (by omega))
      forRounds := fun _ _ _ _ _ => none (.inr (by omega))
      tryBlock := fun _ _ _ _ => none (.inr (by omega)) }
  | succ n ih =>
    have dealing (patience depth : Nat) : Dealing (definedBy (Part.Within bound))
        (.of (Part.Within bound)) host host
        (Contract.within host bound patience depth).rel :=
      (Contract.within_serves hfile).dealing
    exact {
      expr := fun e hp => expr_finishes hp ih (dealing _ _) e
      exprs := fun es hp => exprs_finishes hp ih es
      sequence := fun es hp => sequence_finishes hp ih es
      entries := fun o es hp => entries_finishes hp ih (dealing _ _) o es
      unary := fun op e hp => unary_finishes hp ih op e
      reference := fun e hp => reference_finishes hp ih e
      update := fun op before e hp => update_finishes hp ih (dealing _ _) op before e
      assign := fun op e value hp => assign_finishes hp ih (dealing _ _) op e value
      call := fun f args place hp => call_finishes hp ih f args place
      callMethod := fun receiver key vs f hp => callMethod_finishes hp ih receiver key vs f
      callValue := fun callee vs description hp =>
        callValue_finishes hp ih (dealing _ _) callee vs description
      load := fun vs _ _ => load_finishes hfile vs
      statements := fun body hp => statements_finishes hp ih body
      block := fun body hp => block_finishes hp ih body
      statement := fun s hp => statement_finishes hp ih s
      declarators := fun kind ds hp => declarators_finishes hp ih (dealing _ _) kind ds
      whileLoop := fun c body line hp => whileLoop_finishes hp ih c body line
      doLoop := fun body c line hp => doLoop_finishes hp ih body c line
      forLoop := fun init c step body line hp => forLoop_finishes hp ih init c step body line
      forRounds := fun c step body line hp => forRounds_finishes hp ih c step body line
      tryBlock := fun body handler finalizer hp => tryBlock_finishes hp ih body handler finalizer }

theorem program_finishes (hfile : ∀ name, ∃ e, host.file name = .failed e) (p : Program)
    (hfits : Fits limit bound depth n 0 (sizeOf p.body)) :
    Finishes host bound limit depth (program host (n + 1) p) := by
  have value : Finishes host bound limit depth (do return (← frame).lastValue : Eval σ Value) :=
    Finishes.bind (Finishes.ofStep isStep_frame) fun _ _ => Finishes.result _
  have hoist : Finishes host bound limit depth (declareProgram host p) :=
    Finishes.bind (Finishes.ofStep (isStep_hoistGlobals _)) fun _ _ =>
      hoistFunctions_finishes hfits.within
  refine Finishes.bind hoist fun _ _ => ?_
  refine Finishes.bind ((suffices_all hfile n).statements _ (Nat.le_refl _) hfits) fun c _ => ?_
  cases c with
  | normal => exact Finishes.bind (Finishes.result _) fun _ _ => value
  | return_ | break_ | continue_ =>
    exact Finishes.bind (Finishes.told .strayJump) fun _ _ => value

end Evaluation

namespace Heap

/-- The functions of a heap are finitely many, so there is a largest one. -/
theorem exists_within (h : Heap) : ∃ bound, h.DefinedIn (Part.Within bound) := by
  have upTo (n : Nat) : ∃ bound, ∀ id < n, ∀ c,
      (h.object id).callable? = some (.script c) → Part.Within bound (.function c.def_) := by
    induction n with
    | zero => exact ⟨0, fun id hid => by omega⟩
    | succ n ih =>
      obtain ⟨bound, hbound⟩ := ih
      have last : ∃ size, ∀ c, (h.object n).callable? = some (.script c) →
          Part.Within size (.function c.def_) := by
        rcases (h.object n).callable? with _ | c | f
        · exact ⟨0, fun c hc => nomatch hc⟩
        · exact ⟨sizeOf c.def_, fun c' hc => by cases hc; exact Nat.le_refl _⟩
        · exact ⟨0, fun c hc => nomatch hc⟩
      obtain ⟨size, hsize⟩ := last
      refine ⟨max bound size, fun id hid c hc => ?_⟩
      rcases Nat.lt_succ_iff_lt_or_eq.mp hid with hlt | rfl
      · exact Nat.le_trans (hbound id hlt c hc) (Nat.le_max_left _ _)
      · exact Nat.le_trans (hsize c hc) (Nat.le_max_right _ _)
  obtain ⟨bound, hbound⟩ := upTo h.objects.size
  refine ⟨bound, fun id c hc => ?_⟩
  by_cases hid : id < h.objects.size
  · exact hbound id hid c hc
  · have hobject : h.object id = default := by
      unfold object get?
      rw [Array.getElem?_eq_none (Nat.le_of_not_lt hid)]
      rfl
    rw [hobject] at hc
    cases hc

end Heap

namespace Runtime

variable {σ : Type}

open Evaluation

/-- How a unit ends whose evaluation has finished within a budget. -/
theorem execute_of_finished {host : Host σ} {bound limit fuel : Nat} {r : Runtime}
    {filename : Option String} {p : Program} {state : σ}
    (h : (Contract.within host bound limit r.callDepth).Met .expression any
      ⟨r, unitFrame filename, state⟩ (program host fuel p ⟨r, unitFrame filename, state⟩)) :
    ∃ outcome r' state', r.execute host fuel filename p state = (outcome, r', state') ∧
      ((∃ v, outcome = .value v) ∨
        (∃ v file line, outcome = .stopped (.thrown v file line)) ∨
        outcome = .stopped .aborted ∨ ∃ f, outcome = .stopped (.fault f)) := by
  unfold execute
  split
  case h_1 v t hrun => exact ⟨.value v, _, _, rfl, .inl ⟨v, rfl⟩⟩
  case h_2 v file line t hrun =>
    unfold uncaught
    split
    · exact ⟨_, _, _, rfl, .inr (.inl ⟨v, file, line, rfl⟩)⟩
    case h_2 f _ => exact ⟨_, _, _, rfl, .inr (.inr (.inr ⟨f, rfl⟩))⟩
  case h_3 e t hnot hrun =>
    rw [hrun] at h
    cases e with
    | thrown v file line => exact (hnot v file line rfl).elim
    | aborted => exact ⟨_, _, _, rfl, .inr (.inr (.inl rfl))⟩
    | fault f => exact ⟨_, _, _, rfl, .inr (.inr (.inr ⟨f, rfl⟩))⟩
    -- A run within its budget cannot end in either way.
    | wanting | outOfFuel => exact h.1.elim

/-- A host with limited patience makes every unit end, whatever it does: with a value, by an
exception or because the host stops it, unless a primitive of the language crashes. More fuel
makes no difference to the end. -/
theorem execute_terminates (host : Host σ) (limit : Nat) (r : Runtime) (filename : Option String)
    (p : Program) (state : σ) (htells : r.tellsBranches = true)
    (hpatience : host.AbortsBy limit state)
    (hfile : ∀ name, ∃ e, host.file name = .failed e) :
    ∃ outcome r' state',
      (∃ fuel, ∀ more, r.execute host (more + fuel) filename p state = (outcome, r', state')) ∧
        ((∃ v, outcome = .value v) ∨
          (∃ v file line, outcome = .stopped (.thrown v file line)) ∨
          outcome = .stopped .aborted ∨ ∃ f, outcome = .stopped (.fault f)) := by
  obtain ⟨largest, hlargest⟩ := r.heap.exists_within
  -- No code is larger than the functions already there or the program, so one bound does for all
  -- calls.
  let bound := max largest (sizeOf p.body)
  have hheap : r.heap.DefinedIn (Part.Within bound) := fun id c hc =>
    Nat.le_trans (hlargest id c hc) (Nat.le_max_left _ _)
  have hfits : Fits limit bound r.callDepth (need limit bound r.callDepth (sizeOf p.body)) 0
      (sizeOf p.body) := ⟨Nat.le_max_right _ _, Nat.le_refl _⟩
  let fuel := need limit bound r.callDepth (sizeOf p.body) + 1
  have met : (Contract.within host bound limit r.callDepth).Met .expression any
      ⟨r, unitFrame filename, state⟩
      (program host fuel p ⟨r, unitFrame filename, state⟩) :=
    program_finishes hfile p hfits _ ⟨hpatience, rfl, htells, hheap⟩
  obtain ⟨outcome, r', state', hrun, hend⟩ := execute_of_finished met
  refine ⟨outcome, r', state', ⟨fuel, fun more => ?_⟩, hend⟩
  rw [execute_more_fuel, hrun]
  rw [hrun]
  rintro rfl
  simp at hend

def stubborn : Program :=
  ⟨[.while (.bool true default)
    (.try_ [.throw (.null default) default] (some (.mk "e" [.continue_ default]))
      (some [.continue_ default]) default) default], []⟩

theorem execute_terminates_stubborn :
    ∃ outcome r' state',
      (∃ fuel, ∀ more, Runtime.execute { Runtime.new .bare with tellsBranches := true } recorder
        (more + fuel) none stubborn (Recording.start ⟨some 3, none⟩) = (outcome, r', state')) ∧
        ((∃ v, outcome = .value v) ∨
          (∃ v file line, outcome = .stopped (.thrown v file line)) ∨
          outcome = .stopped .aborted ∨ ∃ f, outcome = .stopped (.fault f)) :=
  execute_terminates _ 3 _ none stubborn _ rfl
    (Recording.host_abortsBy rfl (by decide) (by decide)) fun _ => ⟨.notFound, rfl⟩

def lastIndex : Program :=
  ⟨[.declare .var [.mk "a" (some (.array [] default)) default] default,
    .expr (.assign none (.index (.name "a" default) (.text "18446744073709551615" default) default)
      (.null default) default) default], ["a"]⟩

example : (Runtime.execute { Runtime.initial .bare with tellsBranches := true } recorder 20 none
    lastIndex (Recording.start ⟨some 3, none⟩)).1 = .stopped (.fault .indexOverflow) := by
  rfl

end Runtime

end ScriptShell
