import ScriptShell.Proofs.Evaluation.Variable

namespace ScriptShell.Evaluation

variable {σ τ : Type}

/-- With some fuel, each function of the evaluator is related to itself with some more. -/
structure Alike (g : Ground) (host : Host σ) (host' : Host τ) (extra : Nat)
    (Rel : Level → {α : Type} → (α → Prop) → Eval σ α → Eval τ α → Prop) (n : Nat) : Prop where
  expr : ∀ e, g.part (.expr e) →
    Rel .expression any (Evaluation.expr host n e) (Evaluation.expr host' (extra + n) e)
  exprs : ∀ es, (∀ e ∈ es, g.part (.expr e)) →
    Rel .expression any (Evaluation.exprs host n es) (Evaluation.exprs host' (extra + n) es)
  sequence : ∀ es, (∀ e ∈ es, g.part (.expr e)) →
    Rel .expression any (Evaluation.sequence host n es) (Evaluation.sequence host' (extra + n) es)
  entries : ∀ o es, (∀ entry ∈ es, g.part (.expr entry.2)) →
    Rel .expression any (Evaluation.entries host n o es)
      (Evaluation.entries host' (extra + n) o es)
  unary : ∀ op e, g.part (.expr e) →
    Rel .expression any (Evaluation.unary host n op e) (Evaluation.unary host' (extra + n) op e)
  reference : ∀ e, g.part (.target e) →
    Rel .expression any (Evaluation.reference host n e) (Evaluation.reference host' (extra + n) e)
  update : ∀ op before e, g.part (.target e) →
    Rel .expression any (Evaluation.update host n op before e)
      (Evaluation.update host' (extra + n) op before e)
  assign : ∀ op e value, g.part (.target e) → g.part (.expr value) →
    Rel .expression any (Evaluation.assign host n op e value)
      (Evaluation.assign host' (extra + n) op e value)
  call : ∀ f args place, g.part (.expr f) → (∀ e ∈ args, g.part (.expr e)) →
    g.line place.line →
    Rel .expression any (Evaluation.call host n f args place)
      (Evaluation.call host' (extra + n) f args place)
  callMethod : ∀ receiver key vs f,
    Rel .expression any (Evaluation.callMethod host n receiver key vs f)
      (Evaluation.callMethod host' (extra + n) receiver key vs f)
  callValue : ∀ callee vs description,
    Rel .expression any (Evaluation.callValue host n callee vs description)
      (Evaluation.callValue host' (extra + n) callee vs description)
  load : ∀ vs,
    Rel .expression any (Evaluation.load host n vs) (Evaluation.load host' (extra + n) vs)
  program : ∀ p, g.part (.program p) →
    Rel .body any (Evaluation.program host n p) (Evaluation.program host' (extra + n) p)
  statements : ∀ body, (∀ s ∈ body, g.part (.stmt s)) → (∀ s ∈ body, g.ready s) →
    Rel .body (EndsBy (emitsAny · body)) (Evaluation.statements host n body)
      (Evaluation.statements host' (extra + n) body)
  block : ∀ body, (∀ s ∈ body, g.part (.stmt s)) →
    Rel .statement (EndsBy (emitsAny · body)) (Evaluation.block host n body)
      (Evaluation.block host' (extra + n) body)
  statement : ∀ s, g.part (.stmt s) → g.ready s →
    Rel .body (EndsBy (s.emits ·)) (Evaluation.statement host n s)
      (Evaluation.statement host' (extra + n) s)
  declarators : ∀ kind ds, (∀ p ∈ ds.flatMap Part.ofDeclarator, g.part p) →
    (∀ d ∈ ds, g.line d.place.line) → (kind ≠ .var → ∀ d ∈ ds, g.binds d.name) →
    Rel .statement (EndsBy fun _ => false) (Evaluation.declarators host n kind ds)
      (Evaluation.declarators host' (extra + n) kind ds)
  whileLoop : ∀ c body line, g.part (.expr c) → g.part (.stmt body) → g.ready body →
    g.line line →
    Rel .statement (EndsBy fun j => j = .return_ && body.emits j)
      (Evaluation.whileLoop host n c body line) (Evaluation.whileLoop host' (extra + n) c body line)
  doLoop : ∀ body c line, g.part (.expr c) → g.part (.stmt body) → g.ready body → g.line line →
    Rel .statement (EndsBy fun j => j = .return_ && body.emits j)
      (Evaluation.doLoop host n body c line) (Evaluation.doLoop host' (extra + n) body c line)
  forLoop : ∀ init c step body line, (∀ s ∈ init, g.part (.stmt s)) → (∀ s ∈ init, g.ready s) →
    (∀ e ∈ c, g.part (.expr e)) → (∀ e ∈ step, g.part (.expr e)) → g.part (.stmt body) →
    g.ready body → g.line line →
    Rel .statement (EndsBy fun j => j = .return_ && body.emits j)
      (Evaluation.forLoop host n init c step body line)
      (Evaluation.forLoop host' (extra + n) init c step body line)
  forRounds : ∀ c step body line, (∀ e ∈ c, g.part (.expr e)) → (∀ e ∈ step, g.part (.expr e)) →
    g.part (.stmt body) → g.ready body → g.line line →
    Rel .statement (EndsBy fun j => j = .return_ && body.emits j)
      (Evaluation.forRounds host n c step body line)
      (Evaluation.forRounds host' (extra + n) c step body line)
  tryBlock : ∀ body handler finalizer, (∀ s ∈ body, g.part (.stmt s)) →
    (∀ c ∈ handler, ∀ p ∈ Part.ofHandler c, g.part p) → (∀ c ∈ handler, g.binds c.param) →
    (∀ b ∈ finalizer, ∀ s ∈ b, g.part (.stmt s)) →
    Rel .statement
      (EndsBy fun j => emitsAny j body || emitsHandler j handler || emitsFinal j finalizer)
      (Evaluation.tryBlock host n body handler finalizer)
      (Evaluation.tryBlock host' (extra + n) body handler finalizer)

variable {ι : Type} {K : Closure → Prop} {G : ι → Ground} {host : Host σ} {host' : Host τ}
  {extra n : Nat} {Rel : ι → Level → {α : Type} → (α → Prop) → Eval σ α → Eval τ α → Prop} {i : ι}

section Expressions

variable (h : Likeness K G host host' extra Rel i)
  (ih : Alike (G i) host host' extra (Rel i) n)
include h ih

theorem exprs_alike (es : List Expr) (hes : ∀ e ∈ es, (G i).part (.expr e)) :
    Rel i .expression any (exprs host (n + 1) es) (exprs host' (extra + n + 1) es) := by
  cases es with
  | nil => exact h.result _
  | cons e es =>
    obtain ⟨he, hes⟩ := List.forall_mem_cons.mp hes
    refine h.bind (ih.expr e he) fun v _ => ?_
    exact h.bind (ih.exprs es hes) fun vs _ => h.result _

theorem sequence_alike (es : List Expr) (hes : ∀ e ∈ es, (G i).part (.expr e)) :
    Rel i .expression any (sequence host (n + 1) es) (sequence host' (extra + n + 1) es) := by
  cases es with
  | nil => exact h.result _
  | cons e es =>
    obtain ⟨he, hes⟩ := List.forall_mem_cons.mp hes
    cases es with
    | nil => exact ih.expr e he
    | cons e' es => exact h.bind (ih.expr e he) fun _ _ => ih.sequence _ hes

theorem entries_alike (o : Value) (es : List (String × Expr))
    (hes : ∀ entry ∈ es, (G i).part (.expr entry.2)) :
    Rel i .expression any (entries host (n + 1) o es) (entries host' (extra + n + 1) o es) := by
  cases es with
  | nil => exact h.result _
  | cons entry es =>
    obtain ⟨he, hes⟩ := List.forall_mem_cons.mp hes
    refine h.bind (ih.expr entry.2 he) fun v _ => ?_
    refine h.bind (putProperty_alike h.toDealing o entry.1 v "") fun _ _ => ?_
    exact ih.entries o es hes

theorem unary_alike (op : UnaryOp) (e : Expr) (he : (G i).part (.expr e)) :
    Rel i .expression any (unary host (n + 1) op e) (unary host' (extra + n + 1) op e) := by
  have value : Rel i .expression any
      (do
        let v ← expr host n e
        ask (·.unary op v))
      (do
        let v ← expr host' (extra + n) e
        ask (·.unary op v)) :=
    h.bind (ih.expr e he) fun v _ => h.asked _ (by simp)
  cases op <;> cases e <;> try exact value
  case typeof.name x place =>
    refine h.bind (readVariable?_alike h.toDealing x) fun v _ => ?_
    exact h.bind (h.step (isStep_look _ (by simp))) fun _ _ => h.result _

theorem reference_alike (e : Expr) (he : (G i).part (.target e)) :
    Rel i .expression any (reference host (n + 1) e) (reference host' (extra + n + 1) e) := by
  have below (q : Part) (hq : q ∈ Part.ofTarget e) : (G i).part q :=
    h.hereditary (.target e) q hq he
  cases e with
  | name x place => exact h.result _
  | member e key place =>
    exact h.bind (ih.expr e (below _ (by simp [Part.ofTarget]))) fun _ _ => h.result _
  | index e i place =>
    refine h.bind (ih.expr e (below _ (by simp [Part.ofTarget]))) fun _ _ => ?_
    refine h.bind (ih.expr i (below _ (by simp [Part.ofTarget]))) fun _ _ => ?_
    exact h.bind (h.asked _ (by simp)) fun _ _ => h.result _
  | _ => exact h.bind (h.noTarget _ he rfl) fun _ _ => h.raise _ _ _

theorem update_alike (op : UpdateOp) (before : Bool) (e : Expr) (he : (G i).part (.target e)) :
    Rel i .expression any (update host (n + 1) op before e)
      (update host' (extra + n + 1) op before e) := by
  refine h.bind (ih.reference e he) fun r _ => ?_
  refine h.bind (getReference_alike h.toDealing e r) fun v _ => ?_
  refine h.bind (h.asked _ (by simp)) fun old _ => ?_
  exact h.bind (putReference_alike h.toDealing e _ r) fun _ _ => h.result _

theorem assign_alike (op : Option BinaryOp) (e value : Expr) (he : (G i).part (.target e))
    (hvalue : (G i).part (.expr value)) :
    Rel i .expression any (assign host (n + 1) op e value)
      (assign host' (extra + n + 1) op e value) := by
  refine h.bind (ih.reference e he) fun r _ => ?_
  cases op with
  | none =>
    refine h.bind (ih.expr value hvalue) fun v _ => ?_
    exact h.bind (putReference_alike h.toDealing e v r) fun _ _ => h.result _
  | some op =>
    refine h.bind (getReference_alike h.toDealing e r) fun old _ => ?_
    refine h.bind (ih.expr value hvalue) fun w _ => ?_
    refine h.bind (h.asked _ (by simp)) fun v _ => ?_
    exact h.bind (putReference_alike h.toDealing e v r) fun _ _ => h.result _

theorem expr_alike (e : Expr) (he : (G i).part (.expr e)) :
    Rel i .expression any (expr host (n + 1) e) (expr host' (extra + n + 1) e) := by
  have below (q : Part) (hq : q ∈ Part.ofExpr e) : (G i).part q :=
    h.hereditary (.expr e) q hq he
  cases e with
  | number | text | bool | null => exact h.result _
  | name x place => exact readVariable_alike h.toDealing x
  | array es place =>
    refine h.bind (ih.exprs es fun e he => below _ (List.mem_map_of_mem he)) fun vs _ => ?_
    exact h.newArray _
  | object es place =>
    refine h.bind (h.allocate _ rfl) fun v _ => ?_
    refine h.bind (ih.entries v es fun entry he => below _ ?_) fun _ _ => h.result _
    exact List.mem_map_of_mem (f := fun entry => Part.expr entry.2) he
  | function f place => exact h.makeClosure f (below _ (by simp [Part.ofExpr]))
  | unary op e place => exact ih.unary op e (below _ (by simp [Part.ofExpr]))
  | update op before e place => exact ih.update op before e (below _ (by simp [Part.ofExpr]))
  | binary op a b place =>
    refine h.bind (ih.expr a (below _ (by simp [Part.ofExpr]))) fun v _ => ?_
    refine h.bind (ih.expr b (below _ (by simp [Part.ofExpr]))) fun w _ => ?_
    exact h.asked _ (by simp)
  | logical op a b place =>
    refine h.bind (ih.expr a (below _ (by simp [Part.ofExpr]))) fun v _ => ?_
    split
    · exact h.result _
    · exact ih.expr b (below _ (by simp [Part.ofExpr]))
  | assign op e value place =>
    exact ih.assign op e value (below _ (by simp [Part.ofExpr])) (below _ (by simp [Part.ofExpr]))
  | conditional c a b place =>
    refine h.bind (ih.expr c (below _ (by simp [Part.ofExpr]))) fun v _ => ?_
    split
    · exact ih.expr a (below _ (by simp [Part.ofExpr]))
    · exact ih.expr b (below _ (by simp [Part.ofExpr]))
  | member e key place =>
    refine h.bind (ih.expr e (below _ (by simp [Part.ofExpr]))) fun base _ => ?_
    exact getProperty_alike h.toDealing base key _
  | index e i place =>
    refine h.bind (ih.expr e (below _ (by simp [Part.ofExpr]))) fun base _ => ?_
    refine h.bind (ih.expr i (below _ (by simp [Part.ofExpr]))) fun v _ => ?_
    refine h.bind (h.asked _ (by simp)) fun key _ => ?_
    exact getProperty_alike h.toDealing base key _
  | call f args place =>
    refine ih.call f args place (below _ (by simp [Part.ofExpr])) (fun e he => below _ ?_)
      (h.sites he (by simp [Part.sites]))
    exact List.mem_cons_of_mem _ (List.mem_map_of_mem he)
  | sequence es place => exact ih.sequence es fun e he => below _ (List.mem_map_of_mem he)

theorem call_alike (f : Expr) (args : List Expr) (place : Location) (hf : (G i).part (.expr f))
    (hargs : ∀ e ∈ args, (G i).part (.expr e)) (hline : (G i).line place.line) :
    Rel i .expression any (call host (n + 1) f args place)
      (call host' (extra + n + 1) f args place) := by
  have below (q : Part) (hq : q ∈ Part.ofExpr f) : (G i).part q :=
    h.hereditary (.expr f) q hq hf
  have value : Rel i .expression any
      (do
        let v ← expr host n f
        let vs ← exprs host n args
        setLine place.line
        callValue host n v vs f.describe)
      (do
        let v ← expr host' (extra + n) f
        let vs ← exprs host' (extra + n) args
        setLine place.line
        callValue host' (extra + n) v vs f.describe) := by
    refine h.bind (ih.expr f hf) fun v _ => ?_
    refine h.bind (ih.exprs args hargs) fun vs _ => ?_
    exact h.bind (h.setLine _ hline) fun _ _ => ih.callValue v vs _
  -- A method is called on its receiver; any other callee is a value.
  cases f with
  | member e key _ =>
    refine h.bind (ih.expr e (below _ (by simp [Part.ofExpr]))) fun receiver _ => ?_
    refine h.bind (ih.exprs args hargs) fun vs _ => ?_
    exact h.bind (h.setLine _ hline) fun _ _ => ih.callMethod receiver key vs _
  | index e i _ =>
    refine h.bind (ih.expr e (below _ (by simp [Part.ofExpr]))) fun receiver _ => ?_
    refine h.bind (ih.expr i (below _ (by simp [Part.ofExpr]))) fun v _ => ?_
    refine h.bind (h.asked _ (by simp)) fun key _ => ?_
    refine h.bind (ih.exprs args hargs) fun vs _ => ?_
    exact h.bind (h.setLine _ hline) fun _ _ => ih.callMethod receiver key vs _
  | _ => exact value

theorem callMethod_alike (receiver : Value) (key : String) (vs : List Value) (f : Expr) :
    Rel i .expression any (callMethod host (n + 1) receiver key vs f)
      (callMethod host' (extra + n + 1) receiver key vs f) := by
  have own : Rel i .expression any (receiverProperty receiver key)
      (receiverProperty receiver key) := by
    cases receiver with
    | object id => exact h.ownProperty id key
    | undefined | null | bool | number | text => exact h.result none
  have method := h.method receiver key vs
  change Rel _ _ _ (if receiver.isNothing = true then _ else _)
    (if receiver.isNothing = true then _ else _)
  split
  · exact h.raise _ _ _
  · refine h.bind own fun own _ => ?_
    cases own with
    | some v => exact ih.callValue v vs _
    | none =>
      refine h.bind method fun v _ => ?_
      cases v with
      | some v => exact h.result _
      | none => exact h.raise _ _ _

end Expressions

section Bodies

variable (h : ∀ j, Likeness K G host host' extra Rel j)
  (ih : ∀ j, Alike (G j) host host' extra (Rel j) n)
include h ih

/-- The body of a function, with the functions that it declares. -/
theorem callBody_alike (f : FunctionDef) (hf : (G i).part (.function f))
    (hbody : ∀ s ∈ f.body, (G i).part (.stmt s)) :
    Rel i .body any
      (do
        hoistFunctions host f.body
        callResult host (← statements host n f.body))
      (do
        hoistFunctions host' f.body
        callResult host' (← statements host' (extra + n) f.body)) := by
  refine (h i).enters _ hbody fun j hj hready => ?_
  have h := h j
  have hf := hj.part _ hf
  refine h.bind ((ih j).statements _ (fun s hs => hj.part _ (hbody s hs)) hready) fun e he => ?_
  cases e with
  | normal | return_ => exact h.result _
  | break_ =>
    exact h.bind (h.strayJump (.inl ⟨_, .break_, hf, he _ rfl, by decide⟩)) fun _ _ => h.result _
  | continue_ =>
    exact h.bind (h.strayJump (.inl ⟨_, .continue_, hf, he _ rfl, by decide⟩)) fun _ _ =>
      h.result _

theorem inCall_alike (callee : Value) (c : Closure) (vs : List Value) (hc : K c) :
    Rel i .expression any
      (inCall host callee c vs (statements host n c.def_.body))
      (inCall host' callee c vs (statements host' (extra + n) c.def_.body)) := by
  exact (h i).inCall callee c vs hc fun j hf hbody _ => callBody_alike h ih c.def_ hf hbody

theorem callValue_alike (callee : Value) (vs : List Value) (description : String) :
    Rel i .expression any (callValue host (n + 1) callee vs description)
      (callValue host' (extra + n + 1) callee vs description) := by
  refine (h i).bind ((h i).step (isStep_callable? callee)) fun f hf => ?_
  cases f with
  | none => exact (h i).raise _ _ _
  | some f =>
    cases f with
    | script c => exact inCall_alike h ih callee c vs (hf c rfl)
    | native f =>
      cases f with
      | load => exact (h i).located ((ih i).load vs)
      | _ => exact (h i).located (Library.call_alike (h i).toDealing _ vs)

theorem load_alike (vs : List Value) :
    Rel i .expression any (load host (n + 1) vs) (load host' (extra + n + 1) vs) := by
  cases vs with
  | nil => exact (h i).result _
  | cons v vs =>
    refine (h i).bind ((h i).asked _ (by simp)) fun name _ => ?_
    have file := (h i).bind ((h i).runFile name fun j p hp _ => (ih j).program p hp) fun _ _ =>
      (ih i).load vs
    unfold runFile at file
    rwa [bind_assoc, bind_assoc] at file

theorem program_alike (p : Program) (hp : (G i).part (.program p)) :
    Rel i .body any (program host (n + 1) p) (program host' (extra + n + 1) p) := by
  have hbody : ∀ s ∈ p.body, (G i).part (.stmt s) :=
    fun s hs => (h i).hereditary (.program p) _ (List.mem_map_of_mem hs) hp
  unfold program declareProgram
  simp only [bind_assoc]
  refine (h i).bind ((h i).step (isStep_hoistGlobals _)) fun _ _ => ?_
  refine (h i).enters _ hbody fun j hj hready => ?_
  have h := h j
  have value : Rel j .body any (do return (← frame).lastValue : Eval σ Value)
      (do return (← frame).lastValue) :=
    h.bind (h.step isStep_frame) fun _ _ => h.result _
  refine h.bind ((ih j).statements _ (fun s hs => hj.part _ (hbody s hs)) hready) fun c hc => ?_
  cases c with
  | normal => exact h.bind (h.result _) fun _ _ => value
  | return_ | break_ | continue_ =>
    exact h.bind (h.strayJump (.inr ⟨_, _, hj.part _ hp, hc _ rfl⟩)) fun _ _ => value

theorem block_alike (body : List Stmt) (hbody : ∀ s ∈ body, (G i).part (.stmt s)) :
    Rel i .statement (EndsBy (emitsAny · body)) (block host (n + 1) body)
      (block host' (extra + n + 1) body) := by
  refine (h i).inBlockScope fun j hj id => (h j).settle ?_
  have hbody (s : Stmt) (hs : s ∈ body) : (G j).part (.stmt s) := hj.part _ (hbody s hs)
  refine (h j).enters body hbody fun k hk hready => ?_
  exact (ih k).statements body (fun s hs => hk.part _ (hbody s hs)) hready

theorem tryBlock_alike (body : List Stmt) (handler : Option CatchClause)
    (finalizer : Option (List Stmt)) (hbody : ∀ s ∈ body, (G i).part (.stmt s))
    (hhandler : ∀ c ∈ handler, ∀ p ∈ Part.ofHandler c, (G i).part p)
    (hparam : ∀ c ∈ handler, (G i).binds c.param)
    (hfinalizer : ∀ b ∈ finalizer, ∀ s ∈ b, (G i).part (.stmt s)) :
    Rel i .statement
      (EndsBy fun j => emitsAny j body || emitsHandler j handler || emitsFinal j finalizer)
      (tryBlock host (n + 1) body handler finalizer)
      (tryBlock host' (extra + n + 1) body handler finalizer) := by
  refine (h i).guarded ?_ (fun c hc v => ?_) fun last hlast => ?_
  · refine (h i).weaken ((ih i).block body hbody) fun c hc => hc.mono fun j hj => ?_
    simp [hj]
  · obtain ⟨param, caught⟩ := c
    have hcaught : ∀ s ∈ caught, (G i).part (.stmt s) :=
      fun s hs => hhandler _ hc _ (List.mem_map_of_mem hs)
    refine (h i).inBlockScope fun j hj scope => ?_
    have declares := (h j).declareLocal (l := .statement) param v true (hj.binds _ (hparam _ hc))
    refine (h j).bind declares fun _ _ => ?_
    refine (h j).weaken ((ih j).block caught fun s hs => hj.part _ (hcaught s hs)) fun c hc' =>
      hc'.mono fun j hj => ?_
    cases hc
    simp [emitsHandler, hj]
  · refine (h i).weaken ((ih i).block last (hfinalizer last hlast)) fun c hc =>
      hc.mono fun j hj => ?_
    cases hlast
    simp [emitsFinal, hj]

end Bodies

section Statements

variable (h : Likeness K G host host' extra Rel i)
  (ih : Alike (G i) host host' extra (Rel i) n)
include h ih

theorem statements_alike (body : List Stmt) (hbody : ∀ s ∈ body, (G i).part (.stmt s))
    (hready : ∀ s ∈ body, (G i).ready s) :
    Rel i .body (EndsBy (emitsAny · body)) (statements host (n + 1) body)
      (statements host' (extra + n + 1) body) := by
  cases body with
  | nil => exact h.pure _ (endsBy_normal _)
  | cons s rest =>
    obtain ⟨hs, hrest⟩ := List.forall_mem_cons.mp hbody
    obtain ⟨hready, hreadyRest⟩ := List.forall_mem_cons.mp hready
    refine h.bind (ih.statement s hs hready) fun c hc => ?_
    have ends (hc : EndsBy (s.emits ·) c) : EndsBy (emitsAny · (s :: rest)) c :=
      hc.mono fun j hj => by simp [emitsAny, hj]
    cases c with
    | normal =>
      refine h.weaken (ih.statements rest hrest hreadyRest) fun c hc => hc.mono fun j hj => ?_
      simp [emitsAny, hj]
    | return_ | break_ | continue_ => exact h.pure _ (ends hc)

theorem declarators_alike (kind : DeclKind) (ds : List Declarator)
    (hds : ∀ p ∈ ds.flatMap Part.ofDeclarator, (G i).part p)
    (hlines : ∀ d ∈ ds, (G i).line d.place.line)
    (hnames : kind ≠ .var → ∀ d ∈ ds, (G i).binds d.name) :
    Rel i .statement (EndsBy fun _ => false) (declarators host (n + 1) kind ds)
      (declarators host' (extra + n + 1) kind ds) := by
  cases ds with
  | nil => exact h.pure _ (endsBy_normal _)
  | cons d rest =>
    obtain ⟨name, init, place⟩ := d
    obtain ⟨hline, hlines⟩ := List.forall_mem_cons.mp hlines
    have hrest := ih.declarators kind rest (fun p hp => hds p (by simp [hp])) hlines
      fun hkind => (List.forall_mem_cons.mp (hnames hkind)).2
    have declares (hkind : kind ≠ .var) (v : Value) (isMutable : Bool) :=
      h.declareLocal (l := .statement) name v isMutable (hnames hkind _ List.mem_cons_self)
    refine h.bind (h.relax (h.setLine _ hline)) fun _ _ => ?_
    cases init with
    | none =>
      cases kind with
      | var => exact hrest
      | let_ | const =>
        exact h.bind (declares nofun _ _) fun _ _ => hrest
    | some e =>
      have value := h.relax (ih.expr e (hds _ (by simp [Part.ofDeclarator])))
      cases kind with
      | var =>
        refine h.bind value fun v _ => ?_
        exact h.bind (h.relax (writeVariable_alike h.toDealing name v)) fun _ _ => hrest
      | let_ | const =>
        refine h.bind value fun v _ => ?_
        exact h.bind (declares nofun v _) fun _ _ => hrest

theorem whileLoop_alike (c : Expr) (body : Stmt) (line : Nat) (hc : (G i).part (.expr c))
    (hbody : (G i).part (.stmt body)) (hready : (G i).ready body) (hline : (G i).line line) :
    Rel i .statement (EndsBy fun j => j = .return_ && body.emits j)
      (whileLoop host (n + 1) c body line) (whileLoop host' (extra + n + 1) c body line) := by
  have again := h.bind (h.branch line) fun _ _ => ih.whileLoop c body line hc hbody hready hline
  refine h.bind (h.relax (h.setLine _ hline)) fun _ _ => ?_
  refine h.bind (h.relax (ih.expr c hc)) fun v _ => ?_
  split
  · refine h.bind (h.settle (ih.statement body hbody hready)) fun e he => ?_
    cases e with
    | normal | continue_ => exact again
    | break_ => exact h.pure _ (endsBy_normal _)
    | return_ v => exact h.pure _ (endsBy_return (he _ rfl))
  · exact h.pure _ (endsBy_normal _)

theorem doLoop_alike (body : Stmt) (c : Expr) (line : Nat) (hc : (G i).part (.expr c))
    (hbody : (G i).part (.stmt body)) (hready : (G i).ready body) (hline : (G i).line line) :
    Rel i .statement (EndsBy fun j => j = .return_ && body.emits j)
      (doLoop host (n + 1) body c line) (doLoop host' (extra + n + 1) body c line) := by
  refine h.bind (h.settle (ih.statement body hbody hready)) fun e he => ?_
  cases e with
  | normal | continue_ =>
    refine h.bind (h.relax (h.setLine _ hline)) fun _ _ => ?_
    refine h.bind (h.relax (ih.expr c hc)) fun v _ => ?_
    split
    · exact h.bind (h.branch line) fun _ _ => ih.doLoop body c line hc hbody hready hline
    · exact h.pure _ (endsBy_normal _)
  | break_ => exact h.pure _ (endsBy_normal _)
  | return_ v => exact h.pure _ (endsBy_return (he _ rfl))

theorem holds_alike (c : Option Expr) (hc : ∀ e ∈ c, (G i).part (.expr e)) :
    Rel i .expression any (holds (c.map (expr host n)))
      (holds (c.map (expr host' (extra + n)))) := by
  cases c with
  | none => exact h.result _
  | some e => exact h.bind (ih.expr e (hc e rfl)) fun v _ => h.result _

theorem advance_alike (step : Option Expr) (line : Nat) (hstep : ∀ e ∈ step, (G i).part (.expr e))
    (hline : (G i).line line) :
    Rel i .expression any (advance line (step.map (expr host n)))
      (advance line (step.map (expr host' (extra + n)))) := by
  cases step with
  | none => exact h.result _
  | some e =>
    refine h.bind (h.setLine _ hline) fun _ _ => ?_
    exact h.bind (ih.expr e (hstep e rfl)) fun _ _ => h.result _

theorem forRounds_alike (c step : Option Expr) (body : Stmt) (line : Nat)
    (hc : ∀ e ∈ c, (G i).part (.expr e)) (hstep : ∀ e ∈ step, (G i).part (.expr e))
    (hbody : (G i).part (.stmt body)) (hready : (G i).ready body) (hline : (G i).line line) :
    Rel i .statement (EndsBy fun j => j = .return_ && body.emits j)
      (forRounds host (n + 1) c step body line)
      (forRounds host' (extra + n + 1) c step body line) := by
  have again := h.bind (h.branch line) fun _ _ =>
    ih.forRounds c step body line hc hstep hbody hready hline
  refine h.bind (h.relax (h.setLine _ hline)) fun _ _ => ?_
  refine h.bind (h.relax (holds_alike h ih c hc)) fun goesOn _ => ?_
  split
  · refine h.bind (h.settle (ih.statement body hbody hready)) fun e he => ?_
    cases e with
    | normal | continue_ =>
      exact h.bind (h.relax (advance_alike h ih step line hstep hline)) fun _ _ => again
    | break_ => exact h.pure _ (endsBy_normal _)
    | return_ v => exact h.pure _ (endsBy_return (he _ rfl))
  · exact h.pure _ (endsBy_normal _)

theorem forLoop_alike (init : Option Stmt) (c step : Option Expr) (body : Stmt) (line : Nat)
    (hinit : ∀ s ∈ init, (G i).part (.stmt s)) (hinitReady : ∀ s ∈ init, (G i).ready s)
    (hc : ∀ e ∈ c, (G i).part (.expr e)) (hstep : ∀ e ∈ step, (G i).part (.expr e))
    (hbody : (G i).part (.stmt body)) (hready : (G i).ready body) (hline : (G i).line line) :
    Rel i .statement (EndsBy fun j => j = .return_ && body.emits j)
      (forLoop host (n + 1) init c step body line)
      (forLoop host' (extra + n + 1) init c step body line) := by
  have rounds := ih.forRounds c step body line hc hstep hbody hready hline
  cases init with
  | none => exact rounds
  | some s =>
    have first := ih.statement s (hinit s rfl) (hinitReady s rfl)
    exact h.bind (h.settle first) fun _ _ => rounds

end Statements

theorem statement_alike (likeness : ∀ j, Likeness K G host host' extra Rel j)
    (ih : ∀ j, Alike (G j) host host' extra (Rel j) n) (s : Stmt) (hs : (G i).part (.stmt s))
    (hready : (G i).ready s) :
    Rel i .body (EndsBy (s.emits ·)) (statement host (n + 1) s)
      (statement host' (extra + n + 1) s) := by
  have h := likeness i
  have below (q : Part) (hq : q ∈ Part.ofStmt s) : (G i).part q :=
    h.hereditary (.stmt s) q hq hs
  have hline : (G i).line s.place.line := h.sites hs List.mem_cons_self
  have alone (s' : Stmt) (hs' : s' ∈ s.initial ∨ s' ∈ s.branches) : (G i).ready s' :=
    h.alone s' hs hs'
  -- The line is set and the statement announced in front of the cases, as the evaluator does it.
  refine h.begins s hs hready ?_
  cases s with
  | declare kind ds place =>
    have hlines : ∀ d ∈ ds, (G i).line d.place.line := fun d hd =>
      h.sites hs (List.mem_cons_of_mem _ (List.mem_map_of_mem hd))
    have hnames (hkind : kind ≠ .var) (d : Declarator) (hd : d ∈ ds) : (G i).binds d.name := by
      refine h.names hs ?_
      cases kind with
      | var => exact absurd rfl hkind
      | let_ | const => exact List.mem_map_of_mem hd
    exact h.weaken ((ih i).declarators kind ds below hlines hnames) fun c hc =>
      hc.mono fun _ hj => nomatch hj
  | function | empty => exact h.pure _ (endsBy_normal _)
  | expr e place =>
    refine h.bind (h.relax ((ih i).expr e (below _ (by simp [Part.ofStmt])))) fun v _ => ?_
    exact h.bind (h.setLastValue v) fun _ _ => h.pure _ (endsBy_normal _)
  | if_ c yes no place =>
    refine h.bind (h.relax ((ih i).expr c (below _ (by simp [Part.ofStmt])))) fun v _ => ?_
    split
    · have ran := (ih i).statement yes (below _ (by simp [Part.ofStmt]))
        (alone _ (by simp [Stmt.branches]))
      refine h.weaken (h.settle ran) fun c hc => hc.mono fun j hj => ?_
      simp [Stmt.emits, hj]
    · cases no with
      | none => exact h.pure _ (endsBy_normal _)
      | some no =>
        have ran := (ih i).statement no (below _ (by simp [Part.ofStmt]))
          (alone _ (by simp [Stmt.branches]))
        refine h.weaken (h.settle ran) fun c hc => hc.mono fun j hj => ?_
        simp [Stmt.emits, emitsElse, hj]
  | «while» c body place =>
    exact (ih i).whileLoop c body _ (below _ (by simp [Part.ofStmt]))
      (below _ (by simp [Part.ofStmt])) (alone _ (by simp [Stmt.branches])) hline
  | doWhile body c place =>
    exact (ih i).doLoop body c _ (below _ (by simp [Part.ofStmt])) (below _ (by simp [Part.ofStmt]))
      (alone _ (by simp [Stmt.branches])) hline
  | for_ init c step body place =>
    have inits (s' : Stmt) (hs' : s' ∈ init) : (G i).part (.stmt s') :=
      below _ (by simp [Part.ofStmt, Option.mem_def.mp hs'])
    have conditions (e : Expr) (he : e ∈ c) : (G i).part (.expr e) :=
      below _ (by simp [Part.ofStmt, Option.mem_def.mp he])
    have steps (e : Expr) (he : e ∈ step) : (G i).part (.expr e) :=
      below _ (by simp [Part.ofStmt, Option.mem_def.mp he])
    have repeated : (G i).part (.stmt body) := below _ (by simp [Part.ofStmt])
    dsimp only
    -- Only an initializer that declares opens a scope, and the loop then runs a stage further in.
    split
    · refine h.inBlockScope fun j hj _ => ?_
      have alone (s' : Stmt) := (likeness j).alone s' (hj.part _ hs)
      exact (ih j).forLoop init c step body place.line (fun s hs => hj.part _ (inits s hs))
        (fun s hs => alone s (.inl hs)) (fun e he => hj.part _ (conditions e he))
        (fun e he => hj.part _ (steps e he)) (hj.part _ repeated)
        (alone _ (.inr (by simp [Stmt.branches]))) (hj.line _ hline)
    · exact (ih i).forLoop init c step body place.line inits (fun s hs => alone s (.inl hs))
        conditions steps repeated (alone _ (by simp [Stmt.branches])) hline
  | block body place => exact (ih i).block body fun s hs => below _ (List.mem_map_of_mem hs)
  | return_ e place =>
    cases e with
    | none => exact h.pure _ fun j hj => by cases hj; rfl
    | some e =>
      refine h.bind (h.relax ((ih i).expr e (below _ (by simp [Part.ofStmt])))) fun v _ => ?_
      exact h.pure _ fun j hj => by cases hj; rfl
  | break_ | continue_ => exact h.pure _ fun j hj => by cases hj; rfl
  | throw e place =>
    refine h.relax (h.bind h.frame fun frame hframe => ?_)
    refine h.bind ((ih i).expr e (below _ (by simp [Part.ofStmt]))) fun v _ => ?_
    exact h.bind h.frame fun frame' hframe' => h.throwAt _ v hframe'.1 hframe.2
  | try_ body handler finalizer place =>
    refine (ih i).tryBlock body handler finalizer
      (fun s hs => below _ (by simp [Part.ofStmt, Part.ofBody, hs])) ?_ ?_ ?_
    · intro c hc p hp
      exact below _ (by simp [Part.ofStmt, Option.mem_def.mp hc, hp])
    · intro c hc
      exact h.names hs (by simp [Stmt.declaredNames, Option.mem_def.mp hc])
    · intro b hb s hs
      exact below _ (by simp [Part.ofStmt, Part.ofBody, Option.mem_def.mp hb, hs])

/-- Whatever is run, two runs are alike. -/
theorem alike (h : ∀ i, Likeness K G host host' extra Rel i) (n : Nat) (i : ι) :
    Alike (G i) host host' extra (Rel i) n := by
  -- On the fuel, for all worlds at once: a function that is called has a body from another one.
  induction n generalizing i with
  | zero =>
    constructor <;> intros <;> refine (h i).outOfFuel _ _ fun hextra => ?_ <;> subst hextra <;> rfl
  | succ n ih =>
    exact {
      expr := expr_alike (h i) (ih i)
      exprs := exprs_alike (h i) (ih i)
      sequence := sequence_alike (h i) (ih i)
      entries := entries_alike (h i) (ih i)
      unary := unary_alike (h i) (ih i)
      reference := reference_alike (h i) (ih i)
      update := update_alike (h i) (ih i)
      assign := assign_alike (h i) (ih i)
      call := call_alike (h i) (ih i)
      callMethod := callMethod_alike (h i) (ih i)
      callValue := callValue_alike h ih
      load := load_alike h ih
      program := program_alike h ih
      statements := statements_alike (h i) (ih i)
      block := block_alike h ih
      statement := statement_alike h ih
      declarators := declarators_alike (h i) (ih i)
      whileLoop := whileLoop_alike (h i) (ih i)
      doLoop := doLoop_alike (h i) (ih i)
      forLoop := forLoop_alike (h i) (ih i)
      forRounds := forRounds_alike (h i) (ih i)
      tryBlock := tryBlock_alike h ih }

end ScriptShell.Evaluation
