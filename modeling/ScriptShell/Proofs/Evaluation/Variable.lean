import ScriptShell.Proofs.Library.Likeness

namespace ScriptShell.Evaluation

variable {σ τ : Type} {K : Closure → Prop} {G : Ground} {host : Host σ} {host' : Host τ}
  {Rel : Level → {α : Type} → (α → Prop) → Eval σ α → Eval τ α → Prop}

section Sequencing

variable (h : Sequencing K Rel) {l : Level}
include h

theorem setProperty_alike (id : ObjectId) (key : String) (v : Value) :
    Rel .expression any (setProperty id key v) (setProperty id key v) := by
  refine h.bind (h.ask _ (by simp)) fun change ⟨heap, hc⟩ => ?_
  refine h.step (isStep_modifyObject id change ?_)
  exact Heap.callable?_propertyChange hc

theorem bindFunction_alike (host : Host σ) (host' : Host τ) (f : FunctionDef)
    (makes : Rel l any (makeClosure f) (makeClosure f))
    (declares : ∀ name ∈ f.name, ∀ v,
      Rel l any (declareLocal name v true) (declareLocal name v true))
    (told : ∀ v, Rel l any (observe host (.functionBound f v))
      (observe host' (.functionBound f v))) :
    Rel l any (bindFunction host f) (bindFunction host' f) := by
  refine h.bind makes fun v _ => ?_
  cases hname : f.name with
  | none => exact h.result _
  | some name => exact h.bind (declares name hname v) fun _ _ => told v

theorem hoistFunctions_alike {T : Part → Prop} (host : Host σ) (host' : Host τ)
    (makes : ∀ f, T (.function f) → Rel l any (makeClosure f) (makeClosure f))
    (told : ∀ f v, Rel l any (observe host (.functionBound f v))
      (observe host' (.functionBound f v)))
    (body : List Stmt) (hbody : ∀ s ∈ body, T (.stmt s)) (hT : OwnHereditary T)
    (declares : ∀ s ∈ body, ∀ name ∈ s.declaredNames, ∀ v,
      Rel l any (declareLocal name v true) (declareLocal name v true)) :
    Rel l any (hoistFunctions host body) (hoistFunctions host' body) := by
  induction body with
  | nil => exact h.result _
  | cons s rest ih =>
    obtain ⟨hs, hrest⟩ := List.forall_mem_cons.mp hbody
    obtain ⟨declares, hdeclares⟩ := List.forall_mem_cons.mp declares
    have ih := ih hrest hdeclares
    cases s with
    | function f place =>
      have binds := bindFunction_alike h host host' f (makes f (hT _ _ List.mem_cons_self hs))
        (fun name hname => declares name (Option.mem_toList.mpr hname)) (told f)
      exact h.bind binds fun _ _ => ih
    | _ => exact ih

end Sequencing

section Naming

variable (h : Naming K Rel) {l : Level}
include h

theorem declareLocal_alike (name : String) (v : Value) (isMutable : Bool) :
    Rel l any (declareLocal name v isMutable) (declareLocal name v isMutable) := by
  refine h.bind (h.step isStep_frame) fun frame _ => ?_
  cases frame.scope with
  | some scope => exact h.naming (isNaming_declareIn _ _ _ _)
  | none => exact h.step (isStep_bindGlobal name v isMutable)

theorem declareParameters_alike (scope : ScopeId) (names : List String) (args : List Value) :
    Rel l any (declareParameters scope names args)
      (declareParameters scope names args) := by
  induction names generalizing args with
  | nil => exact h.result _
  | cons name names ih => exact h.bind (h.naming (isNaming_declareIn _ _ _ _)) fun _ _ => ih _

theorem fillScope_alike (scope : ScopeId) (callee : Value) (c : Closure) (args : List Value) :
    Rel l any (fillScope scope callee c args) (fillScope scope callee c args) := by
  have arguments : Rel l any
      (do
        declareParameters scope c.def_.params args
        if !c.def_.params.contains "arguments" then
          let v ← newArray args.toArray
          declareIn scope "arguments" v true
        hoistIn scope c.def_.varNames)
      (do
        declareParameters scope c.def_.params args
        if !c.def_.params.contains "arguments" then
          let v ← newArray args.toArray
          declareIn scope "arguments" v true
        hoistIn scope c.def_.varNames) := by
    refine h.bind (declareParameters_alike h scope _ _) fun _ _ => ?_
    split
    · refine h.bind (h.newArray _) fun v _ => ?_
      exact h.bind (h.naming (isNaming_declareIn _ _ _ _)) fun _ _ =>
        h.naming (isNaming_hoistIn _ _)
    · exact h.naming (isNaming_hoistIn _ _)
  unfold fillScope
  cases c.def_.name with
  | none => exact arguments
  | some name => exact h.bind (h.naming (isNaming_declareIn _ _ _ _)) fun _ _ => arguments

theorem openCall_alike (callee : Value) (c : Closure) (args : List Value) :
    Rel l any (openCall callee c args) (openCall callee c args) := by
  refine h.bind (h.step (isStep_openScope true c.scope)) fun scope _ => ?_
  exact h.bind (fillScope_alike h scope callee c args) fun _ _ => h.result scope

end Naming

section Dealing

variable (h : Dealing K G host host' Rel)
include h

theorem lookup_alike (name : String) : Rel .expression any (lookup host name)
    (lookup host' name) := by
  refine h.bind (h.step (isStep_lookup? name)) fun v _ => ?_
  cases v with
  | some v => exact h.result v
  | none => exact h.raise _ _ _

theorem readVariable_alike (name : String) : Rel .expression any (readVariable host name)
    (readVariable host' name) :=
  h.bind (h.accesses (.reads name) rfl) fun _ _ => lookup_alike h name

theorem readVariable?_alike (name : String) : Rel .expression any (readVariable? host name)
    (readVariable? host' name) :=
  h.bind (h.accesses (.reads name) rfl) fun _ _ => h.step (isStep_lookup? name)

theorem putProperty_alike (base : Value) (key : String) (v : Value) (description : String) :
    Rel .expression any (putProperty host base key v description)
      (putProperty host' base key v description) := by
  cases base with
  | undefined | null => exact h.raise _ _ _
  | object id => exact setProperty_alike h.toSequencing id key v
  | bool | number | text => exact h.result _

theorem assignGlobally_alike (name : String) (v : Value) :
    Rel .expression any (assignGlobally host name v) (assignGlobally host' name v) := by
  refine h.bind (h.step (isStep_assignGlobal name v)) fun r _ => ?_
  cases r with
  | done => exact h.result _
  | constant => exact h.raise _ _ _
  | sealedOff => exact h.strictWarning _
  | notFound => exact h.bind (h.strictWarning _) fun _ _ => h.step (isStep_defineGlobal name v)

theorem assignVariable_alike (name : String) (v : Value) :
    Rel .expression any (assignVariable host name v) (assignVariable host' name v) := by
  refine h.bind (h.step isStep_frame) fun frame _ => ?_
  refine h.bind (h.step (isStep_assignLocal _ name v)) fun r _ => ?_
  cases r with
  | done => exact h.result _
  | constant => exact h.raise _ _ _
  | sealedOff | notFound => exact assignGlobally_alike h name v

theorem writeVariable_alike (name : String) (v : Value) :
    Rel .expression any (writeVariable host name v) (writeVariable host' name v) :=
  h.bind (h.accesses (.assigns name v) rfl) fun _ _ => assignVariable_alike h name v

theorem getProperty_alike (base : Value) (key description : String) :
    Rel .expression any (getProperty host base key description)
      (getProperty host' base key description) := by
  cases base with
  | undefined | null => exact h.raise _ _ _
  | text s => exact h.result _
  | bool | number => exact h.result _
  | object id =>
    refine h.bind (h.ownProperty id key) fun v _ => ?_
    cases v with
    | some v => exact h.result _
    | none => exact h.bind (h.strictWarning _) fun _ _ => h.result _

theorem getReference_alike (target : Expr) (r : Reference) :
    Rel .expression any (getReference host target r) (getReference host' target r) := by
  cases r with
  | «variable» name => exact readVariable_alike h name
  | property base key => exact getProperty_alike h base key _

theorem putReference_alike (target : Expr) (v : Value) (r : Reference) :
    Rel .expression any (putReference host target v r) (putReference host' target v r) := by
  cases r with
  | «variable» name => exact writeVariable_alike h name v
  | property base key => exact putProperty_alike h base key v _

end Dealing

theorem reportWarnings_alike (h : Sequencing K Rel)
    (report : ∀ r, r.isWarning = true → Rel .expression any (report host r) (report host' r))
    (warnings : List ParseWarning) (source : String) (filename : Option String) :
    Rel .expression any (reportWarnings host warnings source filename)
      (reportWarnings host' warnings source filename) := by
  unfold reportWarnings
  induction warnings with
  | nil => exact h.result _
  | cons w warnings ih =>
    exact h.bind (report _ (Report.isWarning_warning w.remark.message w.remark.isStrict)) fun _ _ =>
      ih

end ScriptShell.Evaluation
