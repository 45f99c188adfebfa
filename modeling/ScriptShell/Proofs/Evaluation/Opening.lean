import ScriptShell.Proofs.Evaluation.Running
import ScriptShell.Proofs.Scopes.Inside

namespace ScriptShell

def FunctionDef.openingNames (f : FunctionDef) : List String :=
  f.name.toList ++ (f.params ++ "arguments" :: f.varNames)

namespace Evaluation

variable {σ : Type} {id : ScopeId} {names more : String → Prop}

def Fills (id : ScopeId) (names : String → Prop) (x : Eval σ Unit) : Prop :=
  ∀ s : State σ, id < s.runtime.scopes.scopes.size → ∃ runtime : Runtime,
    x s = .ok () { s with runtime } ∧ s.runtime.scopes.Named runtime.scopes id names

theorem fills_pure : Fills (σ := σ) id (fun _ => False) (pure ()) :=
  fun s _ => ⟨s.runtime, rfl, .refl _ id⟩

theorem Fills.bind {x y : Eval σ Unit} (hx : Fills id names x) (hy : Fills id more y) :
    Fills id (fun name => names name ∨ more name) (x >>= fun _ => y) := by
  intro s hid
  obtain ⟨r, hr, named⟩ := hx s hid
  obtain ⟨r', hr', named'⟩ := hy { s with runtime := r } (named.size ▸ hid)
  refine ⟨r', ?_, named.trans named'⟩
  rw [bind_apply, hr]
  exact hr'

theorem Fills.congr {x : Eval σ Unit} (hx : Fills id names x)
    (hnames : ∀ name, names name ↔ more name) : Fills id more x := by
  intro s hid
  obtain ⟨r, hr, named⟩ := hx s hid
  exact ⟨r, hr, named.congr hnames⟩

theorem fills_declareIn (id : ScopeId) (name : String) (v : Value) (isMutable : Bool) :
    Fills (σ := σ) id (· = name) (declareIn id name v isMutable) :=
  fun s hid => ⟨{ s.runtime with scopes := s.runtime.scopes.declare id name v isMutable }, rfl,
    Scopes.named_declare hid name v isMutable⟩

theorem fills_hoistIn (id : ScopeId) (names : List String) :
    Fills (σ := σ) id (· ∈ names) (hoistIn id names) :=
  fun s hid =>
    ⟨{ s.runtime with scopes := names.foldl (fun s name => s.hoist id name) s.runtime.scopes },
      rfl, Scopes.named_hoists hid names⟩

theorem fills_declareParameters (id : ScopeId) (params : List String) (args : List Value) :
    Fills (σ := σ) id (· ∈ params) (declareParameters id params args) := by
  induction params generalizing args with
  | nil => exact fills_pure.congr fun _ => by simp
  | cons name params ih =>
    exact ((fills_declareIn id name _ true).bind (ih args.tail)).congr fun _ => by simp

theorem fills_arguments (id : ScopeId) (args : List Value) :
    Fills (σ := σ) id (· = "arguments")
      (do
        let v ← newArray args.toArray
        declareIn id "arguments" v true) :=
  fun _ hid => ⟨_, rfl, Scopes.named_declare hid "arguments" _ true⟩

theorem fills_fillScope (id : ScopeId) (callee : Value) (c : Closure) (args : List Value) :
    Fills (σ := σ) id (· ∈ c.def_.openingNames) (fillScope id callee c args) := by
  have parameters : Fills (σ := σ) id (· ∈ c.def_.params ++ "arguments" :: c.def_.varNames)
      (do
        declareParameters id c.def_.params args
        if !c.def_.params.contains "arguments" then
          let v ← newArray args.toArray
          declareIn id "arguments" v true
        hoistIn id c.def_.varNames) := by
    have declared := fills_declareParameters (σ := σ) id c.def_.params args
    have hoisted := fills_hoistIn (σ := σ) id c.def_.varNames
    by_cases harguments : "arguments" ∈ c.def_.params
    · simp only [List.contains_eq_mem, harguments, decide_true, Bool.not_true, Bool.false_eq_true,
        if_false]
      refine (declared.bind hoisted).congr fun name => ?_
      have (hname : name = "arguments") : name ∈ c.def_.params := hname ▸ harguments
      simp only [List.mem_append, List.mem_cons]
      tauto
    · simp only [List.contains_eq_mem, harguments, decide_false, Bool.not_false, if_true]
      refine (declared.bind ((fills_arguments id args).bind hoisted)).congr fun name => ?_
      simp only [List.mem_append, List.mem_cons]
  unfold fillScope
  cases hname : c.def_.name with
  | none => exact parameters.congr fun name => by simp [FunctionDef.openingNames, hname]
  | some own =>
    refine ((fills_declareIn id own callee true).bind parameters).congr fun name => ?_
    simp [FunctionDef.openingNames, hname]

/-- Opening a call adds one scope, a function scope below that of the function, which binds just the
names that a call starts with. -/
structure Opens (c : Closure) (s s' : Scopes) : Prop where
  size : s'.scopes.size = s.scopes.size + 1
  others : s.Extends (fun _ _ => False) s'
  parent? : s'.parent? s.scopes.size = c.scope
  isFunctionScope : s'.isFunctionScope s.scopes.size = true
  bound : ∀ name,
    (s'.binding? s.scopes.size name).isSome = true ↔ name ∈ c.def_.openingNames

theorem openCall_apply (callee : Value) (c : Closure) (args : List Value) (s : State σ) :
    ∃ runtime : Runtime,
      openCall callee c args s = .ok s.runtime.scopes.scopes.size { s with runtime } ∧
        Opens c s.runtime.scopes runtime.scopes := by
  let opened : State σ :=
    { s with runtime := { s.runtime with scopes := (s.runtime.scopes.open_ c.scope true).2 } }
  have hsize : opened.runtime.scopes.scopes.size = s.runtime.scopes.scopes.size + 1 :=
    s.runtime.scopes.size_open_ c.scope true
  have hnew := s.runtime.scopes.getElem?_open_ c.scope true s.runtime.scopes.scopes.size
  rw [if_pos rfl] at hnew
  obtain ⟨runtime, hrun, named⟩ := fills_fillScope s.runtime.scopes.scopes.size callee c args opened
    (hsize ▸ Nat.lt_succ_self _)
  refine ⟨runtime, ?_, named.size.trans hsize, ?_, ?_, ?_, fun name => ?_⟩
  · change (fillScope s.runtime.scopes.scopes.size callee c args >>= fun _ => _) opened = _
    rw [bind_apply, hrun]
    rfl
  · refine ((Scopes.extends_open_ _ c.scope true).trans named.extends).mono ?_
    exact fun id hid _ hanew => Nat.ne_of_lt hid hanew.1
  · rw [named.parent?, Scopes.parent?, hnew]
    rfl
  · rw [named.isFunctionScope, Scopes.isFunctionScope, hnew]
    rfl
  · rw [named.bound, Scopes.binding?, hnew]
    change (Dict.empty.get? name).isSome = true ∨ _ ↔ _
    rw [Dict.get?_empty]
    simp

end Evaluation

end ScriptShell
