import ScriptShell.Proofs.Evaluation.Coupling
import ScriptShell.Proofs.Host.Trace
import ScriptShell.Proofs.Scopes

namespace ScriptShell

variable {name : String} {v : Value}

namespace Globals

theorem get?_define (g : Globals) (name name' : String) (v : Value) (isMutable : Bool) :
    (g.define name v isMutable).get? name' = if name = name' then some v else g.get? name' := by
  unfold get? define
  rw [Dict.get?_insert]
  by_cases hname : name = name'
  · rw [if_pos hname, if_pos hname]
  · rw [if_neg hname, if_neg hname]
    rfl

theorem assign_of_done {g : Globals} (hdone : (g.assign name v).1 = .done) :
    (g.assign name v).2 = g.define name v true := by
  unfold assign at hdone ⊢
  split at hdone
  case h_1 b hb =>
    split at hdone
    case isTrue hmutable => rw [if_pos hmutable]
    case isFalse => cases hdone
  case h_2 => split at hdone <;> cases hdone

end Globals

namespace Runtime

variable {r : Runtime} {scope : Option ScopeId}

def local? (r : Runtime) (scope : Option ScopeId) (name : String) : Option (ScopeId × Binding) :=
  scope.bind fun id => r.scopes.find? id name

/-- The scope that a name belongs to where it is used; without one it belongs to the globals. -/
def home? (r : Runtime) (scope : Option ScopeId) (name : String) : Option ScopeId :=
  (r.local? scope name).map (·.1)

/-- A name that means a sealed global where it is used. -/
structure IsSealed (r : Runtime) (scope : Option ScopeId) (name : String) : Prop where
  home? : r.home? scope name = none
  top : r.globals.top.contains name = false
  below : ∃ below, r.globals.below = some below ∧ below.contains name = true

theorem home?_of_local? {found : Option (ScopeId × Binding)}
    (hlocal : r.local? scope name = found) : r.home? scope name = found.map (·.1) := by
  rw [home?, hlocal]

theorem lookup?_eq (r : Runtime) (scope : Option ScopeId) (name : String) :
    Evaluation.Runtime.lookup? r scope name =
      ((r.local? scope name).map (·.2.value)).or (r.globals.get? name) := by
  unfold Evaluation.Runtime.lookup? local? Scopes.lookup?
  cases scope with
  | none => rfl
  | some id =>
    rw [Option.bind_some, Option.bind_some]
    cases r.scopes.find? id name <;> rfl

theorem binding?_of_local? {owner : ScopeId} {b : Binding}
    (hlocal : r.local? scope name = some (owner, b)) : r.scopes.binding? owner name = some b := by
  obtain ⟨id, -, hfound⟩ := Option.bind_eq_some_iff.mp hlocal
  exact Scopes.binding?_of_find? hfound

/-- What is read once a binding of a scope has got a value. -/
theorem lookup?_declare {owner : ScopeId} {b : Binding}
    (hb : r.scopes.binding? owner name = some b) (v : Value) (scope : Option ScopeId)
    (name' : String) :
    Evaluation.Runtime.lookup? { r with scopes := r.scopes.declare owner name v true } scope name' =
      if name' = name ∧ r.home? scope name = some owner then some v
      else Evaluation.Runtime.lookup? r scope name' := by
  have rebound := Scopes.rebound_declare (Scopes.lt_size_of_binding? hb) name v
  have hlocal : ({ r with scopes := r.scopes.declare owner name v true } : Runtime).local? scope
      name' = (r.local? scope name').map fun found =>
        if found.1 = owner ∧ name' = name then (owner, ⟨v, true⟩) else found := by
    cases scope with
    | none => rfl
    | some id => exact rebound.find?_eq hb id name'
  rw [lookup?_eq, lookup?_eq, hlocal, home?]
  cases hfound : r.local? scope name' with
  | none =>
    rw [if_neg fun h => by rw [← h.1, hfound] at h; cases h.2]
    rfl
  | some found => 
    by_cases hname : name' = name
    · subst hname
      by_cases howner : found.1 = owner <;> simp [hfound, howner]
    · simp [hname]

theorem lookup?_define (r : Runtime) (name : String) (v : Value) (scope : Option ScopeId)
    (name' : String) :
    Evaluation.Runtime.lookup? { r with globals := r.globals.define name v true } scope name' =
      if name' = name ∧ r.home? scope name = none then some v
      else Evaluation.Runtime.lookup? r scope name' := by
  rw [lookup?_eq, lookup?_eq, home?, Globals.get?_define]
  change ((r.local? scope name').map _).or _ = _
  by_cases hname : name' = name
  · subst hname
    cases r.local? scope name' <;> simp
  · simp [hname, Ne.symm hname]

end Runtime

namespace Evaluation

variable {σ : Type} {host : Host σ} {s t : State σ}

theorem lookup_of_lookup? (host : Host σ) (s : State σ)
    (hv : Runtime.lookup? s.runtime s.frame.scope name = some v) :
    lookup host name s = .ok v s := by
  have hread : lookup? name s = .ok (some v) s := congrArg (EStateM.Result.ok · s) hv
  unfold lookup
  rw [bind_apply, hread]
  rfl

/-- The variables of two states are the same. -/
structure SameVariables (s t : State σ) : Prop where
  scopes : t.runtime.scopes = s.runtime.scopes
  globals : t.runtime.globals = s.runtime.globals
  scope : t.frame.scope = s.frame.scope

theorem constantError_apply (host : Host σ) (name : String) (s : State σ) :
    ∃ w file line t, (constantError host name s : EStateM.Result Stop (State σ) Unit) =
      .error (.thrown w file line) t ∧ SameVariables s t :=
  ⟨_, _, _, _, rfl, rfl, rfl, rfl⟩

theorem assignGlobal_apply (name : String) (v : Value) (s : State σ) :
    assignGlobal name v s = .ok (s.runtime.globals.assign name v).1
      { s with runtime := { s.runtime with globals := (s.runtime.globals.assign name v).2 } } :=
  rfl

theorem assignGlobally_of_done (hr : (s.runtime.globals.assign name v).1 = .done) :
    assignGlobally host name v s = .ok () { s with
      runtime := { s.runtime with globals := s.runtime.globals.define name v true } } := by
  unfold assignGlobally
  rw [bind_apply, assignGlobal_apply, hr, Globals.assign_of_done hr]
  rfl

theorem assignGlobal_of_ne_done (hr : (s.runtime.globals.assign name v).1 ≠ .done) :
    assignGlobal name v s = .ok (s.runtime.globals.assign name v).1 s := by
  rw [assignGlobal_apply, Globals.assign_eq_of_ne_done hr]

theorem assignGlobally_of_constant (hr : (s.runtime.globals.assign name v).1 = .constant) :
    assignGlobally host name v s = constantError host name s := by
  unfold assignGlobally
  rw [bind_apply, assignGlobal_of_ne_done (by rw [hr]; decide), hr]

theorem assignGlobally_of_sealedOff (hr : (s.runtime.globals.assign name v).1 = .sealedOff) :
    assignGlobally host name v s = strictWarning host (name ++ " is read-only") s := by
  unfold assignGlobally
  rw [bind_apply, assignGlobal_of_ne_done (by rw [hr]; decide), hr]

theorem assignGlobally_of_notFound (hr : (s.runtime.globals.assign name v).1 = .notFound) :
    assignGlobally host name v s =
      (do
        strictWarning host ("assignment to undeclared variable " ++ name)
        defineGlobal name v) s := by
  unfold assignGlobally
  rw [bind_apply, assignGlobal_of_ne_done (by rw [hr]; decide), hr]

theorem assignVariable_of_assignLocal {r : Assigned}
    (hr : assignLocal s.frame.scope name v s = .ok r t) :
    assignVariable host name v s =
      (if r = .done then pure () else if r = .constant then constantError host name
      else assignGlobally host name v : Eval σ Unit) t := by
  unfold assignVariable
  rw [bind_apply]
  change (assignLocal s.frame.scope name v >>= _) s = _
  rw [bind_apply, hr]
  cases r <;> rfl

theorem assignVariable_of_not_local (hlocal : s.runtime.local? s.frame.scope name = none) :
    assignVariable host name v s = assignGlobally host name v s := by
  have hr : assignLocal s.frame.scope name v s = .ok .notFound s := by
    unfold assignLocal
    unfold Runtime.local? at hlocal
    cases hscope : s.frame.scope with
    | none => rfl
    | some id =>
      rw [hscope, Option.bind_some] at hlocal
      have hassign : s.runtime.scopes.assign id name v = (.notFound, s.runtime.scopes) := by
        rw [Scopes.assign, hlocal]
      exact congrArg (fun a : Assigned × Scopes =>
        EStateM.Result.ok a.1 { s with runtime := { s.runtime with scopes := a.2 } }) hassign
  rw [assignVariable_of_assignLocal hr, if_neg nofun, if_neg nofun]

theorem assignVariable_of_local {owner : ScopeId} {b : Binding}
    (hlocal : s.runtime.local? s.frame.scope name = some (owner, b)) :
    assignVariable host name v s =
      if b.isMutable then .ok () { s with
        runtime := { s.runtime with scopes := s.runtime.scopes.declare owner name v true } }
      else constantError host name s := by
  obtain ⟨id, hscope, hfound⟩ := Option.bind_eq_some_iff.mp hlocal
  have hr : assignLocal s.frame.scope name v s =
      .ok (s.runtime.scopes.assign id name v).1 { s with
        runtime := { s.runtime with scopes := (s.runtime.scopes.assign id name v).2 } } := by
    rw [hscope]
    rfl
  rw [assignVariable_of_assignLocal hr, Scopes.assign, hfound]
  cases hmutable : b.isMutable <;> simp only [hmutable] <;> rfl

/-- What becomes of an assignment, by what the name means where it is made. -/
inductive Assigning (host : Host σ) (name : String) (v : Value) (s : State σ) :
    EStateM.Result Stop (State σ) Unit → Prop where
  /-- The nearest binding on the chain of scopes has got the value. -/
  | inScope {owner : ScopeId} {b : Binding}
      (hlocal : s.runtime.local? s.frame.scope name = some (owner, b)) :
      Assigning host name v s (.ok () { s with
        runtime := { s.runtime with scopes := s.runtime.scopes.declare owner name v true } })
  /-- The binding at the top of the globals has got the value, a new one if there was none. -/
  | inGlobals {host' : σ} (hlocal : s.runtime.local? s.frame.scope name = none)
      (hopen : ¬ s.runtime.IsSealed s.frame.scope name) :
      Assigning host name v s (.ok ()
        ⟨{ s.runtime with globals := s.runtime.globals.define name v true }, s.frame, host'⟩)
  /-- A sealed global was left as it was. -/
  | sealedOff {host' : σ} (hsealed : s.runtime.IsSealed s.frame.scope name) :
      Assigning host name v s (.ok () ⟨s.runtime, s.frame, host'⟩)
  /-- A constant was left as it was. -/
  | constant {w : Value} {file : Option String} {line : Nat} {t : State σ}
      (ht : SameVariables s t) : Assigning host name v s (.error (.thrown w file line) t)

theorem assigning (host : Host σ) (name : String) (v : Value) (s : State σ) :
    Assigning host name v s (assignVariable host name v s) := by
  obtain ⟨w, file, line, t, hconstant, ht⟩ := constantError_apply host name s
  -- A name of a scope decides first; without one the globals answer in four ways.
  cases hlocal : s.runtime.local? s.frame.scope name with
  | some found =>
    obtain ⟨owner, b⟩ := found
    rw [assignVariable_of_local hlocal]
    cases b.isMutable with
    | true => exact .inScope hlocal
    | false => exact hconstant ▸ .constant ht
  | none =>
    have hopen (hr : (s.runtime.globals.assign name v).1 ≠ .sealedOff) :
        ¬ s.runtime.IsSealed s.frame.scope name :=
      fun h => hr (Globals.assign_sealedOff_iff.mpr ⟨h.top, h.below⟩)
    rw [assignVariable_of_not_local hlocal]
    cases hr : (s.runtime.globals.assign name v).1 with
    | done =>
      rw [assignGlobally_of_done hr]
      exact .inGlobals hlocal (hopen (by rw [hr]; decide))
    | constant =>
      rw [assignGlobally_of_constant hr]
      exact hconstant ▸ .constant ht
    | sealedOff =>
      obtain ⟨htop, hbelow⟩ := Globals.assign_sealedOff_iff.mp hr
      have hsealed : s.runtime.IsSealed s.frame.scope name :=
        ⟨Runtime.home?_of_local? hlocal, htop, hbelow⟩
      rw [assignGlobally_of_sealedOff hr, strictWarning_apply]
      split <;> exact .sealedOff hsealed
    | notFound =>
      have hopen := hopen (by rw [hr]; decide)
      rw [assignGlobally_of_notFound hr]
      simp only [bind_apply, strictWarning_apply]
      split <;> exact .inGlobals hlocal hopen

theorem lookup?_of_assignVariable (ht : assignVariable host name v s = .ok () t)
    (hopen : ¬ s.runtime.IsSealed s.frame.scope name) (scope : Option ScopeId) (name' : String) :
    Runtime.lookup? t.runtime scope name' =
      if name' = name ∧ s.runtime.home? scope name = s.runtime.home? s.frame.scope name then some v
      else Runtime.lookup? s.runtime scope name' := by
  have hassigning := assigning host name v s
  rw [ht] at hassigning
  cases hassigning with
  | inScope hlocal =>
    rw [Runtime.home?_of_local? hlocal]
    exact Runtime.lookup?_declare (Runtime.binding?_of_local? hlocal) v scope name'
  | inGlobals hlocal =>
    rw [Runtime.home?_of_local? hlocal]
    exact Runtime.lookup?_define s.runtime name v scope name'
  | sealedOff hsealed => exact absurd hsealed hopen

theorem scope_of_assignVariable (ht : assignVariable host name v s = .ok () t) :
    t.frame.scope = s.frame.scope := by
  have hassigning := assigning host name v s
  rw [ht] at hassigning
  cases hassigning <;> rfl

theorem lookup_of_assignVariable (ht : assignVariable host name v s = .ok () t)
    (hopen : ¬ s.runtime.IsSealed s.frame.scope name) : lookup host name t = .ok v t := by
  apply lookup_of_lookup?
  rw [scope_of_assignVariable ht, lookup?_of_assignVariable ht hopen, if_pos ⟨rfl, rfl⟩]

theorem runtime_of_assignVariable_sealed (ht : assignVariable host name v s = .ok () t)
    (hsealed : s.runtime.IsSealed s.frame.scope name) : t.runtime = s.runtime := by
  have hassigning := assigning host name v s
  rw [ht] at hassigning
  cases hassigning with
  | inScope hlocal => cases (Runtime.home?_of_local? hlocal).symm.trans hsealed.home?
  | inGlobals _ hopen => exact absurd hsealed hopen
  | sealedOff => rfl

theorem sameVariables_of_assignVariable {e : Stop}
    (ht : assignVariable host name v s = .error e t) : SameVariables s t := by
  have hassigning := assigning host name v s
  rw [ht] at hassigning
  cases hassigning with
  | constant ht => exact ht

end Evaluation

/-- Variables are read back. In any store of scopes that was made by opening, declaring, hoisting,
assigning and clearing, no parents come back to where they began, and from every scope a chain
leads to a last one, along which all is found. An assignment does what the nearest binding on the
chain allows, which is at most to give a value to that one cell; this is read from then on wherever
that binding is the nearest one, and elsewhere what was read before. In any state of a script, what
was assigned to a variable is what is read, there and wherever else the name means this variable,
and all else is read as before; but a name that means a sealed global leaves everything as it was,
and so does an assignment that ends in an error with all variables. -/
theorem variables_read_back {σ : Type} (host : Host σ) (name : String) (v : Value) :
    (∀ s : Scopes, s.Made →
      (∀ id, ¬ Relation.TransGen (fun i j => s.parent? i = some j) id id) ∧
        ∀ id < s.scopes.size, ∃ ids, s.Searched id ids ∧
          s.Assigns ids name v (s.assign id name v)) ∧
      ∀ s : Evaluation.State σ,
        (∀ t, Evaluation.assignVariable host name v s = .ok () t →
          (s.runtime.IsSealed s.frame.scope name → t.runtime = s.runtime) ∧
            (¬ s.runtime.IsSealed s.frame.scope name →
              Evaluation.lookup host name t = .ok v t ∧
                ∀ scope name', Evaluation.Runtime.lookup? t.runtime scope name' =
                  if name' = name ∧
                    s.runtime.home? scope name = s.runtime.home? s.frame.scope name then some v
                  else Evaluation.Runtime.lookup? s.runtime scope name')) ∧
          ∀ e t, Evaluation.assignVariable host name v s = .error e t →
            Evaluation.SameVariables s t := by
  refine ⟨fun s made => ⟨made.ordered.acyclic, fun id hid => ?_⟩, fun s => ⟨fun t ht => ?_, ?_⟩⟩
  -- Parents are older than their scopes: a chain falls, so it ends and fits the number of scopes.
  · obtain ⟨ids, hids, hlength⟩ := made.ordered.exists_chain id
    have hfits : ids.length ≤ s.scopes.size := Nat.le_trans hlength hid
    exact ⟨ids, hids.searched hfits, hids.assigns hfits name v⟩
  · refine ⟨Evaluation.runtime_of_assignVariable_sealed ht, fun hopen => ⟨?_, ?_⟩⟩
    · exact Evaluation.lookup_of_assignVariable ht hopen
    · exact Evaluation.lookup?_of_assignVariable ht hopen
  · exact fun e t => Evaluation.sameVariables_of_assignVariable

def nestedScopes : Scopes :=
  (((Scopes.empty.open_ none true).2.declare 0 "x" .null true).open_ (some 0) false).2

theorem made_nestedScopes : nestedScopes.Made := by
  refine .open_ (some 0) false (.declare 0 "x" .null true (.open_ none true .empty nofun)) ?_
  rintro id ⟨⟩
  exact Nat.one_pos

def inBlock : Evaluation.State Recording :=
  ⟨{ Runtime.initial .bare with
      scopes := nestedScopes
      globals := (Globals.empty.define "s" .null true).close.2.define "c" .null false },
    ⟨some 1, none, 1, .undefined⟩, .start ⟨none, none⟩⟩

/-- What a block assigns is read in the function around it, and by a script in the block itself; the
sealed global and the constant stay as they are. -/
theorem variables_read_back_nestedScopes :
    (nestedScopes.Made ∧ 1 < nestedScopes.scopes.size ∧
      (nestedScopes.assign 1 "x" (.bool true)).2.lookup? 0 "x" = some (.bool true) ∧
      nestedScopes.functionScope 1 = 0) ∧
    (∃ t, Evaluation.assignVariable recorder "x" (.bool true) inBlock = .ok () t ∧
      ¬ inBlock.runtime.IsSealed (some 1) "x" ∧
      Evaluation.lookup recorder "x" t = .ok (.bool true) t) ∧
    (∃ t, Evaluation.assignVariable recorder "s" (.bool true) inBlock = .ok () t ∧
      inBlock.runtime.IsSealed (some 1) "s" ∧ t.runtime = inBlock.runtime) ∧
    ∃ e t, Evaluation.assignVariable recorder "c" (.bool true) inBlock = .error e t ∧
      Evaluation.SameVariables inBlock t := by
  refine ⟨?store, ?block, ?sealed, ?constant⟩
  case store =>
    have hsize : 1 < nestedScopes.scopes.size := Nat.lt_succ_self 1
    have hchain : nestedScopes.Chain 1 [1, 0] := .link rfl (.last rfl)
    have hfound : nestedScopes.find? 1 "x" = some (0, ⟨.null, true⟩) := rfl
    obtain ⟨-, hids⟩ := (variables_read_back recorder "x" (.bool true)).1 _ made_nestedScopes
    obtain ⟨ids, searched, hassigns⟩ := hids 1 hsize
    obtain rfl := searched.unique _ hchain
    refine ⟨made_nestedScopes, hsize, ?_, Option.some.inj searched.functionScope⟩
    generalize hresult : nestedScopes.assign 1 "x" (.bool true) = result at hassigns
    cases hassigns with
    | notFound hnone => cases hnone 0 (List.mem_cons_of_mem _ List.mem_cons_self)
    | constant hb hmutable =>
      cases hfound.symm.trans ((searched.find? _ _ _).mpr hb)
      cases hmutable
    | done hb _ _ reads =>
      cases hfound.symm.trans ((searched.find? _ _ _).mpr hb)
      exact (reads 0 "x").trans (if_pos ⟨rfl, rfl⟩)
  case block =>
    have hopen : ¬ inBlock.runtime.IsSealed (some 1) "x" := fun h => nomatch h.home?
    have hassign : Evaluation.assignVariable recorder "x" (.bool true) inBlock = .ok () _ := rfl
    have h := ((variables_read_back recorder "x" (.bool true)).2 inBlock).1 _ hassign
    exact ⟨_, hassign, hopen, (h.2 hopen).1⟩
  case sealed =>
    have hsealed : inBlock.runtime.IsSealed (some 1) "s" := ⟨rfl, rfl, _, rfl, rfl⟩
    have hassign : Evaluation.assignVariable recorder "s" (.bool true) inBlock = .ok () _ := rfl
    have h := ((variables_read_back recorder "s" (.bool true)).2 inBlock).1 _ hassign
    exact ⟨_, hassign, hsealed, h.1 hsealed⟩
  case constant =>
    have hassign : Evaluation.assignVariable recorder "c" (.bool true) inBlock = .error _ _ := rfl
    exact ⟨_, _, hassign, ((variables_read_back recorder "c" (.bool true)).2 inBlock).2 _ _ hassign⟩

end ScriptShell
