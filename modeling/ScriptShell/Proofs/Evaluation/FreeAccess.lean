import ScriptShell.Proofs.Evaluation.FreeName
import ScriptShell.Proofs.Evaluation.Position

namespace ScriptShell

/-- Whether a host is told the same in whatever scope a script is. -/
def Host.OverlooksScopes {σ : Type} (host : Host σ) : Prop :=
  ∀ m runtime (frame : Frame) scope state,
    host.observe m runtime { frame with scope } state = host.observe m runtime frame state

theorem Recording.overlooksScopes_host (file : String → FileState) :
    (Recording.host file).OverlooksScopes :=
  fun _ _ _ _ _ => rfl

namespace Evaluation

variable {σ α β : Type} {host : Host σ} {name : String}

def SameIn (scope : Option ScopeId) (x : Eval σ α) (s : State σ) : Prop :=
  x (s.inScope scope) = inState (·.inScope scope) (x s)

/-- A name means at some point of a run what it means in another scope, so that it is read and
assigned there with the same effect, and what is assigned is seen there at once. -/
structure MeansAsIn (name : String) (scope : Option ScopeId) (s : State σ) : Prop where
  reads? : SameIn scope (lookup? name) s
  reads : ∀ host : Host σ, host.OverlooksScopes → SameIn scope (lookup host name) s
  assigns : ∀ host : Host σ, host.OverlooksScopes → ∀ v,
    SameIn scope (assignVariable host name v) s
  seen : ∀ (host : Host σ) (v : Value) (t : State σ),
    assignVariable host name v s = .ok () t → ¬ s.runtime.IsSealed scope name →
      Runtime.lookup? t.runtime scope name = some v

section Elsewhere

variable {s : State σ} {scope : Option ScopeId}

theorem SameIn.bind {x : Eval σ α} {y : α → Eval σ β} (hx : SameIn scope x s)
    (hy : ∀ a t, x s = .ok a t → SameIn scope (y a) t) : SameIn scope (x >>= y) s := by
  unfold SameIn at *
  rw [bind_apply, bind_apply, hx]
  cases hr : x s with
  | error e t => rfl
  | ok a t => exact hy a t hr

variable (hhost : host.OverlooksScopes)
include hhost

theorem sameIn_observe (m : Moment) : SameIn scope (observe host m) s :=
  congrArg (fun state => EStateM.Result.ok () (State.tell (fun _ => state) (s.inScope scope)))
    (hhost m s.runtime s.frame scope s.host)

theorem sameIn_throwAt (v : Value) (file : Option String) (line : Nat) :
    SameIn scope (throwAt host v file line : Eval σ α) s :=
  .bind (sameIn_observe hhost _) fun _ _ _ => rfl

theorem sameIn_raise (kind : ErrorKind) (message : String) :
    SameIn scope (raise host kind message : Eval σ α) s := by
  refine .bind (x := newError kind message) rfl fun v t _ => ?_
  exact sameIn_throwAt hhost v t.frame.filename t.frame.line

omit hhost in
theorem sameIn_strictWarning (message : String) : SameIn scope (strictWarning host message) s := by
  unfold SameIn
  rw [strictWarning_apply, strictWarning_apply]
  change _ = EStateM.Result.ok () (State.inScope scope _)
  rw [apply_ite (State.inScope scope)]
  rfl

theorem sameIn_assignGlobally (v : Value) : SameIn scope (assignGlobally host name v) s := by
  refine .bind (x := assignGlobal name v) rfl fun r t _ => ?_
  cases r with
  | done => rfl
  | constant => exact sameIn_raise hhost _ _
  | sealedOff => exact sameIn_strictWarning _
  | notFound => exact .bind (sameIn_strictWarning _) fun _ _ _ => rfl

variable (hsame : s.runtime.local? s.frame.scope name = s.runtime.local? scope name)
include hsame

omit hhost in
theorem sameIn_lookup? : SameIn scope (lookup? name) s := by
  have hvalue : Runtime.lookup? s.runtime scope name =
      Runtime.lookup? s.runtime s.frame.scope name := by
    rw [Runtime.lookup?_eq, Runtime.lookup?_eq, hsame]
  exact congrArg (EStateM.Result.ok · (s.inScope scope)) hvalue

theorem sameIn_lookup : SameIn scope (lookup host name) s := by
  refine .bind (sameIn_lookup? hsame) fun v t _ => ?_
  cases v with
  | some v => rfl
  | none => exact sameIn_raise hhost _ _

theorem sameIn_assignVariable (v : Value) : SameIn scope (assignVariable host name v) s := by
  unfold SameIn
  cases hlocal : s.runtime.local? s.frame.scope name with
  | some found =>
    obtain ⟨owner, b⟩ := found
    rw [assignVariable_of_local hlocal,
      assignVariable_of_local (s := s.inScope scope) (hsame.symm.trans hlocal)]
    cases b.isMutable with
    | true => rfl
    | false => exact sameIn_raise hhost _ _
  | none =>
    rw [assignVariable_of_not_local hlocal,
      assignVariable_of_not_local (s := s.inScope scope) (hsame.symm.trans hlocal)]
    exact sameIn_assignGlobally hhost v

omit hhost in
theorem lookup?_of_assignVariable_same {v : Value} {t : State σ}
    (ht : assignVariable host name v s = .ok () t) (hopen : ¬ s.runtime.IsSealed scope name) :
    Runtime.lookup? t.runtime scope name = some v := by
  have hhome : s.runtime.home? scope name = s.runtime.home? s.frame.scope name :=
    congrArg (Option.map _) hsame.symm
  rw [lookup?_of_assignVariable ht, if_pos ⟨rfl, hhome⟩]
  exact fun hsealed => hopen ⟨hhome.trans hsealed.home?, hsealed.top, hsealed.below⟩

omit hhost in
theorem meansAsIn_of_local? : MeansAsIn name scope s where
  reads? := sameIn_lookup? hsame
  reads _ hhost := sameIn_lookup hhost hsame
  assigns _ hhost := sameIn_assignVariable hhost hsame
  seen _ _ _ := lookup?_of_assignVariable_same hsame

end Elsewhere

section Call

variable {c : Closure} {callee : Value} {s : State (σ × List Event)}

def FreeName.inCall (c : Closure) (name : String) (s : State (σ × List Event)) : FreeName :=
  ⟨s.runtime.scopes.scopes.size, c.scope, name⟩

def Stage.inCall (s : State (σ × List Event)) : Stage :=
  ⟨some s.runtime.scopes.scopes.size, some s.runtime.scopes.scopes.size,
    s.runtime.scopes.scopes.size + 1⟩

theorem FreeName.Resolved.left {x : FreeName} (h : x.Resolved s.host.2) :
    x.Resolved (s.left host.traced).host.2 :=
  h.cons rfl

theorem staysAt_inCall {runtime : Runtime} {frame : Frame}
    (hopens : Opens c s.runtime.scopes runtime.scopes) (hname : name ∉ c.def_.openingNames)
    (htrace : (FreeName.inCall c name s).Resolved s.host.2)
    (hscope : frame.scope = some s.runtime.scopes.scopes.size) :
    StaysAt (.inCall c name s) (.inCall s) ⟨runtime, frame, s.host⟩ where
  scope := hscope
  inside := by
    refine .call ⟨Nat.lt_succ_self _, fun _ => ?_⟩ hopens.isFunctionScope
    exact Option.not_isSome_iff_eq_none.mp fun hbound => hname ((hopens.bound name).mp hbound)
  opened := Nat.le_of_eq hopens.size.symm
  call := Nat.lt_succ_self _
  function := hopens.isFunctionScope
  outer := hopens.parent?
  resolved := htrace

theorem Contract.Met.resolved {x : FreeName} {i : Stage} {l : Level} {P : α → Prop}
    {r : EStateM.Result Stop (State (σ × List Event)) α}
    (h : (Contract.resolving x i).Met l P s r) : x.Resolved (finalState r).host.2 := by
  cases r with
  | ok a t => exact h.2.1.resolved
  | error e t => exact h.1.resolved

variable (hname : ¬ c.def_.Introduces name)
include hname

theorem resolved_callBody (n : Nat) {t : State (σ × List Event)}
    (ht : StaysAt (.inCall c name s) (.inCall s) t) :
    (FreeName.inCall c name s).Resolved (finalState ((do
      hoistFunctions host.traced c.def_.body
      callResult host.traced (← statements host.traced n c.def_.body) : Eval _ _) t)).host.2 := by
  have likeness (i : Stage) :
      Likeness (definedBy anyPart) (FreeName.inCall c name s).ground host.traced host.traced 0
        (fun i => (Contract.resolving (.inCall c name s) i).rel) i :=
    Contract.resolving_likeness i
  have spares : ∀ b ∈ c.def_.body, (Part.stmt b).Spares name :=
    fun b hb b' hb' hdeclared => hname (.inr ⟨b, hb, b', hb', hdeclared⟩)
  have body := callBody_alike likeness (fun j => alike likeness n j) (i := .inCall s) c.def_
    (fun _ => Part.spares_function name _) fun b hb _ => spares b hb
  exact (body t ht).resolved

theorem resolved_inCall (n : Nat) (callee : Value) (args : List Value)
    (htrace : (FreeName.inCall c name s).Resolved s.host.2) :
    (FreeName.inCall c name s).Resolved (finalState
      (inCall host.traced callee c args (statements host.traced n c.def_.body) s)).host.2 := by
  unfold inCall deeper
  change (FreeName.inCall c name s).Resolved
    (finalState ((if s.isTooDeep then _ else _ : Eval _ _) s)).host.2
  cases s.isTooDeep with
  | true => exact htrace.cons rfl
  | false =>
    rw [if_neg nofun, oneDeeper_apply, finalState_inState]
    apply FreeName.Resolved.left
    let entered := s.entered host.traced
    let frame : Frame := ⟨some s.runtime.scopes.scopes.size, c.filename, s.frame.line, .undefined⟩
    obtain ⟨runtime, hrun, hopens⟩ := openCall_apply callee c args entered
    have begun : StaysAt (.inCall c name s) (.inCall s) ⟨runtime, frame, entered.host⟩ :=
      staysAt_inCall (s := entered) hopens (fun h => hname (.inl h)) (htrace.cons rfl) rfl
    rw [bind_apply, hrun]
    change FreeName.Resolved _
      (finalState (inFrame frame _ { entered with runtime })).host.2
    rw [inFrame_apply, finalState_inState]
    exact resolved_callBody hname n begun

theorem resolved_callValue (n : Nat) (args : List Value) (description : String)
    (hcallee : s.runtime.heap.callable? callee = some (.script c))
    (htrace : (FreeName.inCall c name s).Resolved s.host.2) :
    (FreeName.inCall c name s).Resolved
      (finalState (callValue host.traced n callee args description s)).host.2 := by
  cases n with
  | zero =>
    unfold callValue
    exact htrace
  | succ n =>
    have hlook : look (·.callable? callee) s = .ok (some (.script c)) s :=
      congrArg (EStateM.Result.ok · s) hcallee
    unfold callValue
    rw [bind_apply, hlook]
    exact resolved_inCall hname n callee args htrace

end Call

/-- Names that a function does not introduce mean in its body what they mean around it. In a call of
a function that was made anywhere, whenever a variable is read or assigned by such a name in the
scope of the call or in a block below it, the same would happen in the scope of the function, and
what is assigned can be read there. -/
theorem free_names_mean_as_around {c : Closure} {callee : Value} {s : State σ}
    (hcallee : s.runtime.heap.callable? callee = some (.script c))
    (hname : ¬ c.def_.Introduces name) (n : Nat) (args : List Value) (description : String) :
    ∀ m runtime frame,
      .moment m runtime frame ∈ (finalState (callValue host.traced n callee args description
        ⟨s.runtime, s.frame, (s.host, [])⟩)).host.2 →
      (Event.moment m runtime frame).accessesIn name s.runtime.scopes.scopes.size = true →
        ∀ (τ : Type) (state : τ), MeansAsIn name c.scope ⟨runtime, frame, state⟩ := by
  intro m runtime frame hmem haccess τ state
  let start : State (σ × List Event) := ⟨s.runtime, s.frame, (s.host, [])⟩
  have resolved : (FreeName.inCall c name start).Resolved
      (finalState (callValue host.traced n callee args description start)).host.2 :=
    resolved_callValue hname n args description hcallee fun _ _ _ h => nomatch h
  have same := resolved m runtime frame hmem haccess
  exact meansAsIn_of_local? (s := ⟨runtime, frame, state⟩) same

def updater : Closure :=
  let place := Location.start 1
  let value := Expr.assign none (.name "x" place) (.bool true place) place
  ⟨.mk (some "f") [] [.expr value place] [] place, none, none⟩

theorem not_introduces_updater : ¬ updater.def_.Introduces "x" := by
  rintro (hopening | ⟨s, hs, s', hruns, hdeclared⟩)
  · exact absurd hopening (by decide)
  · -- The statement runs the assignment, and that its target and its value.
    obtain rfl := List.mem_singleton.mp hs
    rcases hruns.cases_head with heq | ⟨_, hassign, hruns⟩
    · cases heq
      cases hdeclared
    obtain rfl := List.mem_singleton.mp hassign
    rcases hruns.cases_head with heq | ⟨_, hpart, hruns⟩
    · cases heq
    rcases List.mem_pair.mp hpart with rfl | rfl
    all_goals
      rcases hruns.cases_head with heq | ⟨_, hnone, -⟩
      · cases heq
      · cases hnone

def beforeUpdate : State Recording :=
  ⟨(Runtime.allocate Runtime.bare (.ofKind (.function (.script updater)))).2, unitFrame none,
    .start ⟨none, none⟩⟩

theorem free_names_mean_as_around_updater :
    let trace := (finalState (callValue recorder.traced 9 (.object 0) [] "f"
      ⟨beforeUpdate.runtime, beforeUpdate.frame, (beforeUpdate.host, [])⟩)).host.2
    ∃ m runtime frame, .moment m runtime frame ∈ trace ∧
      (Event.moment m runtime frame).accessesIn "x" 0 = true ∧
        SameIn none (lookup recorder "x") ⟨runtime, frame, beforeUpdate.host⟩ := by
  intro trace
  have haccesses : trace.any (Event.accessesIn "x" 0) = true := by decide +kernel
  obtain ⟨e, hmem, haccess⟩ := List.any_eq_true.mp haccesses
  cases e with
  | moment m runtime frame =>
    have same := free_names_mean_as_around rfl not_introduces_updater 9 [] "f" m runtime frame hmem
      haccess Recording beforeUpdate.host
    exact ⟨m, runtime, frame, hmem, haccess, same.reads recorder (Recording.overlooksScopes_host _)⟩
  | report | branch | write | quit => cases haccess

end Evaluation

example :
    ((Runtime.initial .bare).runSource recorder 20
      ⟨none, 1, "function f() \x7b f = 1; \x7d f(); typeof f;"⟩
      (.start ⟨none, none⟩)).1 matches .ran (.value (.text "function")) := by
  decide +kernel

end ScriptShell
