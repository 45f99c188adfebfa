import ScriptShell.Proofs.Evaluation.Assignment
import ScriptShell.Proofs.Evaluation.Contract
import ScriptShell.Proofs.Evaluation.Opening
import ScriptShell.Proofs.Evaluation.Restoration

namespace ScriptShell

namespace Part

def Runs : Part → Part → Prop :=
  Relation.ReflTransGen fun p q => q ∈ p.ownParts

def Spares (name : String) (p : Part) : Prop :=
  ∀ s, p.Runs (.stmt s) → name ∉ s.declaredNames

theorem ownHereditary_spares (name : String) : OwnHereditary (Spares name) :=
  fun _ _ hq hp s hs => hp s (hs.head hq)

theorem spares_function (name : String) (f : FunctionDef) : Spares name (.function f) := by
  intro s hs
  rcases hs.cases_head with heq | ⟨_, hq, -⟩
  · cases heq
  · cases hq

end Part

/-- A function introduces the names that its calls bind before its body is run, and those that the
statements declare that are run in its body. -/
def FunctionDef.Introduces (f : FunctionDef) (name : String) : Prop :=
  name ∈ f.openingNames ∨
    ∃ s ∈ f.body, ∃ s', (Part.stmt s).Runs (.stmt s') ∧ name ∈ s'.declaredNames

/-- Whether a variable of a name is read or assigned to. -/
def Moment.accesses (name : String) : Moment → Bool
  | .reads name' | .assigns name' _ => name' = name
  | _ => false

/-- Whether a variable of a name is read or assigned to inside of a call, in the scope of the call
or in a block below it. -/
def Event.accessesIn (name : String) (call : ScopeId) : Event → Bool
  | .moment m runtime frame =>
    m.accesses name && frame.scope.map runtime.scopes.functionScope = some call
  | _ => false

theorem Event.inCall_of_accessesIn {name : String} {call : ScopeId} {m : Moment}
    {runtime : Runtime} {frame : Frame}
    (h : (Event.moment m runtime frame).accessesIn name call = true) :
    frame.scope.map runtime.scopes.functionScope = some call :=
  of_decide_eq_true (Bool.and_eq_true_iff.mp h).2

namespace Evaluation

variable {σ α : Type}

/-- A name that is free in a call: the scope of the call, that of the function, and the name. -/
structure FreeName where
  call : ScopeId
  outer : Option ScopeId
  name : String

/-- Where a script is: in a scope, inside of a call or at the top level, when so many scopes have
been opened. -/
structure Stage where
  scope : Option ScopeId
  call : Option ScopeId
  opened : Nat

variable {x : FreeName} {i j : Stage}

namespace FreeName

def Resolved (x : FreeName) (trace : List Event) : Prop :=
  ∀ m runtime frame, .moment m runtime frame ∈ trace →
    (Event.moment m runtime frame).accessesIn x.name x.call = true →
      runtime.local? frame.scope x.name = runtime.local? x.outer x.name

theorem Resolved.cons {trace : List Event} {e : Event} (h : x.Resolved trace)
    (he : e.accessesIn x.name x.call = false) : x.Resolved (e :: trace) := by
  intro m runtime frame hmem haccess
  refine h m runtime frame ((List.mem_cons.mp hmem).resolve_left ?_) haccess
  rintro rfl
  cases haccess.symm.trans he

def Clean (x : FreeName) (i : Stage) (s : Scopes) (id : ScopeId) : Prop :=
  id < i.opened ∧ (i.call = some x.call → s.binding? id x.name = none)

def Anew (x : FreeName) (i : Stage) (id : ScopeId) (name : String) : Prop :=
  name ≠ x.name ∨ i.scope = some id ∧ i.call ≠ some x.call

/-- What may be run somewhere: inside of the call what does not declare the name. -/
def ground (x : FreeName) (i : Stage) : Ground where
  part p := i.call = some x.call → p.Spares x.name
  file := any
  line := any
  ready := any
  binds name := i.call = some x.call → name ≠ x.name

theorem within (x : FreeName) (hcall : j.call = i.call) : (x.ground j).Within (x.ground i) :=
  ⟨fun _ hp h => hp (hcall ▸ h), fun _ hn => hn, fun _ hname h => hname (hcall ▸ h)⟩

end FreeName

/-- A script is somewhere, and the name has always meant what it means around the function. -/
structure StaysAt (x : FreeName) (i : Stage) (s : State (σ × List Event)) : Prop where
  scope : s.frame.scope = i.scope
  inside : s.runtime.scopes.Inside (x.Clean i s.runtime.scopes) i.scope i.call
  opened : i.opened ≤ s.runtime.scopes.scopes.size
  call : x.call < i.opened
  function : s.runtime.scopes.isFunctionScope x.call = true
  outer : s.runtime.scopes.parent? x.call = x.outer
  resolved : x.Resolved s.host.2

namespace StaysAt

variable {s t : State (σ × List Event)}

theorem onward (h : StaysAt x i s) (hst : s.runtime.scopes.Extends (x.Anew i) t.runtime.scopes)
    (hscope : t.frame.scope = i.scope) (hresolved : x.Resolved t.host.2) : StaysAt x i t where
  scope := hscope
  inside := by
    refine h.inside.imp fun id ⟨hid, hclean⟩ => ?_
    have hlt := Nat.lt_of_lt_of_le hid h.opened
    refine ⟨⟨hid, fun hcall => ?_⟩, hst.parent? id hlt, hst.isFunctionScope id hlt⟩
    have hbound := hst.bound id hlt x.name fun hanew =>
      hanew.elim (fun hne => hne rfl) fun hne => hne.2 hcall
    rw [hclean hcall] at hbound
    exact Option.isSome_eq_false_iff.mp hbound |> Option.isNone_iff_eq_none.mp
  opened := Nat.le_trans h.opened hst.size
  call := h.call
  function := (hst.isFunctionScope _ (Nat.lt_of_lt_of_le h.call h.opened)).trans h.function
  outer := (hst.parent? _ (Nat.lt_of_lt_of_le h.call h.opened)).trans h.outer
  resolved := hresolved

theorem local?_eq (h : StaysAt x i s)
    (hcall : s.frame.scope.map s.runtime.scopes.functionScope = some x.call) :
    s.runtime.local? s.frame.scope x.name = s.runtime.local? x.outer x.name := by
  rw [h.scope] at hcall ⊢
  have hin := h.inside.eq_of_functionScope h.function hcall
  have hinside := hin ▸ h.inside
  rw [Runtime.local?, hinside.find?_eq fun id hid => hid.2 hin, h.outer]
  rfl

theorem scope_lt (h : StaysAt x i s) {id : ScopeId} (hid : i.scope = some id) :
    id < s.runtime.scopes.scopes.size := by
  have hinside := h.inside
  rw [hid] at hinside
  exact Nat.lt_of_lt_of_le hinside.of_scope.1 h.opened

theorem resolved_cons (h : StaysAt x i s) (m : Moment) :
    x.Resolved (.moment m s.runtime s.frame :: s.host.2) := by
  intro m' runtime frame hmem haccess
  rcases List.mem_cons.mp hmem with heq | hmem
  · cases heq
    exact h.local?_eq (Event.inCall_of_accessesIn haccess)
  · exact h.resolved m' runtime frame hmem haccess

theorem atDepth (h : StaysAt x i s) (depth : Nat) : StaysAt x i (s.atDepth depth) :=
  h.onward (.refl _) h.scope h.resolved

theorem inFrame (h : StaysAt x i s) (f : Frame)
    (hinside : s.runtime.scopes.Inside (x.Clean j s.runtime.scopes) f.scope j.call)
    (hj : j.scope = f.scope ∧ j.opened = s.runtime.scopes.scopes.size) :
    StaysAt x j (s.inFrame f) where
  scope := hj.1.symm
  inside := hj.1 ▸ hinside
  opened := Nat.le_of_eq hj.2
  call := hj.2 ▸ Nat.lt_of_lt_of_le h.call h.opened
  function := h.function
  outer := h.outer
  resolved := h.resolved

end StaysAt

namespace Contract

variable {host : Host σ} {l : Level} {P : α → Prop} {s t : State (σ × List Event)}

def resolving (x : FreeName) (i : Stage) : Contract (σ × List Event) where
  good := StaysAt x i
  ends _ := StaysAt x i
  moves _ s t := s.runtime.scopes.Extends (x.Anew i) t.runtime.scopes

theorem resolving_event (h : StaysAt x i s) (state : σ) (e : Event)
    (he : e.accessesIn x.name x.call = false) :
    (resolving x i).Reaches l s { s with host := (state, e :: s.host.2) } :=
  ⟨h.onward (.refl _) h.scope (h.resolved.cons he), .refl _⟩

theorem resolving_told (h : StaysAt x i s) (m : Moment) :
    (resolving x i).Reaches l s (s.observed host.traced m) :=
  ⟨h.onward (.refl _) h.scope (h.resolved_cons m), .refl _⟩

theorem resolving_asked (h : StaysAt x i s) (m : Moment) (state : σ) (e : Event)
    (he : e.accessesIn x.name x.call = false) :
    (resolving x i).Reaches l s { s.observed host.traced m with
      host := (state, e :: (s.observed host.traced m).host.2) } := by
  have announced : (resolving x i).Reaches l s (s.observed host.traced m) := resolving_told h m
  have asked := resolving_event (l := l) announced.1 state e he
  exact ⟨asked.1, announced.2.trans asked.2⟩

theorem resolving_steady : (resolving (σ := σ) x i).Steady anyPart where
  refl _ _ := .refl _
  trans := .trans
  relax h := h
  definedIn _ := Heap.definedIn_anyPart _
  nameless {_ _ _ s} hg hnames h := by
    have extends_ : s.runtime.scopes.Extends (x.Anew i) _ :=
      (hnames s.runtime s.frame).mono fun _ _ _ hnew => hnew.elim
    exact ⟨h.onward extends_ ((hg.scope _ _).trans h.scope) h.resolved, extends_⟩
  thrown _ _ _ h := h
  caught h := h
  fault _ h := h

theorem resolving_announces : (resolving x i).Announces host.traced :=
  fun {_} v file line h => resolving_told h (.raised v file line)

theorem resolving_serves : (resolving x i).Serves anyPart host.traced where
  toSteady := resolving_steady
  report r _ h := resolving_event h _ (.report r) rfl
  write text h := resolving_event h _ (.write text) rfl
  quit code h := resolving_asked h .quits _ (.quit code) rfl
  wanting _ h := h
  announces := resolving_announces
  accessed _ h := resolving_told h _

theorem resolving_deepens : (resolving x i).Deepens (resolving x i) host.traced where
  enter h _ := (resolving_told (l := .expression) (h.atDepth _) .callBegins).1
  leave _ _ ht := (resolving_told (l := .expression) (ht.atDepth _) .callEnds).1
  stop _ _ ht := (resolving_told (l := .expression) (ht.atDepth _) .callEnds).1
  moves h := h

theorem resolving_branch (line : Nat) :
    (resolving x i).Holds .statement any (branch host.traced line) :=
  resolving_steady.branch line
    (fun h _ _ => resolving_asked h .notifies _ (.branch _ line _) rfl)
    fun h _ _ => resolving_asked h .notifies _ (.branch _ line _) rfl

/-- What may be declared may be bound in the scope where the script is. -/
theorem resolving_declareLocal {name : String} (hname : i.call = some x.call → name ≠ x.name)
    (v : Value) (isMutable : Bool) :
    (resolving (σ := σ) x i).Holds l any (declareLocal name v isMutable) := by
  intro s h
  have binds (scopes : Scopes) (hscopes : s.runtime.scopes.Extends (x.Anew i) scopes)
      (globals : Globals) : (resolving x i).Met l any s
        (.ok () { s with runtime := { s.runtime with scopes, globals } }) :=
    ⟨trivial, h.onward hscopes h.scope h.resolved, hscopes⟩
  unfold declareLocal
  rw [bind_apply, show frame s = .ok s.frame s from rfl]
  dsimp only
  cases hscope : s.frame.scope with
  | none => exact binds s.runtime.scopes (.refl _) _
  | some id =>
    refine binds (s.runtime.scopes.declare id name v isMutable) ?_ s.runtime.globals
    have hin : i.scope = some id := h.scope.symm.trans hscope
    have hid : id < s.runtime.scopes.scopes.size := h.scope_lt hin
    refine (Scopes.named_declare hid name v isMutable).extends.mono ?_
    rintro _ - name' ⟨rfl, rfl⟩
    by_cases hcall : i.call = some x.call
    · exact .inl (hname hcall)
    · exact .inr ⟨hin, hcall⟩

section Frames

variable {y : Eval (σ × List Event) α}

/-- What is run elsewhere, in scopes that have just been opened, with a way back. -/
theorem met_elsewhere (hs : StaysAt x i s) (ht : StaysAt x j t)
    (hst : s.runtime.scopes.Extends (fun _ _ => False) t.runtime.scopes)
    (hfresh : ∀ id ∈ j.scope, s.runtime.scopes.scopes.size ≤ id) {l' : Level}
    (hy : (resolving x j).Holds l' P y)
    {back : State (σ × List Event) → State (σ × List Event)}
    (hback : ∀ u, ∃ f, f.scope = i.scope ∧ back u = u.inFrame f) :
    (resolving x i).Met l P s (Evaluation.inState back (y t)) := by
  have moved (u : State (σ × List Event))
      (htu : t.runtime.scopes.Extends (x.Anew j) u.runtime.scopes) :
      s.runtime.scopes.Extends (x.Anew i) u.runtime.scopes := by
    refine ((hst.mono fun _ _ _ h => h.elim).trans htu).mono fun id hid name hanew => ?_
    rcases hanew with hname | ⟨hscope, -⟩
    · exact .inl hname
    · exact absurd hid (Nat.not_lt.mpr (hfresh id hscope))
  have stays (u : State (σ × List Event))
      (htu : t.runtime.scopes.Extends (x.Anew j) u.runtime.scopes)
      (hu : StaysAt x j u) : StaysAt x i (back u) := by
    obtain ⟨f, hf, hback⟩ := hback u
    exact hback ▸ hs.onward (t := u.inFrame f) (moved u htu) hf hu.resolved
  refine (hy t ht).inState stays (fun _ => stays) fun u htu => ?_
  obtain ⟨f, -, hback⟩ := hback u
  exact hback ▸ moved u htu

/-- A block is run in a new scope, inside of the same call. -/
theorem resolving_inBlockScope {y : ScopeId → Eval (σ × List Event) α}
    (hy : ∀ j id, j.call = i.call → (resolving x j).Holds .statement P (y id)) :
    (resolving x i).Holds .statement P (inBlockScope y) := by
  intro s hs
  let scopes := s.runtime.scopes
  let opened : State (σ × List Event) := { s with
    runtime := { s.runtime with scopes := (scopes.open_ s.frame.scope false).2 } }
  let inner : Stage := ⟨some scopes.scopes.size, i.call, scopes.scopes.size + 1⟩
  have hnew := scopes.getElem?_open_ s.frame.scope false scopes.scopes.size
  rw [if_pos rfl] at hnew
  have hopened : scopes.Extends (fun _ _ => False) opened.runtime.scopes :=
    scopes.extends_open_ s.frame.scope false
  have hthere : StaysAt x i opened :=
    hs.onward (hopened.mono fun _ _ _ h => h.elim) hs.scope hs.resolved
  -- The new scope is empty: looking through it finds what its parent finds.
  have hinside : opened.runtime.scopes.Inside (x.Clean inner opened.runtime.scopes)
      (some scopes.scopes.size) i.call := by
    refine .block ⟨Nat.lt_succ_self _, fun _ => ?_⟩ ?_ ?_
    · rw [Scopes.binding?, hnew]
      exact Dict.get?_empty x.name
    · rw [Scopes.isFunctionScope, hnew]
      rfl
    · rw [Scopes.parent?, hnew]
      change Scopes.Inside _ _ s.frame.scope i.call
      rw [hs.scope]
      refine hthere.inside.imp fun id hid => ⟨⟨?_, hid.2⟩, rfl, rfl⟩
      exact Nat.lt_succ_of_lt (Nat.lt_of_lt_of_le hid.1 hs.opened)
  have hinner : StaysAt x inner (opened.inScope (some scopes.scopes.size)) :=
    hthere.inFrame _ hinside ⟨rfl, (scopes.size_open_ _ _).symm⟩
  change (resolving x i).Met .statement P s
    (inScope scopes.scopes.size (y scopes.scopes.size) opened)
  rw [inScope_apply]
  refine met_elsewhere hs hinner hopened ?_ (hy inner _ rfl) fun u => ?_
  · rintro _ ⟨⟩
    exact Nat.le_refl _
  · exact ⟨{ u.frame with scope := s.frame.scope }, hs.scope, rfl⟩

/-- Another call is run in a scope of its own. -/
theorem resolving_inCall {y : Eval (σ × List Event) Value} (callee : Value) (c : Closure)
    (args : List Value)
    (hy : ∀ j, j.call ≠ some x.call → (resolving x j).Holds .statement any y) :
    (resolving x i).Holds .expression any (inCallFrame host.traced callee c args y) := by
  refine resolving_deepens.holds (resolving_steady.raise resolving_announces _ _) fun s hs => ?_
  obtain ⟨runtime, hrun, opens⟩ := openCall_apply callee c args s
  let opened : State (σ × List Event) := { s with runtime }
  let size := s.runtime.scopes.scopes.size
  let inner : Stage := ⟨some size, some size, size + 1⟩
  have hother : some size ≠ some x.call := fun heq =>
    Nat.ne_of_gt (Nat.lt_of_lt_of_le hs.call hs.opened) (Option.some.inj heq)
  have hthere : StaysAt x i opened :=
    hs.onward (opens.others.mono fun _ _ _ h => h.elim) hs.scope hs.resolved
  have hinside : runtime.scopes.Inside (x.Clean inner runtime.scopes) (some size) (some size) :=
    .call ⟨Nat.lt_succ_self _, fun heq => absurd heq hother⟩ opens.isFunctionScope
  rw [bind_apply, hrun]
  change (resolving x i).Met .expression any s
    (Evaluation.inFrame ⟨some size, c.filename, s.frame.line, .undefined⟩ y opened)
  rw [inFrame_apply]
  have hinner : StaysAt x inner (opened.inFrame ⟨some size, c.filename, s.frame.line, .undefined⟩) :=
    hthere.inFrame _ hinside ⟨rfl, opens.size.symm⟩
  refine met_elsewhere hs hinner opens.others ?_ (hy inner hother) fun u =>
    ⟨s.frame, hs.scope, rfl⟩
  rintro _ ⟨⟩
  exact Nat.le_refl _

theorem resolving_runFile (name : String) {run : Program → Eval (σ × List Event) Value}
    (hrun : ∀ j p, j.call ≠ some x.call → (resolving x j).Holds .statement any (run p)) :
    (resolving x i).Holds .expression any (runFile host.traced name run) := by
  have opened : (resolving x i).Holds .expression any (openUnit host.traced name) :=
    openUnit_alike (resolving_steady (σ := σ)).stepping resolving_serves.dealing
      resolving_serves.holds_report name (resolving_serves.readFile name) fun _ _ _ _ _ _ => trivial
  refine resolving_steady.bind opened fun p _ s hs => ?_
  let top : Stage := ⟨none, none, s.runtime.scopes.scopes.size⟩
  have htop : StaysAt x top (s.inFrame (unitFrame (some name))) := hs.inFrame _ .top ⟨rfl, rfl⟩
  rw [inFrame_apply]
  exact met_elsewhere hs htop (.refl _) (fun _ h => nomatch h)
    (hrun top p nofun) fun u => ⟨s.frame, hs.scope, rfl⟩

end Frames

/-- What scripts do somewhere, so that the name means what it means around the function. -/
theorem resolving_likeness (i : Stage) :
    Likeness (definedBy anyPart) x.ground host.traced host.traced 0
      (fun i => (resolving x i).rel) i where
  toDealing :=
    have dealing : Dealing (definedBy anyPart) (.of anyPart) host.traced host.traced
      (resolving x i).rel := resolving_serves.dealing
    { dealing with }
  hereditary p q hq hp hcall := Part.ownHereditary_spares x.name p q hq (hp hcall)
  names hs hname hcall heq := hs hcall _ .refl (heq ▸ hname)
  declareLocal name v isMutable hname := resolving_declareLocal hname v isMutable
  sites _ _ := trivial
  outOfFuel _ _ _ _ hs := ⟨hs, .refl _⟩
  setLine line _ := resolving_steady.setLine line
  begins s _ _ hy := by
    have told : (resolving x i).Holds .statement any (observe host.traced (.statement s)) :=
      fun _ hs => ⟨trivial, resolving_told hs (.statement s)⟩
    refine resolving_steady.bind (resolving_steady.relaxed (resolving_steady.setLine _)) ?_
    exact fun _ _ => resolving_steady.bind told fun _ _ => hy
  makeClosure {l} f hf := resolving_steady.sequencing.makeClosure f fun _ _ => trivial
  setLastValue v s hs := ⟨trivial, hs.onward (.refl _) hs.scope hs.resolved, .refl _⟩
  branch := resolving_branch
  noTarget _ _ _ _ hs := ⟨trivial, resolving_told hs .noTarget⟩
  strayJump _ _ hs := ⟨trivial, resolving_told hs .strayJump⟩
  alone _ _ _ := trivial
  enters {_ P y _} body hbody hxy := by
    have hoisted := hoistFunctions_alike (T := (x.ground i).part) (l := .body)
      (resolving_steady (σ := σ)).sequencing host.traced host.traced
      (fun f _ => resolving_steady.sequencing.makeClosure f fun _ _ => trivial)
      (fun f v _ hs => ⟨trivial, resolving_told hs (.functionBound f v)⟩) body hbody
      (fun p q hq hp hcall => Part.ownHereditary_spares x.name p q hq (hp hcall))
      fun s hs name hname v => resolving_declareLocal
        (fun hcall heq => hbody s hs hcall s .refl (heq ▸ hname)) v true
    exact resolving_steady.bind hoisted fun _ _ => hxy i (.refl _) fun _ _ => trivial
  inBlockScope hxy := resolving_inBlockScope fun j id hcall => hxy j (x.within hcall) id
  inCall callee c args _ hxy := resolving_inCall callee c args fun j hcall =>
    hxy j (fun h => absurd h hcall) (fun _ _ h => absurd h hcall) trivial
  runFile name _ _ hrun := resolving_runFile name fun j p hcall =>
    hrun j p (fun h => absurd h hcall) trivial
  method receiver key args := resolving_steady.located resolving_announces
    (Library.method_alike resolving_steady.sequencing (fun _ _ _ hs => ⟨hs, .refl _⟩) receiver key
      args)
  located hx := resolving_steady.located resolving_announces hx
  guarded hx hhandler hfinalizer :=
    resolving_steady.guarded (fun t ht => resolving_told ht .handlerBegins)
      (fun t ht => resolving_told ht .finalizerBegins) hx (Option.forall_mem_map.mpr hhandler)
      (Option.forall_mem_map.mpr hfinalizer)

end Contract

end Evaluation

end ScriptShell
