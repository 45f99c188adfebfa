import ScriptShell.Proofs.Evaluation.Execution
import ScriptShell.Proofs.Host.Trace
import ScriptShell.Proofs.Program.Accepted

namespace ScriptShell

open Evaluation

/-- The binding of a name in this very scope, or at the top of the globals where there is none. -/
def Runtime.ownBinding? (r : Runtime) (name : String) : Option ScopeId → Option Binding
  | some id => r.scopes.scopes[id]?.bind (·.bindings.get? name)
  | none => r.globals.top.get? name

theorem Scopes.ownBinding?_declare {s : Scopes} {id : ScopeId} (hid : id < s.scopes.size)
    (name : String) (v : Value) (isMutable : Bool) :
    (s.declare id name v isMutable).scopes[id]?.bind (·.bindings.get? name) =
      some ⟨v, isMutable⟩ := by
  unfold declare modify
  rw [Array.getElem?_modify, if_pos rfl, Array.getElem?_eq_getElem hid]
  exact (Dict.get?_insert _ _ _ _).trans (if_pos rfl)

/-- On entering a body, a function was bound in a scope: its name to a closure of it there. -/
def BoundIn (scope : Option ScopeId) (f : FunctionDef) (trace : List Event) : Prop :=
  ∃ name v runtime frame, f.name = some name ∧
    .moment (.functionBound f v) runtime frame ∈ trace ∧ frame.scope = scope ∧
    runtime.ownBinding? name scope = some ⟨v, true⟩ ∧
    runtime.heap.callable? v = some (.script ⟨f, scope, frame.filename⟩)

theorem BoundIn.of_suffix {scope : Option ScopeId} {f : FunctionDef} {trace trace' : List Event}
    (h : BoundIn scope f trace) (hs : trace <:+ trace') : BoundIn scope f trace' := by
  obtain ⟨name, v, runtime, frame, hname, hmem, rest⟩ := h
  exact ⟨name, v, runtime, frame, hname, hs.subset hmem, rest⟩

def Declared (T : Part → Prop) (scope : Option ScopeId) (past : List Event) (s : Stmt) : Prop :=
  ∀ f place, s = .function f place →
    BoundIn scope f past ∨ ∃ outer, T (.stmt outer) ∧ s ∈ outer.branches

theorem Declared.of_suffix {T : Part → Prop} {scope : Option ScopeId} {past past' : List Event}
    {s : Stmt} (h : Declared T scope past s) (hs : past <:+ past') : Declared T scope past' s :=
  fun f place hf => (h f place hf).imp_left (·.of_suffix hs)

theorem declared_of_not {T : Part → Prop} {scope : Option ScopeId} {past : List Event} {s : Stmt}
    (hs : s.declaresFunction = false) : Declared T scope past s := by
  rintro f place rfl
  cases hs

def InOrder (T : Part → Prop) (trace : List Event) : Prop :=
  ∀ s runtime frame past, .moment (.statement s) runtime frame :: past <:+ trace →
    Declared T frame.scope past s

theorem inOrder_nil {T : Part → Prop} : InOrder T [] := by
  intro s runtime frame past h
  cases List.suffix_nil.mp h

theorem InOrder.cons {T : Part → Prop} {trace : List Event} {e : Event} (h : InOrder T trace)
    (he : ∀ s runtime frame, e = .moment (.statement s) runtime frame →
      Declared T frame.scope trace s) : InOrder T (e :: trace) := by
  intro s runtime frame past hs
  rcases List.suffix_cons_iff.mp hs with heq | hs
  · obtain ⟨rfl, rfl⟩ := List.cons.inj heq
    exact he s runtime frame rfl
  · exact h s runtime frame past hs

def Moment.isStatement : Moment → Bool
  | .statement _ => true
  | _ => false

def Event.isStatement : Event → Bool
  | .moment m _ _ => m.isStatement
  | _ => false

theorem InOrder.beside {T : Part → Prop} {trace : List Event} {e : Event} (h : InOrder T trace)
    (he : e.isStatement = false) : InOrder T (e :: trace) := by
  refine h.cons ?_
  rintro s runtime frame rfl
  cases he

namespace Evaluation

variable {σ α : Type}

/-- Where statements are run: in a scope, after some trace, when so many scopes have been opened. -/
structure Spot where
  scope : Option ScopeId
  past : List Event
  scopes : Nat

namespace Spot

def ground (T : Part → Prop) (i : Spot) : Ground :=
  { Ground.of T with ready := Declared T i.scope i.past }

theorem ground_within (T : Part → Prop) (i j : Spot) : (j.ground T).Within (i.ground T) :=
  ⟨fun _ hp => hp, fun _ hn => hn, fun _ hname => hname⟩

def reached (scope : Option ScopeId) (s : State (σ × List Event)) : Spot :=
  ⟨scope, s.host.2, s.runtime.scopes.scopes.size⟩

end Spot

/-- Scripts are at a spot, or go on from there in its scope, and all has been in order. -/
structure StandsAt (T : Part → Prop) (i : Spot) (s : State (σ × List Event)) : Prop where
  scope : s.frame.scope = i.scope
  opened : ∀ id ∈ i.scope, id < i.scopes
  past : i.past <:+ s.host.2
  scopes : i.scopes ≤ s.runtime.scopes.scopes.size
  definedIn : s.runtime.heap.DefinedIn T
  inOrder : InOrder T s.host.2

structure Onward (s t : State (σ × List Event)) : Prop where
  trace : s.host.2 <:+ t.host.2
  scopes : s.runtime.scopes.scopes.size ≤ t.runtime.scopes.scopes.size

theorem Onward.refl (s : State (σ × List Event)) : Onward s s :=
  ⟨List.suffix_rfl, Nat.le_refl _⟩

theorem Onward.trans {s t u : State (σ × List Event)} (h : Onward s t) (h' : Onward t u) :
    Onward s u :=
  ⟨h.trace.trans h'.trace, Nat.le_trans h.scopes h'.scopes⟩

namespace StandsAt

variable {T : Part → Prop} {i j : Spot} {s t : State (σ × List Event)}

theorem atDepth (h : StandsAt T i s) (depth : Nat) : StandsAt T i (s.atDepth depth) :=
  ⟨h.scope, h.opened, h.past, h.scopes, h.definedIn, h.inOrder⟩

theorem inFrame (h : StandsAt T i s) {f : Frame} (hf : ∀ id ∈ f.scope, id < i.scopes) :
    StandsAt T (.reached f.scope s) (s.inFrame f) where
  scope := rfl
  opened id hid := Nat.lt_of_lt_of_le (hf id hid) h.scopes
  past := List.suffix_rfl
  scopes := Nat.le_refl _
  definedIn := h.definedIn
  inOrder := h.inOrder

theorem here (h : StandsAt T i s) : StandsAt T (.reached i.scope s) s := by
  have stands := h.inFrame (f := s.frame) (h.scope ▸ h.opened)
  rwa [h.scope] at stands

theorem back (hs : StandsAt T i s) (ht : StandsAt T j t) (hst : Onward s t) {f : Frame}
    (hf : f.scope = i.scope) : StandsAt T i (t.inFrame f) where
  scope := hf
  opened := hs.opened
  past := hs.past.trans hst.trace
  scopes := Nat.le_trans hs.scopes hst.scopes
  definedIn := ht.definedIn
  inOrder := ht.inOrder

end StandsAt

namespace Contract

variable {T : Part → Prop} {i : Spot} {host : Host σ} {l : Level} {P : α → Prop}
  {s t : State (σ × List Event)}

def ordered (T : Part → Prop) (i : Spot) : Contract (σ × List Event) where
  good := StandsAt T i
  ends _ := StandsAt T i
  moves _ := Onward

theorem ordered_event (h : StandsAt T i s) (x : σ) (e : Event) (he : e.isStatement = false) :
    (ordered T i).Reaches l s { s with host := (x, e :: s.host.2) } :=
  ⟨⟨h.scope, h.opened, h.past.trans (List.suffix_cons _ _), h.scopes, h.definedIn,
    h.inOrder.beside he⟩, List.suffix_cons _ _, Nat.le_refl _⟩

theorem ordered_told (h : StandsAt T i s) (m : Moment) (hm : m.isStatement = false) :
    (ordered T i).Reaches l s (s.observed host.traced m) :=
  ordered_event h _ (.moment m s.runtime s.frame) hm

theorem ordered_statement (h : StandsAt T i s) {stmt : Stmt} (hs : Declared T i.scope i.past stmt) :
    (ordered T i).Reaches l s (s.observed host.traced (.statement stmt)) := by
  refine ⟨⟨h.scope, h.opened, h.past.trans (List.suffix_cons _ _), h.scopes, h.definedIn,
    h.inOrder.cons ?_⟩, List.suffix_cons _ _, Nat.le_refl _⟩
  rintro _ _ _ ⟨⟩
  rw [h.scope]
  exact hs.of_suffix h.past

theorem ordered_asked (h : StandsAt T i s) {m : Moment} (hm : m.isStatement = false) (x : σ)
    (e : Event) (he : e.isStatement = false) :
    (ordered T i).Reaches l s { s.observed host.traced m with
      host := (x, e :: (s.observed host.traced m).host.2) } := by
  have announced : (ordered T i).Reaches l s (s.observed host.traced m) := ordered_told h m hm
  have asked := ordered_event (l := l) announced.1 x e he
  exact ⟨asked.1, announced.2.trans asked.2⟩

theorem ordered_lawful : (ordered (σ := σ) T i).Lawful T where
  refl _ := .refl
  trans := .trans
  relax h := h
  definedIn h := h.definedIn
  step {_ _ _ s} hg h := by
    have widens := (hg.widens s.runtime s.frame).scopes
    exact ⟨⟨(hg.scope _ _).trans h.scope, h.opened, h.past, Nat.le_trans h.scopes widens,
      hg.functions _ _ h.definedIn, h.inOrder⟩, List.suffix_rfl, widens⟩
  thrown _ _ _ h := h
  caught h := h
  fault _ h := h

theorem ordered_announces : (ordered T i).Announces host.traced :=
  fun {_} v file line h => ordered_told h (.raised v file line) rfl

theorem ordered_serves : (ordered T i).Serves T host.traced where
  toSteady := ordered_lawful.toSteady
  report r _ h := ordered_event h _ (.report r) rfl
  write text h := ordered_event h _ (.write text) rfl
  quit code h := ordered_asked h (m := .quits) rfl _ (.quit code) rfl
  wanting _ h := h
  announces := ordered_announces
  accessed {_ m} hm h := by
    cases m with
    | reads | assigns => exact ordered_told h _ rfl
    | _ => cases hm

theorem ordered_deepens : (ordered T i).Deepens (ordered T i) host.traced where
  enter h _ := (ordered_told (l := .expression) (h.atDepth _) .callBegins rfl).1
  leave _ _ ht := (ordered_told (l := .expression) (ht.atDepth _) .callEnds rfl).1
  stop _ _ ht := (ordered_told (l := .expression) (ht.atDepth _) .callEnds rfl).1
  moves h := ⟨(List.suffix_cons _ _).trans (h.trace.trans (List.suffix_cons _ _)), h.scopes⟩

theorem ordered_branch (line : Nat) :
    (ordered T i).Holds .statement any (branch host.traced line) :=
  ordered_lawful.branch line
    (fun h _ _ => ordered_asked h (m := .notifies) rfl _ (.branch _ line _) rfl)
    fun h _ _ => ordered_asked h (m := .notifies) rfl _ (.branch _ line _) rfl

theorem ordered_begins {x : Eval (σ × List Event) α} {stmt : Stmt}
    (hready : Declared T i.scope i.past stmt) (hx : (ordered T i).Holds .statement P x) :
    (ordered T i).Holds .statement P
      (do setLine stmt.place.line; observe host.traced (.statement stmt); x) := by
  have told : (ordered T i).Holds .statement any (observe host.traced (.statement stmt)) :=
    fun s hs => ⟨trivial, ordered_statement hs hready⟩
  refine ordered_lawful.bind (ordered_lawful.relaxed (ordered_lawful.setLine _)) fun _ _ => ?_
  exact ordered_lawful.bind told fun _ _ => hx

theorem met_onward {r : EStateM.Result Stop _ α} (hs : StandsAt T i s) (hst : Onward s t)
    (h : (ordered T (.reached i.scope t)).Met l P t r) : (ordered T i).Met l P s r := by
  cases r with
  | ok a u => exact ⟨h.1, hs.back h.2.1 (hst.trans h.2.2) h.2.1.scope, hst.trans h.2.2⟩
  | error e u => exact ⟨hs.back h.1 (hst.trans h.2) h.1.scope, hst.trans h.2⟩

section Scopes

variable {x : Eval (σ × List Event) α}

theorem met_inFrame (hs : StandsAt T i s) {f : Frame} (hf : ∀ id ∈ f.scope, id < i.scopes)
    (hx : ∀ j : Spot, j.scope = f.scope → (ordered T j).Holds .statement P x)
    {back : State (σ × List Event) → State (σ × List Event)}
    (hback : ∀ t, ∃ f, f.scope = i.scope ∧ back t = t.inFrame f) :
    (ordered T i).Met l P s (Evaluation.inState back (x (s.inFrame f))) := by
  have stands (t : State (σ × List Event)) (hst : Onward (s.inFrame f) t)
      (ht : StandsAt T (.reached f.scope s) t) : StandsAt T i (back t) := by
    obtain ⟨f, hf, hback⟩ := hback t
    exact hback ▸ hs.back ht ⟨hst.trace, hst.scopes⟩ hf
  have onward (t : State (σ × List Event)) (hst : Onward (s.inFrame f) t) : Onward s (back t) := by
    obtain ⟨f, -, hback⟩ := hback t
    exact hback ▸ ⟨hst.trace, hst.scopes⟩
  exact (hx (.reached f.scope s) rfl _ (hs.inFrame hf)).inState stands (fun _ => stands) onward

theorem ordered_inFrame (f : Frame) (hf : ∀ id ∈ f.scope, id < i.scopes)
    (hx : ∀ j : Spot, j.scope = f.scope → (ordered T j).Holds .statement P x) :
    (ordered T i).Holds .expression P (inFrame f x) := by
  intro s hs
  rw [inFrame_apply]
  exact met_inFrame hs hf hx fun _ => ⟨s.frame, hs.scope, rfl⟩

theorem ordered_inScope (id : ScopeId) (hid : id < i.scopes)
    (hx : ∀ j : Spot, j.scope = some id → (ordered T j).Holds .statement P x) :
    (ordered T i).Holds .statement P (inScope id x) := by
  intro s hs
  rw [inScope_apply]
  refine met_inFrame hs ?_ hx fun t => ⟨{ t.frame with scope := s.frame.scope }, hs.scope, rfl⟩
  rintro _ ⟨⟩
  exact hid

theorem ordered_openScope (isFunction : Bool) (parent : Option ScopeId)
    {x : ScopeId → Eval (σ × List Event) α}
    (hx : ∀ (j : Spot) id, id < j.scopes → (ordered T j).Holds l P (x id)) :
    (ordered T i).Holds l P (openScope isFunction parent >>= x) := by
  intro s hs
  have opened := ordered_lawful.freeStep (isStep_openScope isFunction parent).free s hs
  rw [bind_apply]
  refine met_onward hs opened.2.2 (hx _ _ ?_ _ opened.2.1.here)
  simp [Spot.reached]

theorem ordered_inBlockScope {x : ScopeId → Eval (σ × List Event) α}
    (hx : ∀ j id, (ordered T j).Holds .statement P (x id)) :
    (ordered T i).Holds .statement P (inBlockScope x) := by
  have frame : (ordered (σ := σ) T i).Holds .statement any Evaluation.frame :=
    ordered_lawful.relaxed (ordered_lawful.freeStep isStep_frame.free)
  refine ordered_lawful.bind frame fun frame _ => ordered_openScope _ _ fun j id hid => ?_
  exact ordered_inScope id hid fun k _ => hx k id

theorem ordered_inCall {x : Eval (σ × List Event) Value} (callee : Value) (c : Closure)
    (args : List Value) (hx : ∀ j, (ordered T j).Holds .statement any x) :
    (ordered T i).Holds .expression any (inCallFrame host.traced callee c args x) := by
  refine ordered_deepens.holds (ordered_lawful.raise ordered_announces _ _) ?_
  unfold openCall
  rw [bind_assoc]
  refine ordered_openScope _ _ fun j id hid => ?_
  have filled : (ordered (σ := σ) T j).Holds .expression any (fillScope id callee c args) :=
    fillScope_alike (l := .expression) (ordered_lawful (σ := σ)).naming id callee c args
  have frame : (ordered (σ := σ) T j).Holds .expression any Evaluation.frame :=
    ordered_lawful.freeStep isStep_frame.free
  rw [bind_assoc]
  refine ordered_lawful.bind filled fun _ _ => ?_
  rw [pure_bind]
  refine ordered_lawful.bind frame fun frame _ => ordered_inFrame _ ?_ fun k _ => hx k
  rintro _ ⟨⟩
  exact hid

theorem ordered_runFile (name : String) {run : Program → Eval (σ × List Event) Value}
    (accepted : ∀ content {options p w}, host.file name = .bytes content →
      Program.ofSource options (Text.readUtf8 content) = .ok (p, w) → T (.program p))
    (hrun : ∀ j p, T (.program p) → (ordered T j).Holds .statement any (run p)) :
    (ordered T i).Holds .expression any (runFile host.traced name run) := by
  have opened : (ordered T i).Holds .expression (fun p => T (.program p))
      (openUnit host.traced name) :=
    openUnit_alike (ordered_lawful (σ := σ)).stepping ordered_serves.dealing
      ordered_serves.holds_report name (ordered_serves.readFile name) accepted
  exact ordered_lawful.bind opened fun p hp =>
    ordered_inFrame _ (fun _ h => nomatch h) fun j _ => hrun j p hp

end Scopes

end Contract

/-- Binding a function makes a closure of it in the scope that scripts are in, which its name is bound
to there. -/
theorem bindFunction_apply (host : Host σ) {f : FunctionDef} {name : String}
    (hname : f.name = some name) {s : State σ}
    (hopen : ∀ id ∈ s.frame.scope, id < s.runtime.scopes.scopes.size) :
    ∃ v runtime, bindFunction host f s =
        .ok () ({ s with runtime }.observed host (.functionBound f v)) ∧
      runtime.ownBinding? name s.frame.scope = some ⟨v, true⟩ ∧
      runtime.heap.callable? v = some (.script ⟨f, s.frame.scope, s.frame.filename⟩) := by
  obtain ⟨runtime, ⟨scope, filename, line, lastValue⟩, state⟩ := s
  have hcallable : ((runtime.heap.allocate (.ofKind (.function
      (.script ⟨f, scope, filename⟩)))).2.object runtime.heap.objects.size).callable? =
        some (.script ⟨f, scope, filename⟩) := by
    rw [Heap.object_allocate, if_pos rfl]
    rfl
  unfold bindFunction
  rw [hname]
  cases scope with
  | none =>
    refine ⟨_, _, rfl, ?_, hcallable⟩
    exact (Dict.get?_insert _ _ _ _).trans (if_pos rfl)
  | some id =>
    refine ⟨_, _, rfl, ?_, hcallable⟩
    exact Scopes.ownBinding?_declare (hopen id rfl) name _ true

namespace Contract

variable {T : Part → Prop} {i : Spot} {host : Host σ} {l : Level} {P : α → Prop}
  {x : Eval (σ × List Event) α}

/-- Scripts go on with a function that is bound. -/
theorem ordered_bindFunction {f : FunctionDef} (hf : T (.function f))
    (hname : f.name.isSome = true)
    (hx : ∀ j : Spot, j.scope = i.scope → i.past <:+ j.past → BoundIn i.scope f j.past →
      (ordered T j).Holds l P x) :
    (ordered T i).Holds l P (do bindFunction host.traced f; x) := by
  intro s hs
  obtain ⟨name, hname⟩ := Option.isSome_iff_exists.mp hname
  have makes : (ordered (σ := σ) T i).Holds .expression any (makeClosure f) :=
    ordered_lawful.sequencing.makeClosure (l := .expression) f fun _ _ => hf
  have binds : (ordered T i).Holds .expression any (bindFunction host.traced f) :=
    bindFunction_alike (l := .expression) (ordered_lawful (σ := σ)).sequencing host.traced
      host.traced f makes
      (fun name _ v => declareLocal_alike (l := .expression) ordered_lawful.naming name v true)
      fun v s hs => ⟨trivial, ordered_told hs (.functionBound f v) rfl⟩
  have bound := binds s hs
  obtain ⟨v, runtime, hrun, hbinding, hcallable⟩ := bindFunction_apply host.traced hname
    (s := s) fun id hid => Nat.lt_of_lt_of_le (hs.opened id (hs.scope ▸ hid)) hs.scopes
  rw [hrun] at bound
  rw [bind_apply, hrun]
  refine met_onward hs bound.2.2 (hx (.reached i.scope _) rfl ?_ ?_ _ bound.2.1.here)
  · exact hs.past.trans bound.2.2.trace
  · exact ⟨name, v, runtime, s.frame, hname, List.mem_cons_self, hs.scope, hs.scope ▸ hbinding,
      hs.scope ▸ hcallable⟩

/-- Scripts go on with a body of which every statement is declared. -/
theorem ordered_enters (hT : Hereditary T) (hfit : ∀ q, T q → q.Fit) {body : List Stmt}
    (hbody : ∀ s ∈ body, T (.stmt s))
    (hx : ∀ j : Spot, j.scope = i.scope → i.past <:+ j.past →
      (∀ s ∈ body, Declared T j.scope j.past s) → (ordered T j).Holds l P x) :
    (ordered T i).Holds l P (do hoistFunctions host.traced body; x) := by
  -- Over the statements of the body. Each declaration binds a name and moves the spot on, so the
  -- spot is general.
  induction body generalizing i with
  | nil => exact hx i rfl List.suffix_rfl fun _ h => nomatch h
  | cons stmt rest ih =>
    obtain ⟨hstmt, hrest⟩ := List.forall_mem_cons.mp hbody
    cases hdeclares : stmt.declaresFunction with
    | false =>
      have hrun : hoistFunctions host.traced (stmt :: rest) = hoistFunctions host.traced rest := by
        cases stmt with
        | function => cases hdeclares
        | _ => rfl
      rw [hrun]
      refine ih hrest fun j hscope hpast hdeclared => hx j hscope hpast ?_
      exact List.forall_mem_cons.mpr ⟨declared_of_not hdeclares, hdeclared⟩
    | true =>
      cases stmt with
      | function f place =>
        have hf : T (.function f) := hT _ _ List.mem_cons_self hstmt
        change (ordered T i).Holds l P
          ((bindFunction host.traced f >>= fun _ => hoistFunctions host.traced rest) >>= fun _ => x)
        rw [bind_assoc]
        refine ordered_bindFunction hf (hfit _ hstmt) fun j hscope hpast hbound => ?_
        refine ih hrest fun k hscope' hpast' hdeclared => ?_
        refine hx k (hscope'.trans hscope) (hpast.trans hpast') ?_
        refine List.forall_mem_cons.mpr ⟨?_, hdeclared⟩
        rintro _ _ ⟨⟩
        rw [hscope', hscope]
        exact .inl (hbound.of_suffix hpast')
      | _ => cases hdeclares

/-- What scripts do from a spot on, so that all is in order. -/
theorem ordered_likeness (hT : Hereditary T) (hfit : ∀ q, T q → q.Fit)
    (accepted : ∀ name content {options p w}, host.file name = .bytes content →
      Program.ofSource options (Text.readUtf8 content) = .ok (p, w) → T (.program p)) (i : Spot) :
    Likeness (definedBy T) (Spot.ground T) host.traced host.traced 0
      (fun i => (ordered T i).rel) i where
  toDealing :=
    have dealing : Dealing (definedBy T) (.of T) host.traced host.traced (ordered T i).rel :=
      ordered_serves.dealing
    { dealing with }
  hereditary := hT.own
  names _ _ := trivial
  declareLocal name v isMutable _ :=
    declareLocal_alike (ordered_lawful (i := i)).naming name v isMutable
  sites _ _ := trivial
  outOfFuel _ _ _ _ hs := ⟨hs, .refl _⟩
  setLine line _ := ordered_lawful.setLine line
  begins _ _ hready hx := ordered_begins hready hx
  makeClosure {l} f hf := ordered_lawful.sequencing.makeClosure f fun _ _ => hf
  setLastValue v s hs := ⟨trivial, hs.back hs (.refl s) hs.scope, List.suffix_rfl, Nat.le_refl _⟩
  branch := ordered_branch
  noTarget _ _ _ _ hs := ⟨trivial, ordered_told hs .noTarget rfl⟩
  strayJump _ _ hs := ⟨trivial, ordered_told hs .strayJump rfl⟩
  alone {s} s' hs hs' := by
    rcases hs' with hs' | hs'
    · refine declared_of_not ?_
      cases s with
      | for_ init => exact (hfit _ hs : ∀ s ∈ init, s.declaresFunction = false) s' hs'
      | _ => cases hs'
    · exact fun _ _ _ => .inr ⟨s, hs, hs'⟩
  enters body hbody hxy := ordered_enters hT hfit hbody fun j _ _ hdeclared =>
    hxy j (Spot.ground_within T i j) hdeclared
  inBlockScope hxy := ordered_inBlockScope fun j id => hxy j (Spot.ground_within T i j) id
  inCall callee c args hc hxy := ordered_inCall callee c args fun j =>
    hxy j hc (fun s hs => hT _ _ (List.mem_map_of_mem hs) hc) trivial
  runFile name _ _ hrun := ordered_runFile name (accepted name) fun j p hp => hrun j p hp trivial
  method receiver key args := ordered_lawful.located ordered_announces
    (Library.method_alike ordered_lawful.sequencing (fun _ _ _ hs => ⟨hs, .refl _⟩) receiver key
      args)
  located hx := ordered_lawful.located ordered_announces hx
  guarded hx hhandler hfinalizer :=
    ordered_lawful.guarded (fun t ht => ordered_told ht .handlerBegins rfl)
      (fun t ht => ordered_told ht .finalizerBegins rfl) hx (Option.forall_mem_map.mpr hhandler)
      (Option.forall_mem_map.mpr hfinalizer)

end Contract

end Evaluation

end ScriptShell
