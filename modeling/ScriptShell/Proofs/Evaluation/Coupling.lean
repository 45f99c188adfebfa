import ScriptShell.Compilation
import ScriptShell.Proofs.Evaluation.Alike
import ScriptShell.Proofs.Evaluation.Everywhere
import ScriptShell.Proofs.Evaluation.Running

namespace ScriptShell

@[simp]
theorem uncaughtMessage_contents (h : Heap) (v : Value) :
    uncaughtMessage h.contents v = uncaughtMessage h v := by
  unfold uncaughtMessage
  rw [Heap.text_contents]
  rfl

namespace Evaluation

variable {σ τ α β : Type}

theorem strictWarning_apply (host : Host σ) (message : String) (s : State σ) :
    strictWarning host message s = .ok () (if s.runtime.strict = true then
      s.tell (host.report ((Report.warning message true).locate s.frame.filename s.frame.line))
      else s) := by
  unfold strictWarning
  rw [bind_apply]
  change (if s.runtime.strict = true then _ else _ : Eval σ Unit) s = _
  split <;> rfl

/-- What reading a source from inside a script comes to, once it has been parsed. -/
def readNested (host : Host σ) (source filename : String) :
    Except ParseError (Program × List ParseWarning) → Eval σ Program
  | .ok (p, warnings) => do
    reportWarnings host warnings source (some filename)
    return p
  | .error e => do
    let v ← newError .syntaxError e.fault.message
    throwAt host v (some filename) e.place.line

theorem compileNested_apply (host : Host σ) (source filename : String) (s : State σ) :
    compileNested host source filename s =
      readNested host source filename (Program.ofSource (s.runtime.parseOptions 1) source) s := by
  unfold compileNested
  rw [bind_apply]
  rfl

theorem writeStatistics_apply (host : Host σ) (s : State σ) :
    writeStatistics host s =
      .ok () { s with
        runtime := { s.runtime with heap := s.runtime.heap.collect.2 }
        host := host.write (Library.statisticsLine s.runtime.heap.collect.1
          (s.runtime.machine.programBreak s.runtime.heap.collect.2)) s.host } :=
  rfl

/-- States in one place of two runs, with related runtimes and hosts. -/
structure Coupled (S : Runtime → Runtime → Prop) (H : σ → τ → Prop) (s : State σ)
    (t : State τ) : Prop where
  runtime : S s.runtime t.runtime
  frame : s.frame = t.frame
  host : H s.host t.host

/-- The same end of two evaluations in related states. -/
inductive SameEnd (R : State σ → State τ → Prop) (P : α → Prop) :
    EStateM.Result Stop (State σ) α → EStateM.Result Stop (State τ) α → Prop where
  | ok {a : α} {s : State σ} {t : State τ} (ha : P a) (h : R s t) :
      SameEnd R P (.ok a s) (.ok a t)
  | error (e : Stop) {s : State σ} {t : State τ} (h : R s t) :
      SameEnd R P (.error e s) (.error e t)

def CoupledFrom (S : Runtime → Runtime → Prop) (H : σ → τ → Prop) (_ : Level) {α : Type}
    (P : α → Prop) (x : Eval σ α) (y : Eval τ α) : Prop :=
  ∀ s t, Coupled S H s t → SameEnd (Coupled S H) P (x s) (y t)

/-- What blind steps do not see of a runtime: they give the same from related ones, and related
ones again. -/
structure Unseen (S : Runtime → Runtime → Prop) : Prop where
  result : ∀ {α : Type} {g : Runtime → Frame → α × Runtime × Frame} {r r' : Runtime} (f : Frame),
    Blind g → S r r' → (g r f).1 = (g r' f).1
  runtime : ∀ {α : Type} {g : Runtime → Frame → α × Runtime × Frame} {r r' : Runtime} (f : Frame),
    Blind g → S r r' → S (g r f).2.1 (g r' f).2.1
  frame : ∀ {α : Type} {g : Runtime → Frame → α × Runtime × Frame} {r r' : Runtime} (f : Frame),
    Blind g → S r r' → (g r f).2.2 = (g r' f).2.2

/-- What couples runs of programs: relations that blind steps and dealings with the hosts keep. -/
structure Coupling (S : Runtime → Runtime → Prop) (H : σ → τ → Prop) (host : Host σ)
    (host' : Host τ) : Prop extends Unseen S where
  report : ∀ {h h'} r, r.severity = .error → H h h' → H (host.report r h) (host'.report r h')
  write : ∀ {h h'} text, H h h' → H (host.write text h) (host'.write text h')
  requestQuit : ∀ {h h'} code, H h h' → H (host.requestQuit code h) (host'.requestQuit code h')
  observe : ∀ {h h' r r'} m f, S r r' → H h h' →
    H (host.observe m r f h) (host'.observe m r' f h')
  file : host.file = host'.file
  strictWarning : ∀ message, CoupledFrom S H .expression any (strictWarning host message)
    (strictWarning host' message)
  statistics : CoupledFrom S H .expression any (writeStatistics host) (writeStatistics host')
  compileNested : ∀ source filename, CoupledFrom S H .expression any
    (compileNested host source filename) (compileNested host' source filename)
  branch : ∀ line, CoupledFrom S H .statement any (branch host line) (branch host' line)

variable {S : Runtime → Runtime → Prop} {H : σ → τ → Prop} {host : Host σ} {host' : Host τ}
  {P : α → Prop} {Q : β → Prop} {l : Level}

theorem Coupled.observed
    (observe : ∀ {h h' r r'} m f, S r r' → H h h' →
      H (host.observe m r f h) (host'.observe m r' f h'))
    (m : Moment) {s : State σ} {t : State τ} (hst : Coupled S H s t) :
    Coupled S H (s.observed host m) (t.observed host' m) := by
  refine ⟨hst.runtime, hst.frame, ?_⟩
  rw [State.observed, State.observed, hst.frame]
  exact observe m t.frame hst.runtime hst.host

theorem CoupledFrom.throwAt
    (observe : ∀ {h h' r r'} m f, S r r' → H h h' →
      H (host.observe m r f h) (host'.observe m r' f h'))
    (v : Value) (file : Option String) (line : Nat) :
    CoupledFrom S H l P (throwAt host v file line) (throwAt host' v file line) :=
  fun _ _ hst => .error _ (hst.observed observe _)

theorem CoupledFrom.bind {x : Eval σ α} {y : Eval τ α} {f : α → Eval σ β} {g : α → Eval τ β}
    (hx : CoupledFrom S H l P x y) (hf : ∀ a, P a → CoupledFrom S H l Q (f a) (g a)) :
    CoupledFrom S H l Q (x >>= f) (y >>= g) := by
  intro s t hst
  have hend := hx s t hst
  rw [bind_apply, bind_apply]
  generalize x s = r at hend ⊢
  generalize y t = r' at hend ⊢
  cases hend with
  | ok ha h => exact hf _ ha _ _ h
  | error e h => exact .error e h

theorem CoupledFrom.weaken {P' : α → Prop} {x : Eval σ α} {y : Eval τ α}
    (hx : CoupledFrom S H l P x y) (hP : ∀ a, P a → P' a) : CoupledFrom S H l P' x y := by
  intro s t hst
  have hend := hx s t hst
  generalize x s = r at hend ⊢
  generalize y t = r' at hend ⊢
  cases hend with
  | ok ha h => exact .ok (hP _ ha) h
  | error e h => exact .error e h

theorem SameEnd.inState {R R' : State σ → State τ → Prop} {f : State σ → State σ}
    {g : State τ → State τ} (hfg : ∀ s t, R s t → R' (f s) (g t))
    {r : EStateM.Result Stop (State σ) α} {r' : EStateM.Result Stop (State τ) α}
    (h : SameEnd R P r r') : SameEnd R' P (inState f r) (inState g r') := by
  cases h with
  | ok ha h => exact .ok ha (hfg _ _ h)
  | error e h => exact .error e (hfg _ _ h)

theorem SameEnd.overridden {R : State σ → State τ → Prop} {P : Completion → Prop}
    {before : State σ → EStateM.Result Stop (State σ) Completion}
    {before' : State τ → EStateM.Result Stop (State τ) Completion}
    {r : EStateM.Result Stop (State σ) Completion} {r' : EStateM.Result Stop (State τ) Completion}
    (h : SameEnd R P r r') (hbefore : ∀ s t, R s t → SameEnd R P (before s) (before' t)) :
    SameEnd R P (Evaluation.overridden before r) (Evaluation.overridden before' r') := by
  cases h with
  | @ok c s t hc h =>
    cases c with
    | normal => exact hbefore s t h
    | return_ | break_ | continue_ => exact .ok hc h
  | error e h => exact .error e h

namespace Unseen

variable (h : Unseen S)
include h

theorem keeping {g : Runtime → Frame → α × Runtime × Frame}
    (hkeeping : Keeping (definedBy anyPart) P g) (hblind : Blind g) :
    CoupledFrom S H l P (Evaluation.step g) (Evaluation.step g) := by
  intro s t hst
  have hend : SameEnd (Coupled S H) P
      (.ok (g s.runtime s.frame).1 ⟨(g s.runtime s.frame).2.1, (g s.runtime s.frame).2.2, s.host⟩)
      (Evaluation.step g t) := by
    rw [hst.frame, Evaluation.step, h.result t.frame hblind hst.runtime]
    refine .ok (hkeeping.result _ _ (Heap.definedIn_anyPart _)) ⟨?_, ?_, hst.host⟩
    · exact h.runtime t.frame hblind hst.runtime
    · exact h.frame t.frame hblind hst.runtime
  exact hend

theorem step {x : ∀ σ, Eval σ α} (hx : IsNaming (definedBy anyPart) P x) :
    CoupledFrom S H l P (x σ) (x τ) := by
  obtain ⟨g, hx, hkeeping, hblind, -⟩ := hx
  rw [hx, hx]
  exact h.keeping hkeeping hblind

theorem naming : Naming (definedBy anyPart) (CoupledFrom S H) where
  relax hx := hx
  settle hx := hx
  weaken := CoupledFrom.weaken
  bind := CoupledFrom.bind
  naming := h.step
  fault _ f _ _ hst := .error (.fault f) hst

theorem sequencing : Sequencing (definedBy anyPart) (CoupledFrom S H) :=
  h.naming.toSequencing

theorem atDepth {s : State σ} {t : State τ} (f : Nat → Nat) (hst : Coupled S H s t) :
    Coupled S H (s.atDepth (f s.runtime.callDepth)) (t.atDepth (f t.runtime.callDepth)) := by
  have hblind : Blind fun r fr => ((), { r with callDepth := f r.callDepth }, fr) :=
    ⟨fun _ _ _ => rfl, fun _ _ => rfl, fun _ _ => rfl, fun _ _ => rfl⟩
  exact ⟨h.runtime t.frame hblind hst.runtime, hst.frame, hst.host⟩

theorem isTooDeep {s : State σ} {t : State τ} (hst : Coupled S H s t) :
    s.isTooDeep = t.isTooDeep := by
  have hblind : Blind fun r fr =>
      ((r.stackLimit.map fun limit => decide (r.machine.stackAddress r.callDepth < limit)).getD false ||
        decide (maxCallDepth ≤ r.callDepth), r, fr) :=
    ⟨fun _ _ _ => rfl, fun _ _ => rfl, fun _ _ => rfl, fun _ _ => rfl⟩
  exact h.result t.frame hblind hst.runtime

end Unseen

namespace Coupling

variable (h : Coupling S H host host')
include h

theorem observed {s : State σ} {t : State τ} (m : Moment) (hst : Coupled S H s t) :
    Coupled S H (s.observed host m) (t.observed host' m) :=
  hst.observed h.observe m

theorem throwAt (v : Value) (file : Option String) (line : Nat) :
    CoupledFrom S H l P (throwAt host v file line) (throwAt host' v file line) :=
  CoupledFrom.throwAt h.observe v file line

theorem dealing : Dealing (definedBy anyPart) (.of anyPart) host host' (CoupledFrom S H) where
  toSequencing := h.sequencing
  frame := h.sequencing.frame anyPart
  throwAt _ v _ _ _ _ := h.throwAt v _ _
  write text _ _ hst := .ok trivial ⟨hst.runtime, hst.frame, h.write text hst.host⟩
  quit _ code s t hst := by
    have announced := h.observed .quits hst
    exact .error .aborted ⟨announced.runtime, announced.frame, h.requestQuit code announced.host⟩
  readFile name := by
    unfold Library.readFile
    rw [h.file]
    cases host'.file name with
    | bytes content => exact h.sequencing.result _
    | failed e => exact h.sequencing.raise _ _ h.throwAt _ _
    | unknown => exact fun _ _ hst => .error _ hst
  strictWarning := h.strictWarning
  statistics := h.statistics
  accesses m _ _ _ hst := .ok trivial (h.observed m hst)

theorem oneDeeper {x refused : Eval σ α} {y refused' : Eval τ α}
    (hrefused : CoupledFrom S H .expression P refused refused')
    (hx : CoupledFrom S H .expression P x y) :
    CoupledFrom S H .expression P (do if ← tooDeep then refused else oneDeeper host x)
      (do if ← tooDeep then refused' else oneDeeper host' y) := by
  intro s t hst
  change SameEnd (Coupled S H) P
    ((if s.isTooDeep = true then refused else Evaluation.oneDeeper host x) s)
    ((if t.isTooDeep = true then refused' else Evaluation.oneDeeper host' y) t)
  rw [h.isTooDeep hst]
  split
  · exact hrefused s t hst
  · rw [oneDeeper_apply, oneDeeper_apply]
    have hentered := h.observed .callBegins (h.atDepth (· + 1) hst)
    exact (hx _ _ hentered).inState fun u v huv =>
      h.observed .callEnds (h.atDepth (· - 1) huv)

theorem handled {P : Completion → Prop} {handler : Option CatchClause}
    {handle : CatchClause → Value → Eval σ Completion}
    {handle' : CatchClause → Value → Eval τ Completion}
    (hhandler : ∀ c ∈ handler, ∀ v, CoupledFrom S H .statement P (handle c v) (handle' c v))
    {r : EStateM.Result Stop (State σ) Completion} {r' : EStateM.Result Stop (State τ) Completion}
    (hr : SameEnd (Coupled S H) P r r') :
    SameEnd (Coupled S H) P (handled host (handler.map handle) r)
      (handled host' (handler.map handle') r') := by
  cases handler with
  | none => exact hr
  | some c =>
    cases hr with
    | ok ha huv => exact .ok ha huv
    | error e huv =>
      cases e with
      | thrown v file line => exact hhandler c rfl v _ _ (h.observed .handlerBegins huv)
      | aborted | fault | wanting | outOfFuel => exact .error _ huv

theorem finished {P : Completion → Prop} {finalizer : Option (List Stmt)}
    {last : List Stmt → Eval σ Completion} {last' : List Stmt → Eval τ Completion}
    (hfinalizer : ∀ body ∈ finalizer, CoupledFrom S H .statement P (last body) (last' body))
    {r : EStateM.Result Stop (State σ) Completion} {r' : EStateM.Result Stop (State τ) Completion}
    (hr : SameEnd (Coupled S H) P r r') :
    SameEnd (Coupled S H) P (finished host (finalizer.map last) r)
      (finished host' (finalizer.map last') r') := by
  cases finalizer with
  | none => exact hr
  | some body =>
    have run {u : State σ} {v : State τ} (huv : Coupled S H u v) :=
      hfinalizer body rfl _ _ (h.observed .finalizerBegins huv)
    cases hr with
    | ok ha huv => exact (run huv).overridden fun _ _ h => .ok ha h
    | error e huv =>
      cases e with
      | thrown v file line => exact (run huv).overridden fun _ _ h => .error _ h
      | aborted | fault | wanting | outOfFuel => exact .error _ huv

theorem openUnit (name : String) :
    CoupledFrom S H .expression any (openUnit host name) (openUnit host' name) :=
  (h.dealing.readFile name).bind fun _ _ => h.compileNested _ name

theorem located {x : Eval σ α} {y : Eval τ α} (hx : CoupledFrom S H .expression P x y) :
    CoupledFrom S H .expression P (located host x) (located host' y) := by
  intro s t hst
  have hend := hx s t hst
  rw [located_apply, located_apply]
  generalize x s = r at hend ⊢
  generalize y t = r' at hend ⊢
  cases hend with
  | ok ha h => exact .ok ha h
  | @error e u v huv =>
    cases e with
    | thrown value file line =>
      obtain _ | file := file
      · cases line with
        | zero =>
          change SameEnd (Coupled S H) P
            (Evaluation.throwAt host value u.frame.filename u.frame.line u)
            (Evaluation.throwAt host' value v.frame.filename v.frame.line v)
          rw [huv.frame]
          exact h.throwAt (l := .expression) value _ _ u v huv
        | succ => exact .error _ huv
      · exact .error _ huv
    | aborted | fault | wanting | outOfFuel => exact .error _ huv

theorem everywhere : Everywhere anyPart host host' 0 (CoupledFrom S H) where
  toDealing := h.dealing
  hereditary := hereditary_anyPart
  naming := h.step
  body hx := hx
  unlocated _ v _ _ hst := .error (.thrown v none 0) hst
  setLine line := h.keeping (keeping_lineStep line) (blind_lineStep line)
  openUnit := h.openUnit
  outOfFuel _ y hy s t hst := by
    rw [hy rfl]
    exact .error .outOfFuel hst
  setLastValue v s t hst :=
    .ok trivial ⟨hst.runtime, congrArg (fun f : Frame => { f with lastValue := v }) hst.frame,
      hst.host⟩
  branch := h.branch
  told m _ _ _ hst := .ok trivial (h.observed m hst)
  inScope id hx s t hst := by
    rw [inScope_apply, inScope_apply]
    have hin : Coupled S H (s.inScope (some id)) (t.inScope (some id)) :=
      ⟨hst.runtime, congrArg (fun f : Frame => { f with scope := some id }) hst.frame, hst.host⟩
    refine (hx _ _ hin).inState fun u v huv => ⟨huv.runtime, ?_, huv.host⟩
    rw [State.inScope, State.inScope, State.inFrame, State.inFrame, hst.frame, huv.frame]
  inFrame frame hx s t hst := by
    rw [inFrame_apply, inFrame_apply]
    have hin : Coupled S H (s.inFrame frame) (t.inFrame frame) := ⟨hst.runtime, rfl, hst.host⟩
    exact (hx _ _ hin).inState fun u v huv => ⟨huv.runtime, hst.frame, huv.host⟩
  oneDeeper _ _ hrefused hx := h.oneDeeper hrefused hx
  located hx := h.located hx
  -- A block and its handlers in the three steps of `guarded`: the body, its handler, the final
  -- part.
  guarded hx hhandler hfinalizer s t hst := by
    rw [guarded_apply, guarded_apply]
    exact h.finished hfinalizer (h.handled hhandler (hx s t hst))

/-- Coupled runs of a unit end alike, also where an exception that leaves it is reported. -/
theorem execute {r r' : Runtime} {state : σ} {state' : τ} (hr : S r r') (hstate : H state state')
    (fuel : Nat) (filename : Option String) (p : Program) :
    (r.execute host fuel filename p state).1 = (r'.execute host' fuel filename p state').1 ∧
      S (r.execute host fuel filename p state).2.1 (r'.execute host' fuel filename p state').2.1 ∧
      H (r.execute host fuel filename p state).2.2
        (r'.execute host' fuel filename p state').2.2 := by
  have run := (alike h.everywhere.likeness fuel ()).program p trivial ⟨r, unitFrame filename, state⟩
    ⟨r', unitFrame filename, state'⟩ ⟨hr, rfl, hstate⟩
  rw [Nat.zero_add] at run
  unfold Runtime.execute
  generalize program host fuel p ⟨r, unitFrame filename, state⟩ = e at run ⊢
  generalize program host' fuel p ⟨r', unitFrame filename, state'⟩ = e' at run ⊢
  cases run with
  | ok ha hst => exact ⟨rfl, hst.runtime, hst.host⟩
  | @error e s t hst =>
    cases e with
    | thrown v file line =>
      have hblind : Blind fun r fr => (uncaughtMessage r.heap v, r, fr) :=
        ⟨fun _ _ _ => rfl, fun r _ => uncaughtMessage_contents r.heap v, fun _ _ => rfl,
          fun _ _ => rfl⟩
      have hmessage : uncaughtMessage s.runtime.heap v = uncaughtMessage t.runtime.heap v :=
        h.result t.frame hblind hst.runtime
      dsimp only
      rw [Runtime.uncaught, Runtime.uncaught, hmessage]
      cases uncaughtMessage t.runtime.heap v with
      | ok message => exact ⟨rfl, hst.runtime, h.report _ rfl hst.host⟩
      | error f => exact ⟨rfl, hst.runtime, hst.host⟩
    | aborted | fault | wanting | outOfFuel => exact ⟨rfl, hst.runtime, hst.host⟩

end Coupling

end Evaluation

end ScriptShell
