import ScriptShell.Compilation
import ScriptShell.Proofs.Evaluation.Alike
import ScriptShell.Proofs.Evaluation.Everywhere
import ScriptShell.Proofs.Evaluation.Running
import ScriptShell.Proofs.Host.Trace

namespace ScriptShell

/-- A host that does what another does, on more state. -/
structure Host.Projects {σ τ : Type} (f : τ → σ) (host : Host σ) (host' : Host τ) : Prop where
  report : ∀ r t, f (host'.report r t) = host.report r (f t)
  answer : ∀ filename line t,
    (host'.onBranch filename line t).1 = (host.onBranch filename line (f t)).1
  onBranch : ∀ filename line t,
    f (host'.onBranch filename line t).2 = (host.onBranch filename line (f t)).2
  write : ∀ text t, f (host'.write text t) = host.write text (f t)
  requestQuit : ∀ code t, f (host'.requestQuit code t) = host.requestQuit code (f t)
  file : host'.file = host.file
  observe : ∀ m r frame t, f (host'.observe m r frame t) = host.observe m r frame (f t)

theorem Host.projects_self {σ : Type} (host : Host σ) : Host.Projects id host host :=
  ⟨fun _ _ => rfl, fun _ _ _ => rfl, fun _ _ _ => rfl, fun _ _ => rfl, fun _ _ => rfl, rfl,
    fun _ _ _ _ => rfl⟩

theorem Host.projects_traced {σ : Type} (host : Host σ) :
    Host.Projects Prod.fst host host.traced :=
  ⟨fun _ _ => rfl, fun _ _ _ => rfl, fun _ _ _ => rfl, fun _ _ => rfl, fun _ _ => rfl, rfl,
    fun _ _ _ _ => rfl⟩

namespace Evaluation

variable {σ τ α β : Type}

def State.project (f : τ → σ) (t : State τ) : State σ :=
  ⟨t.runtime, t.frame, f t.host⟩

def projectResult (f : τ → σ) :
    EStateM.Result Stop (State τ) α → EStateM.Result Stop (State σ) α
  | .ok a t => .ok a (t.project f)
  | .error e t => .error e (t.project f)

def Follows (f : τ → σ) (extra : Nat) (P : α → Prop) (r : EStateM.Result Stop (State σ) α)
    (r' : EStateM.Result Stop (State τ) α) : Prop :=
  (extra ≠ 0 ∧ ∃ s, r = .error .outOfFuel s) ∨
    (r = projectResult f r' ∧ ∀ a t, r' = .ok a t → P a)

def FollowsFrom (f : τ → σ) (extra : Nat) (_ : Level) {α : Type} (P : α → Prop) (x : Eval σ α)
    (y : Eval τ α) : Prop :=
  ∀ t, Follows f extra P (x (t.project f)) (y t)

variable {f : τ → σ} {extra : Nat} {P : α → Prop} {Q : β → Prop} {host : Host σ}
  {host' : Host τ}

theorem Follows.inState {g : State σ → State σ} {g' : State τ → State τ}
    (hg : ∀ t, g (t.project f) = (g' t).project f)
    {r : EStateM.Result Stop (State σ) α} {r' : EStateM.Result Stop (State τ) α}
    (h : Follows f extra P r r') : Follows f extra P (inState g r) (inState g' r') := by
  rcases h with ⟨hextra, s, rfl⟩ | ⟨rfl, hP⟩
  · exact .inl ⟨hextra, g s, rfl⟩
  · cases r' with
    | ok a t => exact .inr ⟨congrArg _ (hg t), fun b u hb => by cases hb; exact hP a t rfl⟩
    | error e t => exact .inr ⟨congrArg _ (hg t), fun b u hb => nomatch hb⟩

theorem follows_ok {a : α} (ha : P a) {s : State σ} {t : State τ} (h : s = t.project f) :
    Follows f extra P (.ok a s) (.ok a t) :=
  .inr ⟨congrArg _ h, fun _ _ hb => by cases hb; exact ha⟩

theorem follows_error (e : Stop) {s : State σ} {t : State τ} (h : s = t.project f) :
    Follows f extra P (.error e s) (.error e t) :=
  .inr ⟨congrArg _ h, fun _ _ hb => nomatch hb⟩

theorem FollowsFrom.bind {l : Level} {x : Eval σ α} {y : Eval τ α} {g : α → Eval σ β}
    {g' : α → Eval τ β} (hx : FollowsFrom f extra l P x y)
    (hg : ∀ a, P a → FollowsFrom f extra l Q (g a) (g' a)) :
    FollowsFrom f extra l Q (x >>= g) (y >>= g') := by
  intro t
  rw [bind_apply, bind_apply]
  rcases hx t with ⟨hextra, s, hs⟩ | ⟨hend, hP⟩
  · rw [hs]
    exact .inl ⟨hextra, s, rfl⟩
  · rw [hend]
    cases hy : y t with
    | ok a u => exact hg a (hP a u hy) u
    | error e u => exact follows_error e rfl

theorem followsFrom_keeping {l : Level} {g : Runtime → Frame → α × Runtime × Frame}
    (hg : Keeping (definedBy anyPart) P g) :
    FollowsFrom f extra l P (Evaluation.step g) (Evaluation.step g) :=
  fun _ => follows_ok (hg.result _ _ (Heap.definedIn_anyPart _)) rfl

theorem followsFrom_step {l : Level} {x : ∀ σ, Eval σ α}
    (hx : IsNaming (definedBy anyPart) P x) : FollowsFrom f extra l P (x σ) (x τ) := by
  obtain ⟨g, hx, hg, -⟩ := hx
  rw [hx, hx]
  exact followsFrom_keeping hg

theorem followsFrom_freeStep {l : Level} {x : ∀ σ, Eval σ α}
    (hx : IsFreeStep (definedBy anyPart) P x) : FollowsFrom f extra l P (x σ) (x τ) := by
  obtain ⟨g, hx, hg, -⟩ := hx
  rw [hx, hx]
  exact followsFrom_keeping hg

theorem followsFrom_naming : Naming (definedBy anyPart) (FollowsFrom f extra) where
  relax h := h
  settle h := h
  weaken := by
    intro l α P Q x y h hPQ t
    rcases h t with hfuel | ⟨hend, hP⟩
    · exact .inl hfuel
    · exact .inr ⟨hend, fun a u hy => hPQ a (hP a u hy)⟩
  bind := FollowsFrom.bind
  naming := followsFrom_step
  fault _ _ _ := follows_error _ rfl

theorem followsFrom_sequencing : Sequencing (definedBy anyPart) (FollowsFrom f extra) :=
  followsFrom_naming.toSequencing

theorem followsFrom_stepping : Stepping (definedBy anyPart) (FollowsFrom f extra) where
  toSequencing := followsFrom_sequencing
  freeStep := followsFrom_freeStep

theorem followsFrom_throwAt (h : Host.Projects f host host') {l : Level} (v : Value)
    (file : Option String) (line : Nat) :
    FollowsFrom f extra l P (throwAt host v file line) (throwAt host' v file line) := by
  intro t
  rw [throwAt_apply, throwAt_apply]
  exact follows_error _ (by simp only [State.observed, State.project, h.observe])

theorem Follows.handled (h : Host.Projects f host host')
    {handler : Option CatchClause} {handle : CatchClause → Value → Eval σ Completion}
    {handle' : CatchClause → Value → Eval τ Completion} {P : Completion → Prop}
    (hhandler : ∀ c ∈ handler, ∀ v,
      FollowsFrom f extra .statement P (handle c v) (handle' c v))
    {r : EStateM.Result Stop (State σ) Completion} {r' : EStateM.Result Stop (State τ) Completion}
    (hr : Follows f extra P r r') :
    Follows f extra P (handled host (handler.map handle) r)
      (handled host' (handler.map handle') r') := by
  rcases hr with ⟨hextra, s, rfl⟩ | ⟨rfl, hP⟩
  · left
    refine ⟨hextra, s, ?_⟩
    cases handler <;> rfl
  · cases handler with
    | none => exact .inr ⟨rfl, hP⟩
    | some c =>
      cases r' with
      | ok c t => exact .inr ⟨rfl, hP⟩
      | error e t =>
        cases e with
        | thrown v file line =>
          have run := hhandler c rfl v (t.observed host' .handlerBegins)
          have hstate : (t.project f).observed host .handlerBegins =
              (t.observed host' .handlerBegins).project f := by
            simp only [State.observed, State.project, h.observe]
          rw [← hstate] at run
          exact run
        | aborted | fault | wanting | outOfFuel => exact .inr ⟨rfl, hP⟩

theorem Follows.overridden {P : Completion → Prop} {last : Eval σ Completion}
    {last' : Eval τ Completion} (hlast : FollowsFrom f extra .statement P last last')
    (u : State τ) (r : State σ → EStateM.Result Stop (State σ) Completion)
    (r' : State τ → EStateM.Result Stop (State τ) Completion)
    (hr : ∀ t, Follows f extra P (r (t.project f)) (r' t)) :
    Follows f extra P
      (Evaluation.overridden r (last (u.project f))) (Evaluation.overridden r' (last' u)) := by
  rcases hlast u with ⟨hextra, s, hs⟩ | ⟨hend, hP⟩
  · rw [hs]
    exact .inl ⟨hextra, s, rfl⟩
  · rw [hend]
    cases hu : last' u with
    | error e t => exact follows_error e rfl
    | ok c t =>
      cases c with
      | normal => exact hr t
      | return_ | break_ | continue_ => exact follows_ok (hP _ t hu) rfl

theorem Follows.finished (h : Host.Projects f host host')
    {finalizer : Option (List Stmt)} {last : List Stmt → Eval σ Completion}
    {last' : List Stmt → Eval τ Completion} {P : Completion → Prop}
    (hfinalizer : ∀ body ∈ finalizer, FollowsFrom f extra .statement P (last body) (last' body))
    {r : EStateM.Result Stop (State σ) Completion} {r' : EStateM.Result Stop (State τ) Completion}
    (hr : Follows f extra P r r') :
    Follows f extra P (finished host (finalizer.map last) r)
      (finished host' (finalizer.map last') r') := by
  have hstate (t : State τ) : (t.project f).observed host .finalizerBegins =
      (t.observed host' .finalizerBegins).project f := by
    simp only [State.observed, State.project, h.observe]
  rcases hr with ⟨hextra, s, rfl⟩ | ⟨rfl, hP⟩
  · left
    refine ⟨hextra, s, ?_⟩
    cases finalizer <;> rfl
  -- The final part runs behind a value and behind an exception, and is left out behind a stop.
  · cases finalizer with
    | none => exact .inr ⟨rfl, hP⟩
    | some body =>
      have run := hfinalizer body rfl
      cases r' with
      | ok c t =>
        have hc := Follows.overridden run (t.observed host' .finalizerBegins) (.ok c) (.ok c)
          fun u => follows_ok (hP c t rfl) rfl
        rw [← hstate] at hc
        exact hc
      | error e t =>
        cases e with
        | thrown v file line =>
          have hv := Follows.overridden run (t.observed host' .finalizerBegins)
            (.error (.thrown v file line)) (.error (.thrown v file line))
            fun u => follows_error _ rfl
          rw [← hstate] at hv
          exact hv
        | aborted | fault | wanting | outOfFuel => exact .inr ⟨rfl, hP⟩

theorem followsFrom_located (h : Host.Projects f host host') {x : Eval σ α} {y : Eval τ α}
    (hxy : FollowsFrom f extra .expression P x y) :
    FollowsFrom f extra .expression P (located host x) (located host' y) := by
  intro t
  rw [located_apply, located_apply]
  rcases hxy t with ⟨hextra, s, hs⟩ | ⟨hend, hP⟩
  · rw [hs]
    exact .inl ⟨hextra, s, rfl⟩
  · rw [hend]
    cases hy : y t with
    | ok a u => exact follows_ok (hP a u hy) rfl
    | error e u =>
      cases e with
      | thrown v file line =>
        obtain _ | file := file
        · cases line with
          | zero => exact followsFrom_throwAt h (l := .expression) v _ _ u
          | succ line => exact follows_error _ rfl
        · exact follows_error _ rfl
      | aborted | fault | wanting | outOfFuel => exact follows_error _ rfl

theorem followsFrom_oneDeeper (h : Host.Projects f host host') {x : Eval σ α} {y : Eval τ α}
    {refused : Eval σ α} {refused' : Eval τ α}
    (hrefused : FollowsFrom f extra .expression P refused refused')
    (hx : FollowsFrom f extra .expression P x y) :
    FollowsFrom f extra .expression P (do if ← tooDeep then refused else oneDeeper host x)
      (do if ← tooDeep then refused' else oneDeeper host' y) := by
  intro t
  change Follows f extra P
    ((if (t.project f).isTooDeep = true then refused else oneDeeper host x) (t.project f))
    ((if t.isTooDeep = true then refused' else oneDeeper host' y) t)
  cases hdeep : t.isTooDeep with
  | true =>
    have hdeep' : (t.project f).isTooDeep = true := hdeep
    rw [hdeep']
    exact hrefused t
  | false =>
    have hdeep' : (t.project f).isTooDeep = false := hdeep
    rw [hdeep']
    change Follows f extra P (oneDeeper host x _) (oneDeeper host' y _)
    rw [oneDeeper_apply, oneDeeper_apply]
    have hentered : (t.project f).entered host = (t.entered host').project f := by
      simp only [State.entered, State.observed, State.atDepth, State.project, h.observe]
    rw [hentered]
    refine (hx _).inState fun u => ?_
    simp only [State.left, State.observed, State.atDepth, State.project, h.observe]

theorem followsFrom_branch (h : Host.Projects f host host') (line : Nat) :
    FollowsFrom f extra .statement any (branch host line) (branch host' line) := by
  intro t
  have htold : (t.project f).observed host .notifies = (t.observed host' .notifies).project f := by
    simp only [State.observed, State.project, h.observe]
  have hnotified : (t.project f).notified host line = (t.notified host' line).project f := by
    rw [State.notified, State.notified, htold]
    simp only [State.tell, State.observed, State.project, h.onBranch]
  have hanswer : (t.project f).answer host line = t.answer host' line := by
    rw [State.answer, State.answer, htold]
    exact (h.answer _ _ _).symm
  cases ht : t.runtime.tellsBranches with
  | false =>
    rw [branch_silent host line (t.project f) ht, branch_silent host' line t ht]
    exact follows_ok trivial rfl
  | true =>
    rw [branch_apply host line (t.project f) ht, branch_apply host' line t ht, hanswer]
    cases t.answer host' line with
    | continue_ => exact follows_ok trivial hnotified
    | collect =>
      refine follows_ok trivial ?_
      rw [hnotified]
      rfl
    | abort => exact follows_error _ hnotified

theorem followsFrom_report (h : Host.Projects f host host') (r : Report) :
    FollowsFrom f extra .expression any (report host r) (report host' r) :=
  fun t => follows_ok trivial (by simp only [State.project, h.report])

theorem followsFrom_dealing (h : Host.Projects f host host') :
    Dealing (definedBy anyPart) (.of anyPart) host host' (FollowsFrom f extra) := by
  refine followsFrom_stepping.dealing (followsFrom_sequencing.frame anyPart)
    (fun _ v _ _ _ _ => followsFrom_throwAt h v _ _) (fun r _ => followsFrom_report h r)
    (fun text t => follows_ok trivial (by simp only [State.project, h.write]))
    (fun _ code t => ?_) (fun name => ?_)
    fun _ _ _ => follows_ok trivial (by simp only [State.project, h.observe])
  · refine follows_error .aborted ?_
    simp only [State.project, h.requestQuit, h.observe]
  · unfold Library.readFile
    rw [h.file]
    cases host.file name with
    | bytes content => exact followsFrom_sequencing.result _
    | failed e => exact followsFrom_sequencing.raise _ _ (followsFrom_throwAt h) _ _
    | unknown => exact fun t => follows_error _ rfl

theorem followsFrom_everywhere (h : Host.Projects f host host') (extra : Nat) :
    Everywhere anyPart host host' extra (FollowsFrom f extra) where
  toDealing := followsFrom_dealing h
  hereditary := hereditary_anyPart
  naming := followsFrom_step
  body h := h
  unlocated _ _ _ := follows_error _ rfl
  setLine line := followsFrom_keeping (keeping_lineStep line)
  openUnit name := openUnit_alike followsFrom_stepping (followsFrom_dealing h)
    (fun r _ => followsFrom_report h r) name ((followsFrom_dealing h).readFile name)
    fun _ _ _ _ _ _ => trivial
  outOfFuel := by
    intro l α P y hy t
    by_cases hextra : extra = 0
    · rw [hy hextra]
      exact follows_error _ rfl
    · exact .inl ⟨hextra, _, rfl⟩
  setLastValue _ _ := follows_ok trivial rfl
  branch := followsFrom_branch h
  told m _ t := follows_ok trivial (by simp only [State.project, h.observe])
  inScope id hx t := by
    rw [inScope_apply, inScope_apply]
    refine (hx (t.inScope (some id))).inState fun u => ?_
    rfl
  inFrame frame hx t := by
    rw [inFrame_apply, inFrame_apply]
    refine (hx (t.inFrame frame)).inState fun u => ?_
    rfl
  oneDeeper _ _ hrefused hx := followsFrom_oneDeeper h hrefused hx
  located hx := followsFrom_located h hx
  guarded hx hhandler hfinalizer t := by
    rw [guarded_apply, guarded_apply]
    exact Follows.finished h hfinalizer (Follows.handled h hhandler (hx t))

end Evaluation

namespace Runtime

variable {σ τ : Type}

def projectRun (f : τ → σ) (run : Outcome × Runtime × τ) : Outcome × Runtime × σ :=
  (run.1, run.2.1, f run.2.2)

theorem uncaught_follows {f : τ → σ} {host : Host σ} {host' : Host τ}
    (h : Host.Projects f host host') (v : Value) (file : Option String) (line : Nat)
    (t : Evaluation.State τ) :
    uncaught host v file line (t.project f) = projectRun f (uncaught host' v file line t) := by
  unfold uncaught
  cases hm : uncaughtMessage t.runtime.heap v with
  | ok message => simp only [projectRun, Evaluation.State.project, hm, h.report]
  | error e => simp only [projectRun, Evaluation.State.project, hm]

theorem execute_follows {f : τ → σ} {host : Host σ} {host' : Host τ}
    (h : Host.Projects f host host') (r : Runtime) (fuel extra : Nat) (filename : Option String)
    (p : Program) (state : τ) :
    (extra ≠ 0 ∧ (r.execute host fuel filename p (f state)).1 = .stopped .outOfFuel) ∨
      r.execute host fuel filename p (f state) =
        projectRun f (r.execute host' (extra + fuel) filename p state) := by
  have run := (Evaluation.alike (Evaluation.followsFrom_everywhere h extra).likeness fuel
    ()).program p trivial
    ⟨r, Evaluation.unitFrame filename, state⟩
  unfold execute
  rcases run with ⟨hextra, s, hs⟩ | ⟨hend, -⟩
  · change Evaluation.program host fuel p ⟨r, Evaluation.unitFrame filename, f state⟩ = _ at hs
    rw [hs]
    exact .inl ⟨hextra, rfl⟩
  · change Evaluation.program host fuel p ⟨r, Evaluation.unitFrame filename, f state⟩ = _ at hend
    right
    rw [hend]
    cases Evaluation.program host' (extra + fuel) p ⟨r, Evaluation.unitFrame filename, state⟩ with
    | ok v t => rfl
    | error e t =>
      cases e with
      | thrown v file line => exact uncaught_follows h v file line t
      | aborted | fault | wanting | outOfFuel => rfl

theorem execute_more_fuel (host : Host σ) (r : Runtime) (fuel extra : Nat)
    (filename : Option String) (p : Program) (state : σ)
    (h : (r.execute host fuel filename p state).1 ≠ .stopped .outOfFuel) :
    r.execute host (extra + fuel) filename p state = r.execute host fuel filename p state := by
  rcases execute_follows host.projects_self r fuel extra filename p state with ⟨-, hfuel⟩ | hend
  · exact (h hfuel).elim
  · exact hend.symm

theorem execute_traced (host : Host σ) (r : Runtime) (fuel : Nat) (filename : Option String)
    (p : Program) (state : σ) (trace : List Event) :
    r.execute host fuel filename p state =
      projectRun Prod.fst (r.execute host.traced fuel filename p (state, trace)) := by
  rcases execute_follows host.projects_traced r fuel 0 filename p (state, trace) with
    ⟨hzero, -⟩ | hend
  · exact (hzero rfl).elim
  · rw [Nat.zero_add] at hend
    exact hend

end Runtime

end ScriptShell
