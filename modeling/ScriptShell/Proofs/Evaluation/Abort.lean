import ScriptShell.Proofs.Evaluation.Restoration
import ScriptShell.Proofs.Evaluation.Simulation

namespace ScriptShell.Evaluation

variable {σ : Type}

def Unstopped (trace : List Event) : Prop :=
  ∀ e ∈ trace, e.stops = false

theorem Unstopped.cons {e : Event} {trace : List Event} (he : e.stops = false)
    (h : Unstopped trace) : Unstopped (e :: trace) :=
  List.forall_mem_cons.mpr ⟨he, h⟩

/-- A run that was stopped. After the stop, which was the only one, calls ended, and the runtime
is as it was right before the host heard of the stop. -/
structure StoppedAt (s : State (σ × List Event)) (ends : List Event) (e : Event)
    (snapshot : Runtime) (earlier : List Event) : Prop where
  trace : s.host.2 = ends ++ e :: earlier
  callEnds : ∀ e ∈ ends, e.isCallEnd = true
  stops : e.stops = true
  unstopped : Unstopped earlier
  announced : ∃ m frame before, earlier = .moment m snapshot frame :: before
  runtime : ∃ depth, s.runtime = { snapshot with callDepth := depth }

def Stopped (s : State (σ × List Event)) : Prop :=
  ∃ ends e snapshot earlier, StoppedAt s ends e snapshot earlier

theorem stopped_of_unstopped {s : State (σ × List Event)} {state : σ} {e : Event} {m : Moment}
    (he : e.stops = true) (h : Unstopped s.host.2) :
    Stopped (σ := σ) ⟨s.runtime, s.frame,
      (state, e :: .moment m s.runtime s.frame :: s.host.2)⟩ :=
  ⟨[], e, s.runtime, _, rfl, fun _ h => (List.not_mem_nil h).elim, he, h.cons rfl,
    ⟨m, s.frame, _, rfl⟩, s.runtime.callDepth, rfl⟩

theorem Stopped.left {host : Host σ} {s : State (σ × List Event)} (h : Stopped s) :
    Stopped (s.left host.traced) := by
  obtain ⟨ends, e, snapshot, earlier, hs⟩ := h
  obtain ⟨depth, hruntime⟩ := hs.runtime
  have htrace : (s.left host.traced).host.2 =
      .moment .callEnds (s.left host.traced).runtime s.frame :: s.host.2 := rfl
  refine ⟨.moment .callEnds (s.left host.traced).runtime s.frame :: ends, e, snapshot, earlier,
    ?_, List.forall_mem_cons.mpr ⟨rfl, hs.callEnds⟩, hs.stops, hs.unstopped, hs.announced,
    depth - 1, ?_⟩
  · rw [htrace, hs.trace]
    rfl
  · change { s.runtime with callDepth := s.runtime.callDepth - 1 } = _
    rw [hruntime]

/-- Where a trace has a single stop, there is one way to find it. -/
theorem eq_of_append_stop {front later rest earlier : List Event} {e event : Event}
    (h : front ++ e :: rest = later ++ event :: earlier) (hfront : Unstopped front)
    (hrest : Unstopped rest) (hstops : event.stops = true) : later = front := by
  rcases List.append_eq_append_iff.mp h with ⟨between, rfl, hbetween⟩ | ⟨between, rfl, hbetween⟩
  · cases between with
    | nil => simp
    | cons e' between =>
      have hmem : event ∈ rest := by
        rw [(List.cons.inj hbetween).2]
        simp
      rw [hrest event hmem] at hstops
      cases hstops
  · cases between with
    | nil => simp
    | cons e' between =>
      have hmem : event ∈ later ++ e' :: between := by
        rw [(List.cons.inj hbetween).1]
        simp
      rw [hfront event hmem] at hstops
      cases hstops

/-- However the trace of a stopped run is cut at a stop, the snapshot in front is that of the stop. -/
theorem Stopped.behind {s : State (σ × List Event)} {later earlier : List Event} {event : Event}
    (h : Stopped s) (htrace : s.host.2 = later ++ event :: earlier) (hstops : event.stops = true) :
    (∀ e ∈ later, e.isCallEnd = true) ∧
      ∃ m snapshot frame before, earlier = .moment m snapshot frame :: before ∧
        s.runtime = { snapshot with callDepth := s.runtime.callDepth } := by
  obtain ⟨ends, e, snapshot, earlier', hs⟩ := h
  have hends : Unstopped ends := by
    intro e he
    have hend := hs.callEnds e he
    cases e with
    | moment => rfl
    | _ => cases hend
  have hsplit : ends ++ e :: earlier' = later ++ event :: earlier := hs.trace.symm.trans htrace
  -- There is one stop only, so the trace is cut at the same place.
  obtain rfl := eq_of_append_stop hsplit hends hs.unstopped hstops
  obtain ⟨-, rfl⟩ := List.cons.inj (List.append_cancel_left hsplit)
  obtain ⟨m, frame, before, hannounced⟩ := hs.announced
  obtain ⟨depth, hruntime⟩ := hs.runtime
  refine ⟨hs.callEnds, m, snapshot, frame, before, hannounced, ?_⟩
  rw [hruntime]

namespace Contract

/-- Nobody has stopped the run, or it is over. -/
def quiet (σ : Type) : Contract (σ × List Event) where
  good s := Unstopped s.host.2
  ends
    | .aborted, s => Stopped s
    | _, s => Unstopped s.host.2
  moves _ _ _ := True

theorem quiet_keeps (host : Host σ) : (quiet σ).Keeps anyPart host.traced where
  refl _ _ := trivial
  trans _ _ := trivial
  relax _ := trivial
  definedIn _ := Heap.definedIn_anyPart _
  step _ h := ⟨h, trivial⟩
  thrown _ _ _ h := h
  caught h := h
  fault _ h := h
  inFrame _ h := h
  -- What is known behind a stop says nothing of the frame, so it outlives the frame of a call.
  endsInFrame := by
    intro e s f h
    cases e with
    | aborted =>
      obtain ⟨ends, e, snapshot, earlier, hs⟩ := h
      exact ⟨ends, e, snapshot, earlier, hs.trace, hs.callEnds, hs.stops, hs.unstopped,
        hs.announced, hs.runtime⟩
    | _ => exact h
  fromScope _ _ := trivial
  fromFrame _ _ := trivial
  report _ _ h := ⟨h.cons rfl, trivial⟩
  write _ h := ⟨h.cons rfl, trivial⟩
  quit _ h := ⟨stopped_of_unstopped rfl h, trivial⟩
  wanting _ h := h
  told _ h := ⟨h.cons rfl, trivial⟩
  hereditary := hereditary_anyPart
  accepted _ := trivial
  outOfFuel h := h
  lastValue _ _ := trivial
  goesOn := by
    intro s line h _ ha
    have hanswer : Event.stops (.branch s.frame.filename line (s.answer host.traced line)) = false :=
      decide_eq_false ha
    exact ⟨(h.cons rfl).cons hanswer, trivial⟩
  aborts := by
    intro s line h _ ha
    have hanswer : Event.stops (.branch s.frame.filename line (s.answer host.traced line)) = true :=
      decide_eq_true ha
    exact ⟨stopped_of_unstopped hanswer h, trivial⟩
  deepens := {
    enter := fun h _ => Unstopped.cons rfl h
    leave := fun _ _ h => Unstopped.cons rfl h
    stop := by
      intro s t e _ _ h
      cases e with
      | aborted => exact h.left
      | _ => exact Unstopped.cons rfl h
    moves := fun _ => trivial }

end Contract

/-- The exit code that an argument of `quit` asks for, none where it is left out. -/
def AsksFor (h : Heap) : Value → Option Int32 → Prop
  | .undefined, code => code = none
  | v, code => ∃ n, h.int32 v = .ok n ∧ code = some n

/-- A call of `quit` tells the host of the wish to quit and stops. -/
theorem call_quit (host : Host σ) {args : List Value} {code : Option Int32}
    {s : State (σ × List Event)} (hcode : AsksFor s.runtime.heap (Library.arg args 0) code) :
    ∃ t, Library.call host.traced .quit args s = .error .aborted t ∧
      t.host.2 = .quit code :: .moment .quits s.runtime s.frame :: s.host.2 := by
  have asked {v : Value} {n : Int32} (hn : s.runtime.heap.int32 v = .ok n) :
      (some <$> ask (·.int32 v) : Eval (σ × List Event) (Option Int32)) s = .ok (some n) s := by
    have hask : (ask (·.int32 v) : Eval (σ × List Event) Int32) s = .ok n s := ask_of_ok hn
    change EStateM.map some (ask (·.int32 v)) s = _
    rw [EStateM.map, hask]
  refine ⟨s.quitted host.traced code, ?_, rfl⟩
  simp only [Library.call]
  cases hv : Library.arg args 0 with
  | undefined =>
    rw [hv] at hcode
    obtain rfl : code = none := hcode
    rfl
  | _ =>
    rw [hv] at hcode
    obtain ⟨n, hn, rfl⟩ := hcode
    exact bind_of_ok (asked hn) _

/-- What has happened up to a stop is all that ever happens: behind it in the trace there are
nothing but ends of calls, and the runtime is as it was right before it but for the depth of
calls. -/
theorem execute_stopped (host : Host σ) (r : Runtime) (fuel : Nat) (filename : Option String)
    (p : Program) (state : σ) {later earlier : List Event} {event : Event}
    (htrace : (r.execute host.traced fuel filename p (state, [])).2.2.2 =
      later ++ event :: earlier)
    (hstops : event.stops = true) :
    (r.execute host fuel filename p state).1 = .stopped .aborted ∧
      (∀ e ∈ later, e.isCallEnd = true) ∧
      ∃ m snapshot frame before, earlier = .moment m snapshot frame :: before ∧
        (r.execute host fuel filename p state).2.1 =
          { snapshot with callDepth := r.callDepth } := by
  rw [Runtime.execute_traced host r fuel filename p state []]
  obtain ⟨outcome, t, hrun, met⟩ := (Contract.quiet_keeps host).execute
    (fun _ h => ⟨h.cons rfl, trivial⟩) r fuel filename p
    (state, []) trivial (by intro e he; cases he)
  have hdepth := execute_callDepth host.traced r fuel filename p (state, [])
  rw [hrun] at htrace hdepth ⊢
  simp only [Runtime.projectRun]
  -- The trace holds a stop, so a run without one is not this run.
  have notUnstopped (h : Unstopped t.host.2) : False := by
    have hfalse := h event (by rw [htrace]; simp)
    rw [hstops] at hfalse
    cases hfalse
  cases outcome with
  | value v => exact (notUnstopped met.2.1).elim
  | stopped e =>
    cases e with
    | aborted =>
      obtain ⟨hcallEnds, m, snapshot, frame, before, hannounced, hruntime⟩ :=
        met.1.behind htrace hstops
      rw [hdepth] at hruntime
      exact ⟨rfl, hcallEnds, m, snapshot, frame, before, hannounced, hruntime⟩
    | _ => exact (notUnstopped met.1).elim

def endlessCall : Program :=
  ⟨[.function (.mk (some "f") [] [.while (.bool true default) (.empty default) default] [] default)
      default,
    .try_ [.expr (.call (.name "f" default) [] default) default]
      (some (.mk "e" [.empty default])) (some [.empty default]) default], []⟩

def quittingScript : Program :=
  ⟨[.try_ [.expr (.call (.name "quit" default) [.bool true default] default) default]
      (some (.mk "e" [.empty default])) (some [.empty default]) default], []⟩

def impatient : Recording :=
  .start ⟨some 1, none⟩

/-- The run of a program stops with an event, and nothing happens behind it. -/
def StopsFor (r : Runtime) (p : Program) (event : Event) : Prop :=
  ∃ later earlier,
    (r.execute recorder.traced 20 none p (impatient, [])).2.2.2 = later ++ event :: earlier ∧
      (r.execute recorder 20 none p impatient).1 = .stopped .aborted ∧
      (∀ e ∈ later, e.isCallEnd = true) ∧
      ∃ m snapshot frame before, earlier = .moment m snapshot frame :: before ∧
        (r.execute recorder 20 none p impatient).2.1 = { snapshot with callDepth := r.callDepth }

theorem execute_stopped_endlessCall :
    StopsFor Runtime.bare endlessCall (.branch none 0 .abort) ∧
      StopsFor (Runtime.bare.defineFunctions [.quit]) quittingScript (.quit (some 1)) := by
  have loops : (Runtime.bare.execute recorder.traced 20 none endlessCall (impatient, [])).2.2.2 =
      [_] ++ .branch none 0 .abort :: _ := rfl
  have quits : ((Runtime.bare.defineFunctions [.quit]).execute recorder.traced 20 none
      quittingScript (impatient, [])).2.2.2 = [] ++ .quit (some 1) :: _ := rfl
  exact ⟨⟨_, _, loops, execute_stopped _ _ _ _ _ _ loops rfl⟩,
    ⟨_, _, quits, execute_stopped _ _ _ _ _ _ quits rfl⟩⟩

end ScriptShell.Evaluation
