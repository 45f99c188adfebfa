import ScriptShell.Proofs.Compilation
import ScriptShell.Proofs.Evaluation.Abort
import ScriptShell.Session

namespace ScriptShell

/-- How a source ended that was compiled, and run if it was accepted. -/
inductive UnitEnd where
  | rejected (e : ParseError)
  | ran (outcome : Outcome)

/-- Compiles a source and runs it if it is accepted. -/
def Runtime.runUnit {σ : Type} (r : Runtime) (host : Host σ) (fuel : Nat)
    (filename : Option String) (startLine : Nat) (source : String) (state : σ) :
    UnitEnd × Runtime × σ :=
  match r.compile host filename startLine source state with
  | (.error e, state) => (.rejected e, r, state)
  | (.ok p, state) =>
    let (outcome, r, state) := r.execute host fuel filename p state
    (.ran outcome, r, state)

/-- A property of states of a host that nothing takes away that happens while a script runs. -/
structure Host.Preserves {σ : Type} (host : Host σ) (Q : σ → Prop) : Prop where
  warning : ∀ r state, r.isWarning = true → Q state → Q (host.report r state)
  onBranch : ∀ filename line state, Q state → Q (host.onBranch filename line state).2
  write : ∀ text state, Q state → Q (host.write text state)
  requestQuit : ∀ code state, Q state → Q (host.requestQuit code state)
  observe : ∀ m runtime frame state, Q state → Q (host.observe m runtime frame state)

namespace Evaluation.Contract

variable {σ : Type}

def hosted (Q : σ → Prop) : Contract σ where
  good s := Q s.host
  ends _ s := Q s.host
  moves _ _ _ := True

theorem hosted_invariant {host : Host σ} {Q : σ → Prop} (h : host.Preserves Q) :
    Invariant (fun s : State σ => Q s.host) anyPart host where
  definedIn _ := Heap.definedIn_anyPart _
  step _ hs := hs
  inFrame _ hs := hs
  report r hr hs := h.warning r _ hr hs
  write text hs := h.write text _ hs
  quitted code hs := h.requestQuit code _ (h.observe _ _ _ _ hs)
  told _ hs := h.observe _ _ _ _ hs
  notified line hs := h.onBranch _ line _ (h.observe _ _ _ _ hs)
  entered hs := h.observe _ _ _ _ hs
  left hs := h.observe _ _ _ _ hs
  hereditary := hereditary_anyPart
  accepted _ := trivial

theorem hosted_keeps {host : Host σ} {Q : σ → Prop} (h : host.Preserves Q) :
    (hosted Q).Keeps anyPart host :=
  (hosted_invariant h).keeps

end Evaluation.Contract

def Event.isErrorReport : Event → Bool
  | .report r => !r.isWarning
  | _ => false

def Errorless (trace : List Event) : Prop :=
  ∀ e ∈ trace, e.isErrorReport = false

theorem Errorless.cons {e : Event} {trace : List Event} (he : e.isErrorReport = false)
    (h : Errorless trace) : Errorless (e :: trace) :=
  List.forall_mem_cons.mpr ⟨he, h⟩

variable {σ : Type} {host : Host σ}

def StopsBy (e : Event) (earlier trace : List Event) : Prop :=
  (∃ ends, trace = ends ++ e :: earlier ∧ ∀ e ∈ ends, e.isCallEnd = true) ∧ e.stops = true ∧
    Evaluation.Unstopped earlier

namespace Runtime

theorem compile_preserves (host : Host σ) {Q : σ → Prop}
    (hreport : ∀ r state, Q state → Q (host.report r state)) (r : Runtime)
    (filename : Option String) (startLine : Nat) (source : String) (state : σ) (hs : Q state) :
    Q (r.compile host filename startLine source state).2 := by
  have reports (found : List (Location × Report)) {state : σ} (hs : Q state) :
      Q (found.foldl (fun state d => host.report d.2 state) state) := by
    induction found generalizing state with
    | nil => exact hs
    | cons d found ih => exact ih (hreport d.2 state hs)
  rw [compile_eq]
  exact reports _ hs

/-- A trace changes nothing about a source that is compiled and run. -/
theorem runUnit_traced (r : Runtime) (host : Host σ) (fuel : Nat) (filename : Option String)
    (startLine : Nat) (source : String) (state : σ) (trace : List Event) :
    let run := r.runUnit host.traced fuel filename startLine source (state, trace)
    r.runUnit host fuel filename startLine source state = (run.1, run.2.1, run.2.2.1) := by
  have hreports (found : List (Location × Report)) (p : σ × List Event) :
      (found.foldl (fun state d => host.traced.report d.2 state) p).1 =
        found.foldl (fun state d => host.report d.2 state) p.1 := by
    induction found generalizing p with
    | nil => rfl
    | cons d found ih => exact ih _
  unfold runUnit
  rw [compile_eq, compile_eq]
  cases Program.ofSource (r.parseOptions startLine) source with
  | error e => rfl
  | ok parsed =>
    simp only [Except.map]
    rw [← hreports _ (state, trace)]
    rw [execute_traced host r fuel filename parsed.1]
    rfl

end Runtime

def Event.exitCode (old : Int32) : Event → Int32
  | .report r => if r.isWarning then old else exitFailure
  | .branch _ _ .abort => exitFailure
  | .quit code => code.getD old
  | _ => old

section ExitCodes

variable {start : Int32} {e e' : Event} {earlier trace : List Event}

namespace StopsBy

theorem mem (h : StopsBy e earlier trace) : e ∈ trace := by
  obtain ⟨⟨ends, rfl, -⟩, -⟩ := h
  simp

end StopsBy

end ExitCodes

namespace Session

end Session

namespace Runtime

end Runtime

end ScriptShell
