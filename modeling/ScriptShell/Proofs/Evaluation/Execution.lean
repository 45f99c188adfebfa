import ScriptShell.Compilation
import ScriptShell.Proofs.Evaluation.Alike
import ScriptShell.Proofs.Evaluation.Contract

namespace ScriptShell

def Outcome.inState {σ : Type} (t : Evaluation.State σ) :
    Outcome → EStateM.Result Stop (Evaluation.State σ) Value
  | .value v => .ok v t
  | .stopped e => .error e t

def Runtime.bare : Runtime :=
  { initial .bare with tellsBranches := true }

namespace Evaluation.Contract

variable {σ : Type} {C : Contract σ} {T : Part → Prop} {host : Host σ}

def unitState (r : Runtime) (filename : Option String) (state : σ) : State σ :=
  ⟨r, unitFrame filename, state⟩

theorem Keeps.program (h : C.Keeps T host) (r : Runtime) (fuel : Nat) (filename : Option String)
    (p : Program) (state : σ) (hp : T (.program p)) (hs : C.good (unitState r filename state)) :
    C.Met .statement any (unitState r filename state)
      (Evaluation.program host fuel p (unitState r filename state)) :=
  (alike (h.likeness 0) fuel ()).program p hp _ hs

/-- A unit ends as its program does, also where an exception that leaves it is reported. -/
theorem Lawful.execute (h : C.Lawful T)
    (hreport : ∀ {s} r, C.good s → C.Reaches .expression s (s.tell (host.report r)))
    (r : Runtime) (fuel : Nat) (filename : Option String) (p : Program) (state : σ)
    (run : C.Met .statement any (unitState r filename state)
      (Evaluation.program host fuel p (unitState r filename state))) :
    ∃ outcome t, r.execute host fuel filename p state = (outcome, t.runtime, t.host) ∧
      C.Met .statement any (unitState r filename state) (outcome.inState t) := by
  unfold Runtime.execute
  change C.Met .statement any (unitState r filename state)
    (Evaluation.program host fuel p ⟨r, unitFrame filename, state⟩) at run
  split
  case h_1 v t hend =>
    rw [hend] at run
    exact ⟨.value v, t, rfl, run⟩
  case h_2 v file line t hend =>
    rw [hend] at run
    obtain ⟨hthrown, hmoves⟩ := run
    have ht := h.caught hthrown
    change ∃ outcome t', Runtime.uncaught host v file line t = _ ∧ _
    unfold Runtime.uncaught
    split
    case h_1 message hmessage =>
      obtain ⟨hgood, hreport⟩ := hreport ((Report.error message).locate file line) ht
      exact ⟨.stopped (.thrown v file line), _, rfl, h.thrown v file line hgood,
        h.trans hmoves (h.relax hreport)⟩
    case h_2 f hf => exact ⟨.stopped (.fault f), t, rfl, h.fault f ht, hmoves⟩
  case h_3 e t _ hend =>
    rw [hend] at run
    exact ⟨.stopped e, t, rfl, run⟩

theorem Keeps.execute (h : C.Keeps T host)
    (hreport : ∀ {s} r, C.good s → C.Reaches .expression s (s.tell (host.report r)))
    (r : Runtime) (fuel : Nat) (filename : Option String) (p : Program) (state : σ)
    (hp : T (.program p)) (hs : C.good (unitState r filename state)) :
    ∃ outcome t, r.execute host fuel filename p state = (outcome, t.runtime, t.host) ∧
      C.Met .statement any (unitState r filename state) (outcome.inState t) :=
  h.toLawful.execute hreport r fuel filename p state (h.program r fuel filename p state hp hs)

end Evaluation.Contract

end ScriptShell
