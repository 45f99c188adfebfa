import ScriptShell.Proofs.Host.Patience
import ScriptShell.Proofs.Host.Trace

namespace ScriptShell

/-- What was asked of the host in an event. -/
def Event.request : Event → Request
  | .report r => .report r
  | .branch filename line _ => .branch filename line
  | .write text => .write text
  | .quit code => .quit code
  | .moment m runtime frame => .observe m runtime frame

variable {σ τ : Type}

def Host.after (host : Host σ) (state : σ) (history : List Request) : σ :=
  history.foldr host.serve state

/-- Whatever it was asked before, the host lets loops go on. -/
def Host.NeverAborts (host : Host σ) (state : σ) : Prop :=
  ∀ history filename line, (host.onBranch filename line (host.after state history)).1 ≠ .abort

/-- States of two hosts that their traces have led to, beside traces that are related. -/
structure Host.Alongside (host : Host σ) (state : σ) (host' : Host τ) (state' : τ)
    (R : List Event → List Event → Prop) (p : σ × List Event) (q : τ × List Event) : Prop where
  left : p.1 = host.after state (p.2.map Event.request)
  right : q.1 = host'.after state' (q.2.map Event.request)
  traces : R p.2 q.2

namespace Host.Alongside

variable {host : Host σ} {state : σ} {host' : Host τ} {state' : τ}
  {R : List Event → List Event → Prop} {p : σ × List Event} {q : τ × List Event}

theorem start (h : R [] []) : Alongside host state host' state' R (state, []) (state', []) :=
  ⟨rfl, rfl, h⟩

theorem addLeft (h : Alongside host state host' state' R p q) (e : Event)
    (he : R (e :: p.2) q.2) :
    Alongside host state host' state' R (host.serve e.request p.1, e :: p.2) q :=
  ⟨congrArg (host.serve e.request) h.left, h.right, he⟩

theorem add (h : Alongside host state host' state' R p q) (e e' : Event)
    (he : R (e :: p.2) (e' :: q.2)) :
    Alongside host state host' state' R (host.serve e.request p.1, e :: p.2)
      (host'.serve e'.request q.1, e' :: q.2) :=
  ⟨congrArg (host.serve e.request) h.left, congrArg (host'.serve e'.request) h.right, he⟩

end Host.Alongside

namespace Recording

theorem policy_after (file : String → FileState) (record : Recording) (history : List Request) :
    ((Recording.host file).after record history).policy = record.policy := by
  induction history with
  | nil => rfl
  | cons request history ih => cases request <;> exact ih

theorem host_neverAborts (file : String → FileState) {record : Recording}
    (h : record.policy.limit = none) : (Recording.host file).NeverAborts record := by
  intro history filename line
  have hlimit : ((Recording.host file).after record history).policy.limit = none := by
    rw [policy_after, h]
  change BranchPolicy.answer _ _ ≠ .abort
  unfold BranchPolicy.answer
  rw [hlimit]
  simp only [Option.map_none, Option.getD_none, Bool.false_eq_true, if_false]
  split <;> decide

end Recording

theorem recorder_neverAborts (collectEvery : Option Nat) :
    recorder.NeverAborts (.start ⟨none, collectEvery⟩) :=
  Recording.host_neverAborts _ rfl

end ScriptShell
