import ScriptShell.Evaluation.State
import ScriptShell.Proofs.Program.Jump

namespace ScriptShell

def Completion.jump? : Completion → Option Jump
  | .normal => none
  | .return_ _ => some .return_
  | .break_ => some .break_
  | .continue_ => some .continue_

namespace Evaluation

def EndsBy (jumps : Jump → Bool) (c : Completion) : Prop :=
  ∀ j, c.jump? = some j → jumps j = true

theorem endsBy_normal (jumps : Jump → Bool) : EndsBy jumps .normal :=
  fun _ h => nomatch h

theorem endsBy_return {jumps : Jump → Bool} {v : Value} (h : jumps .return_ = true) :
    EndsBy (fun j => j = .return_ && jumps j) (.return_ v) := by
  intro j hj
  cases hj
  simp [h]

theorem EndsBy.mono {jumps jumps' : Jump → Bool} {c : Completion} (h : EndsBy jumps c)
    (hj : ∀ j, jumps j = true → jumps' j = true) : EndsBy jumps' c :=
  fun j hc => hj j (h j hc)

end Evaluation

end ScriptShell
