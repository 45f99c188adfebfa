import ScriptShell.Proofs.Program.Jump
import ScriptShell.Proofs.Program.Part

namespace ScriptShell

def Stmt.declaresFunction : Stmt → Bool
  | .function _ _ => true
  | _ => false

def Stmt.Fit : Stmt → Prop
  | .function f _ => f.name.isSome = true
  | .for_ init _ _ _ _ => ∀ s ∈ init, s.declaresFunction = false
  | _ => True

namespace Part

/-- What is asked of a part by itself: targets are targets, no jump but a return leaves the body
of a function, and none leaves a program. -/
def Fit : Part → Prop
  | .target e => e.isTarget = true
  | .function f => ∀ j, emitsAny j f.body = true → j = .return_
  | .program p => ∀ j, emitsAny j p.body = false
  | .stmt s => s.Fit
  | .expr _ => True

def WellFormed (p : Part) : Prop :=
  ∀ q, p.Contains q → q.Fit

theorem hereditary_wellFormed : Hereditary WellFormed :=
  fun _ _ hq hp _ hr => hp _ (hr.head hq)

theorem wellFormed_of_parts {p : Part} (hp : p.Fit) (h : ∀ q ∈ p.parts, q.WellFormed) :
    p.WellFormed :=
  forall_contains hp h

end Part

def Jump.isFree (loopDepth functionDepth : Nat) : Jump → Bool
  | .return_ => functionDepth ≠ 0
  | .break_ | .continue_ => loopDepth ≠ 0

structure Stmt.Placed (loopDepth functionDepth : Nat) (s : Stmt) : Prop where
  wellFormed : (Part.stmt s).WellFormed
  free : ∀ j, s.emits j = true → j.isFree loopDepth functionDepth = true

variable {loopDepth functionDepth : Nat}

theorem emitsAny_free {body : List Stmt} (h : ∀ s ∈ body, s.Placed loopDepth functionDepth)
    (j : Jump) (hj : emitsAny j body = true) : j.isFree loopDepth functionDepth = true := by
  induction body with
  | nil => cases hj
  | cons s rest ih =>
    obtain ⟨hs, hrest⟩ := List.forall_mem_cons.mp h
    rcases Bool.or_eq_true_iff.mp hj with hj | hj
    · exact hs.free j hj
    · exact ih hrest hj

theorem wellFormed_ofBody {body : List Stmt} (h : ∀ s ∈ body, s.Placed loopDepth functionDepth) :
    ∀ q ∈ Part.ofBody body, q.WellFormed := by
  intro q hq
  obtain ⟨s, hs, rfl⟩ := List.mem_map.mp hq
  exact (h s hs).wellFormed

theorem placed_of_parts {s : Stmt} (hfit : s.Fit) (h : ∀ q ∈ Part.ofStmt s, q.WellFormed)
    (hs : ∀ j, s.emits j = true → j.isFree loopDepth functionDepth = true) :
    s.Placed loopDepth functionDepth :=
  ⟨Part.wellFormed_of_parts hfit h, hs⟩

end ScriptShell
