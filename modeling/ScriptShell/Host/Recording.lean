import ScriptShell.Host

namespace ScriptShell

/-- What a recording host answers to the news about loops. -/
structure BranchPolicy where
  /-- Stop once a unit has brought so many of them. -/
  limit : Option Nat
  /-- Ask for a collection at every so many of them. -/
  collectEvery : Option Nat
  deriving DecidableEq, Repr

structure Recording where
  policy : BranchPolicy
  out : String
  /-- The reports so far, latest first. -/
  reports : List Report
  quit : Option (Option Int32)
  branches : Nat
  /-- Unit and line of the last news about a loop. -/
  lastBranch : Option String × Nat

namespace Recording

def start (policy : BranchPolicy) : Recording :=
  ⟨policy, "", [], none, 0, (none, 0)⟩

def BranchPolicy.answer (p : BranchPolicy) (count : Nat) : BranchAction :=
  if (p.limit.map fun limit => decide (limit ≤ count)).getD false then .abort
  else if (p.collectEvery.map fun n => decide (n ≠ 0 ∧ count % n = 0)).getD false then .collect
  else .continue_

def host (file : String → FileState) : Host Recording where
  report r s := { s with reports := r :: s.reports }
  onBranch filename line s :=
    let count := s.branches + 1
    (BranchPolicy.answer s.policy count,
      { s with branches := count, lastBranch := (filename, line) })
  write text s := { s with out := s.out ++ text }
  requestQuit code s := { s with quit := some code }
  file := file

end Recording

end ScriptShell
