import ScriptShell.Proofs.Evaluation.Contract
import ScriptShell.Proofs.Evaluation.Variable
import ScriptShell.Proofs.Host.Patience
import ScriptShell.Proofs.Program.Size

namespace ScriptShell.Evaluation

variable {σ α β : Type}

/-- A state in which the host has so much patience left and calls are so deep. -/
structure Budgeted (host : Host σ) (bound patience depth : Nat) (s : State σ) : Prop where
  patience : host.AbortsBy patience s.host
  depth : s.runtime.callDepth = depth
  tells : s.runtime.tellsBranches = true
  definedIn : s.runtime.heap.DefinedIn (Part.Within bound)

variable {host : Host σ} {bound patience depth : Nat} {P : α → Prop}

theorem Budgeted.serve {s : State σ} (h : Budgeted host bound patience depth s)
    (request : Request) (hrequest : ∀ filename line, request ≠ .branch filename line) :
    Budgeted host bound patience depth (s.tell (host.serve request)) :=
  ⟨h.patience.serve request hrequest, h.depth, h.tells, h.definedIn⟩

theorem Budgeted.mono {less : Nat} {s : State σ} (h : Budgeted host bound less depth s)
    (hle : less ≤ patience) : Budgeted host bound patience depth s :=
  ⟨h.patience.mono hle, h.depth, h.tells, h.definedIn⟩

namespace Contract

/-- To keep within the budget and to end, by whatever but a lack of fuel or of a file. -/
def within (host : Host σ) (bound patience depth : Nat) : Contract σ where
  good := Budgeted host bound patience depth
  ends
    | .thrown _ _ _, s | .fault _, s => Budgeted host bound patience depth s
    | .aborted, _ => True
    | .wanting _, _ | .outOfFuel, _ => False
  moves _ _ _ := True

theorem within_portable : (within host bound patience depth).Portable (Part.Within bound) where
  refl _ _ := trivial
  trans _ _ := trivial
  relax _ := trivial
  definedIn h := h.definedIn
  step hg h := ⟨⟨h.patience, (hg.callDepth _ _).trans h.depth, (hg.tellsBranches _ _).trans h.tells,
    hg.functions _ _ h.definedIn⟩, trivial⟩
  thrown _ _ _ h := h
  caught h := h
  fault _ h := h
  inFrame _ h := ⟨h.patience, h.depth, h.tells, h.definedIn⟩
  endsInFrame := by
    intro e s f h
    cases e with
    | thrown | fault => exact ⟨h.patience, h.depth, h.tells, h.definedIn⟩
    | aborted => trivial
    | wanting | outOfFuel => exact h
  fromScope _ _ := trivial
  fromFrame _ _ := trivial

theorem within_lawful : (within host bound patience depth).Lawful (Part.Within bound) :=
  within_portable.toLawful

theorem within_told (m : Moment) :
    (within host bound patience depth).Holds .expression any (observe host m) :=
  fun s h => ⟨trivial, h.serve (.observe m s.runtime s.frame) (fun _ _ => nofun), trivial⟩

theorem within_announces : (within host bound patience depth).Announces host :=
  fun {s} v file line h => (within_told (.raised v file line) s h).2

theorem within_serves (hfile : ∀ name, ∃ e, host.file name = .failed e) :
    (within host bound patience depth).Serves (Part.Within bound) host where
  toSteady := within_lawful.toSteady
  report r _ h := ⟨h.serve (.report r) (fun _ _ => nofun), trivial⟩
  write text h := ⟨h.serve (.write text) (fun _ _ => nofun), trivial⟩
  quit _ _ := ⟨trivial, trivial⟩
  wanting := by
    intro s name hname
    obtain ⟨e, he⟩ := hfile name
    rw [he] at hname
    cases hname
  announces := within_announces
  accessed {s m} _ h := (within_told m s h).2

theorem within_mono {less : Nat} (hle : less ≤ patience) {l : Level} {s t : State σ}
    {r : EStateM.Result Stop (State σ) α} (h : (within host bound less depth).Met l P s r) :
    (within host bound patience depth).Met l P t r := by
  cases r with
  | ok a u => exact ⟨h.1, Budgeted.mono h.2.1 hle, trivial⟩
  | error e u =>
    cases e with
    | thrown | fault => exact ⟨Budgeted.mono h.1 hle, trivial⟩
    | aborted => exact ⟨trivial, trivial⟩
    | wanting | outOfFuel => exact h.1.elim

/-- Going round a loop again uses up patience. -/
theorem within_branch {x : Eval σ α} (line : Nat)
    (hx : ∀ less < patience, (within host bound less depth).Holds .expression P x) :
    (within host bound patience depth).Holds .expression P (branch host line >>= fun _ => x) := by
  intro s hs
  rw [bind_apply, branch_apply host line s hs.tells]
  have told : Budgeted host bound patience depth (s.observed host .notifies) :=
    (within_told .notifies s hs).2.1
  have goesOn (ha : s.answer host line ≠ .abort) :
      ∃ less < patience, Budgeted host bound less depth (s.notified host line) := by
    obtain ⟨less, hless, hpatience⟩ := told.patience.onBranch ha
    exact ⟨less, by omega, hpatience, hs.depth, hs.tells, hs.definedIn⟩
  cases ha : s.answer host line with
  | continue_ =>
    obtain ⟨less, hless, hgood⟩ := goesOn (by rw [ha]; decide)
    exact within_mono (Nat.le_of_lt hless) (hx less hless _ hgood)
  | collect =>
    obtain ⟨less, hless, hgood⟩ := goesOn (by rw [ha]; decide)
    have collects := within_lawful.bind
      (within_lawful.freeStep (isStep_maybeCollect (K := definedBy (Part.Within bound))).free)
      fun _ _ => hx less hless
    exact within_mono (Nat.le_of_lt hless) (collects _ hgood)
  | abort => exact ⟨trivial, trivial⟩

theorem within_deepens : (within host bound patience depth).Deepens
    (within host bound patience (depth + 1)) host where
  enter h _ := ⟨h.patience.serve (.observe .callBegins _ _) (fun _ _ => nofun),
    congrArg (· + 1) h.depth, h.tells, h.definedIn⟩
  leave _ _ h := ⟨h.patience.serve (.observe .callEnds _ _) (fun _ _ => nofun),
    congrArg (· - 1) h.depth, h.tells, h.definedIn⟩
  stop := by
    intro s t e _ _ h
    cases e with
    | thrown | fault => exact ⟨h.patience.serve (.observe .callEnds _ _) (fun _ _ => nofun),
        congrArg (· - 1) h.depth, h.tells, h.definedIn⟩
    | aborted => trivial
    | wanting | outOfFuel => exact h
  moves _ := trivial

/-- A call only has to keep to its contract where there is room for it. -/
theorem within_deeper {x : Eval σ α}
    (hx : depth < maxCallDepth →
      (within host bound patience (depth + 1)).Holds .expression P x) :
    (within host bound patience depth).Holds .expression P (deeper host x) := by
  have hrefused : (within host bound patience depth).Holds .expression P
      (raise host .internalError "too much recursion") :=
    within_lawful.raise within_announces _ _
  by_cases hroom : depth < maxCallDepth
  · exact within_deepens.holds hrefused (hx hroom)
  · intro s hs
    have hdeep : s.isTooDeep = true := by
      have hle : maxCallDepth ≤ s.runtime.callDepth := by
        rw [hs.depth]
        omega
      simp [State.isTooDeep, hle]
    change (within host bound patience depth).Met .expression P s
      ((if s.isTooDeep = true then raise host .internalError "too much recursion"
        else oneDeeper host x) s)
    rw [hdeep]
    exact hrefused s hs

end Contract

end ScriptShell.Evaluation
