import ScriptShell.Proofs.Evaluation.Execution
import ScriptShell.Proofs.Host.Trace

namespace ScriptShell.Evaluation

variable {σ : Type} {host : Host σ}

/-- What evaluation puts back. -/
structure Restored (s t : State σ) : Prop where
  scope : t.frame.scope = s.frame.scope
  filename : t.frame.filename = s.frame.filename
  callDepth : t.runtime.callDepth = s.runtime.callDepth

namespace Contract

def restoring (σ : Type) : Contract σ where
  good _ := True
  ends _ _ := True
  moves l s t := Restored s t ∧ (l = .expression → t.frame.lastValue = s.frame.lastValue)

theorem restoring_portable : (restoring σ).Portable anyPart where
  refl _ _ := ⟨⟨rfl, rfl, rfl⟩, fun _ => rfl⟩
  trans := by
    rintro l s t u ⟨hst, hlast⟩ ⟨htu, hlast'⟩
    refine ⟨⟨htu.scope.trans hst.scope, htu.filename.trans hst.filename,
      htu.callDepth.trans hst.callDepth⟩, fun hl => (hlast' hl).trans (hlast hl)⟩
  relax h := ⟨h.1, fun hl => nomatch hl⟩
  definedIn _ := Heap.definedIn_anyPart _
  step hg _ := ⟨trivial, ⟨hg.scope _ _, hg.filename _ _, hg.callDepth _ _⟩,
    fun _ => hg.lastValue _ _⟩
  thrown _ _ _ _ := trivial
  caught _ := trivial
  fault _ _ := trivial
  inFrame _ _ := trivial
  endsInFrame _ _ := trivial
  fromScope _ h := ⟨⟨rfl, h.1.filename, h.1.callDepth⟩, fun hl => nomatch hl⟩
  fromFrame _ h := ⟨⟨rfl, rfl, h.1.callDepth⟩, fun _ => rfl⟩

theorem restoring_host (l : Level) (s : State σ) (state : σ) :
    (restoring σ).moves l s { s with host := state } :=
  ⟨⟨rfl, rfl, rfl⟩, fun _ => rfl⟩

theorem restoring_keeps (host : Host σ) : (restoring σ).Keeps anyPart host where
  toPortable := restoring_portable
  report _ _ _ := ⟨trivial, restoring_host _ _ _⟩
  write _ _ := ⟨trivial, restoring_host _ _ _⟩
  quit _ _ := ⟨trivial, restoring_host _ _ _⟩
  wanting _ _ := trivial
  told _ _ := ⟨trivial, restoring_host _ _ _⟩
  hereditary := hereditary_anyPart
  accepted _ := trivial
  outOfFuel _ := trivial
  lastValue _ _ := ⟨⟨rfl, rfl, rfl⟩, fun hl => nomatch hl⟩
  goesOn _ _ _ _ := ⟨trivial, restoring_host _ _ _⟩
  aborts _ _ _ _ := ⟨trivial, restoring_host _ _ _⟩
  deepens := {
    enter := fun _ _ => trivial
    leave := fun _ _ _ => trivial
    stop := fun _ _ _ => trivial
    moves := by
      rintro s t ⟨h, hlast⟩
      have hdepth : t.runtime.callDepth = s.runtime.callDepth + 1 := h.callDepth
      refine ⟨⟨h.scope, h.filename, ?_⟩, hlast⟩
      change t.runtime.callDepth - 1 = s.runtime.callDepth
      omega }

end Contract

/-- The state in which an evaluation ends, in whatever way. -/
def finalState {α : Type} : EStateM.Result Stop (State σ) α → State σ
  | .ok _ t | .error _ t => t

theorem finalState_inState {α : Type} (f : State σ → State σ)
    (r : EStateM.Result Stop (State σ) α) : finalState (inState f r) = f (finalState r) := by
  cases r <;> rfl

namespace Contract

theorem Met.moves {C : Contract σ} {l : Level} {α : Type} {P : α → Prop} {s : State σ}
    {r : EStateM.Result Stop (State σ) α} (h : C.Met l P s r) : C.moves l s (finalState r) := by
  cases r with
  | ok a t => exact h.2.2
  | error e t => exact h.2

/-- A trace whose moments tell how many calls are active, beyond a depth at the start. -/
def DepthsCounted (start : Nat) : List Event → Prop
  | [] => True
  | .moment m r f :: trace =>
    r.callDepth = start + Event.active (.moment m r f :: trace) ∧
      r.callDepth ≤ max start maxCallDepth ∧ DepthsCounted start trace
  | .report _ :: trace | .branch _ _ _ :: trace | .write _ :: trace | .quit _ :: trace =>
    DepthsCounted start trace

theorem DepthsCounted.of_suffix {start : Nat} {trace trace' : List Event}
    (h : DepthsCounted start trace) (hs : trace' <:+ trace) : DepthsCounted start trace' := by
  induction trace with
  | nil =>
    rw [List.suffix_nil.mp hs]
    exact h
  | cons e trace ih =>
    rcases List.suffix_cons_iff.mp hs with rfl | htail
    · exact h
    · cases e with
      | moment => exact ih h.2.2 htail
      | report | branch | write | quit => exact ih h htail

def Counted (start : Nat) (s : State (σ × List Event)) : Prop :=
  DepthsCounted start s.host.2 ∧ s.runtime.callDepth = start + Event.active s.host.2 ∧
    s.runtime.callDepth ≤ max start maxCallDepth

def counting (σ : Type) (start : Nat) : Contract (σ × List Event) where
  good := Counted start
  ends _ := Counted start
  moves _ s t := t.runtime.callDepth = s.runtime.callDepth

theorem counting_keeps (host : Host σ) (start : Nat) :
    (counting σ start).Keeps anyPart host.traced where
  refl _ _ := rfl
  trans hst htu := htu.trans hst
  relax h := h
  definedIn _ := Heap.definedIn_anyPart _
  step := by
    rintro α P g s hg ⟨htrace, hdepth, hle⟩
    have hsame := hg.callDepth s.runtime s.frame
    exact ⟨⟨htrace, hsame.trans hdepth, le_of_eq_of_le hsame hle⟩, hsame⟩
  thrown _ _ _ h := h
  caught h := h
  fault _ h := h
  inFrame _ h := h
  endsInFrame _ h := h
  fromScope _ h := h
  fromFrame _ h := h
  report _ _ h := ⟨h, rfl⟩
  write _ h := ⟨h, rfl⟩
  quit _ h := ⟨⟨⟨h.2.1, h.2.2, h.1⟩, h.2.1, h.2.2⟩, rfl⟩
  wanting _ h := h
  told := by
    rintro s m hm ⟨htrace, hdepth, hle⟩
    cases m with
    | callBegins | callEnds | notifies | quits => exact hm.elim
    | _ => exact ⟨⟨⟨hdepth, hle, htrace⟩, hdepth, hle⟩, rfl⟩
  hereditary := hereditary_anyPart
  accepted _ := trivial
  outOfFuel h := h
  lastValue _ _ := rfl
  goesOn _ h _ _ := ⟨⟨⟨h.2.1, h.2.2, h.1⟩, h.2.1, h.2.2⟩, rfl⟩
  aborts _ h _ _ := ⟨⟨⟨h.2.1, h.2.2, h.1⟩, h.2.1, h.2.2⟩, rfl⟩
  -- The counter moves here only, and each move is told by an event of the call.
  deepens := by
    have left {s t : State (σ × List Event)} (hs : Counted start s)
        (hmoves : t.runtime.callDepth = s.runtime.callDepth + 1) (ht : Counted start t) :
        Counted start (t.left host.traced) := by
      obtain ⟨-, hdepth, hle⟩ := hs
      obtain ⟨htrace, hdepth', -⟩ := ht
      have hcount : t.runtime.callDepth - 1 = start + (Event.active t.host.2 - 1) := by omega
      have hbound : t.runtime.callDepth - 1 ≤ max start maxCallDepth := by omega
      exact ⟨⟨hcount, hbound, htrace⟩, hcount, hbound⟩
    refine ⟨?_, fun hs hmoves ht => left hs hmoves ht, fun hs hmoves ht => left hs hmoves ht, ?_⟩
    · rintro s ⟨htrace, hdepth, -⟩ hroom
      have hroom : ¬ maxCallDepth ≤ s.runtime.callDepth := fun h => by
        simp [State.isTooDeep, h] at hroom
      have hcount : s.runtime.callDepth + 1 = start + (Event.active s.host.2 + 1) := by omega
      have hbound : s.runtime.callDepth + 1 ≤ max start maxCallDepth := by omega
      exact ⟨⟨hcount, hbound, htrace⟩, hcount, hbound⟩
    · intro s t hmoves
      have hmoves : t.runtime.callDepth = s.runtime.callDepth + 1 := hmoves
      change t.runtime.callDepth - 1 = s.runtime.callDepth
      omega

end Contract

theorem execute_callDepth (host : Host σ) (r : Runtime) (fuel : Nat) (filename : Option String)
    (p : Program) (state : σ) :
    (r.execute host fuel filename p state).2.1.callDepth = r.callDepth := by
  obtain ⟨outcome, t, hrun, met⟩ :=
    (Contract.restoring_keeps host).execute
      (fun _ _ => ⟨trivial, Contract.restoring_host _ _ _⟩) r fuel filename p state trivial trivial
  rw [hrun]
  cases outcome with
  | value v => exact met.moves.1.callDepth
  | stopped e => exact met.moves.1.callDepth

/-- Statements leave the scope, the unit and the depth of calls as they were, and expressions also
the last value, however they end. During a unit the depth of calls is that at its start and the
number of calls that are active, no deeper than calls may nest, and after it the depth is what it
was. -/
theorem frame_restored (host : Host σ) :
    (∀ n s state, Restored state (finalState (statement host n s state))) ∧
    (∀ n e state, Restored state (finalState (expr host n e state)) ∧
      (finalState (expr host n e state)).frame.lastValue = state.frame.lastValue) ∧
    (∀ (r : Runtime) fuel filename p state,
      (r.execute host fuel filename p state).2.1.callDepth = r.callDepth) ∧
    ∀ (r : Runtime) fuel filename p state m runtime frame earlier,
      .moment m runtime frame :: earlier <:+
          (r.execute host.traced fuel filename p (state, [])).2.2.2 →
        runtime.callDepth = r.callDepth + Event.active (.moment m runtime frame :: earlier) ∧
          runtime.callDepth ≤ max r.callDepth maxCallDepth := by
  have runs (n : Nat) := alike ((Contract.restoring_keeps host).likeness 0) n ()
  refine ⟨?_, ?_, execute_callDepth host, ?_⟩
  · intro n s state
    exact ((runs n).statement s trivial trivial state trivial).moves.1
  · intro n e state
    have met := ((runs n).expr e trivial state trivial).moves
    exact ⟨met.1, met.2 rfl⟩
  · intro r fuel filename p state m runtime frame earlier hsuffix
    obtain ⟨outcome, t, hrun, met⟩ :=
      -- The counter is compared with the trace: what holds of the whole holds at every suffix of
      -- it.
      (Contract.counting_keeps host r.callDepth).execute
        (fun _ h => ⟨h, rfl⟩) r fuel filename p (state, []) trivial
        ⟨trivial, rfl, Nat.le_max_left _ _⟩
    rw [hrun] at hsuffix
    have hcounted : Contract.Counted r.callDepth t := by
      cases outcome with
      | value v => exact met.2.1
      | stopped e => exact met.1
    obtain ⟨hdepth, hle, -⟩ := hcounted.1.of_suffix hsuffix
    exact ⟨hdepth, hle⟩

def emptyCall : Program :=
  ⟨[.function (.mk (some "f") [] [.empty default] [] default) default,
    .expr (.call (.name "f" default) [] default) default], []⟩

theorem frame_restored_emptyCall : ∃ m runtime frame earlier,
    .moment m runtime frame :: earlier <:+
        (Runtime.bare.execute recorder.traced 20 none emptyCall (.start ⟨none, none⟩, [])).2.2.2 ∧
      runtime.callDepth = 0 + Event.active (.moment m runtime frame :: earlier) ∧
      runtime.callDepth ≤ max 0 maxCallDepth := by
  have suffix : .moment _ _ _ :: _ <:+
      (Runtime.bare.execute recorder.traced 20 none emptyCall (.start ⟨none, none⟩, [])).2.2.2 :=
    ⟨[_], rfl⟩
  exact ⟨_, _, _, _, suffix, (frame_restored recorder).2.2.2 _ _ _ _ _ _ _ _ _ suffix⟩

end ScriptShell.Evaluation
