import ScriptShell.Proofs.Evaluation.Position

namespace ScriptShell

open Evaluation

/-- The globals at a moment of a run. -/
def Event.globals? : Event → Option Globals
  | .moment _ runtime _ => some runtime.globals
  | _ => none

structure Written (start now : Globals) (trace : List Event) : Prop where
  now : start.LeadsTo now
  always : ∀ g ∈ trace.filterMap Event.globals?, start.LeadsTo g

namespace Written

variable {start now : Globals} {trace : List Event}

theorem fresh (g : Globals) : Written g g [] :=
  ⟨.refl g, nofun⟩

theorem onward {next : Globals} (h : Written start now trace) (hnext : now.LeadsTo next) :
    Written start next trace :=
  ⟨h.now.trans hnext, h.always⟩

theorem moment (h : Written start now trace) (m : Moment) (runtime : Runtime) (frame : Frame)
    (hnow : runtime.globals = now) : Written start now (.moment m runtime frame :: trace) :=
  ⟨h.now, List.forall_mem_cons.mpr ⟨hnow ▸ h.now, h.always⟩⟩

theorem beside (h : Written start now trace) (e : Event) (he : e.globals? = none) :
    Written start now (e :: trace) :=
  ⟨h.now, by rw [List.filterMap_cons_none he]; exact h.always⟩

end Written

namespace Evaluation.Contract

variable {σ : Type}

def writing (start : Globals) : Contract (σ × List Event) where
  good s := Written start s.runtime.globals s.host.2
  ends _ s := Written start s.runtime.globals s.host.2
  moves _ _ _ := True

theorem writing_invariant (start : Globals) (host : Host σ) :
    Invariant (fun s : State (σ × List Event) => Written start s.runtime.globals s.host.2)
      anyPart host.traced where
  definedIn _ := Heap.definedIn_anyPart _
  step hg hs := hs.onward (hg.widens _ _).globals
  inFrame _ hs := hs
  report r _ hs := hs.beside (.report r) rfl
  write text hs := hs.beside (.write text) rfl
  quitted code hs := (hs.moment .quits _ _ rfl).beside (.quit code) rfl
  told {_ m} _ hs := hs.moment m _ _ rfl
  notified line hs := (hs.moment .notifies _ _ rfl).beside (.branch _ line _) rfl
  entered hs := hs.moment .callBegins _ _ rfl
  left hs := hs.moment .callEnds _ _ rfl
  hereditary := hereditary_anyPart
  accepted _ := trivial

theorem writing_keeps (start : Globals) (host : Host σ) :
    (writing start).Keeps anyPart host.traced :=
  (writing_invariant start host).keeps

end Evaluation.Contract

namespace Runtime

variable {σ : Type} {host : Host σ} {start : Globals}

theorem runUnit_written (r : Runtime) (fuel : Nat) (filename : Option String) (startLine : Nat)
    (source : String) {state : σ × List Event} (h : Written start r.globals state.2) :
    let run := r.runUnit host.traced fuel filename startLine source state
    Written start run.2.1.globals run.2.2.2 := by
  have hcompiled := compile_preserves host.traced (Q := (Written start r.globals ·.2))
    (fun r _ h => h.beside (.report r) rfl) r filename startLine source state h
  unfold runUnit
  split
  case h_1 e state' hend =>
    rw [hend] at hcompiled
    exact hcompiled
  case h_2 p state' hend =>
    rw [hend] at hcompiled
    obtain ⟨outcome, t, hrun, met⟩ := (Contract.writing_keeps start host).execute
      (fun r h => ⟨h.beside (.report r) rfl, trivial⟩) r fuel filename p state' trivial hcompiled
    rw [hrun]
    cases outcome with
    | value v => exact met.2.1
    | stopped e => exact met.1

theorem runSources_written (r : Runtime) (fuel : Nat) (units : List SourceUnit)
    {state : σ × List Event} (h : Written start r.globals state.2) :
    let run := r.runSources host.traced fuel units state
    Written start run.1.globals run.2.2 := by
  induction units generalizing r state with
  | nil => exact h
  | cons u units ih => exact ih _ (r.runUnit_written fuel u.filename u.startLine u.source h)

end Runtime

/-- Sealed globals are sealed for good. Whatever was done with globals since they were empty, they
are one layer or two, of which the lower one is sealed, and they answer as the layers do. From the
first seal on, whatever is done, and likewise at every moment of every run of scripts on sealed
globals, the sealed layer is what it was, and names bound in it are read as they were sealed until
the top binds them. An assignment is refused as sealed just where only the sealed layer binds the
name, fails to find it just where the globals do not contain it, and else changes something only
if it is done; the globals contain just the names that can be read. -/
theorem sealed_for_good (history : List Globals.Operation) {σ : Type} (host : Host σ)
    (r : Runtime) (fuel : Nat) (units : List SourceUnit) (state : σ) :
    let g := Globals.empty.after history
    let layers := Globals.layersAfter history
    let sealed := r.sealGlobals.2
    let run := sealed.runSources host.traced fuel units (state, [])
    (layers.map (·.isSealed) = (if history.any (·.isClose) then [false, true] else [false]) ∧
      (∀ name v, g.get? name = (Layer.find? layers name).map (·.value) ∧
        g.contains name = layers.any (·.bindings.contains name) ∧
        Layer.assign name v layers = ((g.assign name v).1, (g.assign name v).2.layers) ∧
        Layer.close layers = (g.close.1, g.close.2.layers)) ∧
      (g.close.1 = true → g.close.2 = ⟨.empty, some g.top⟩ ∧ ∀ later, g.close.2.SealedSince g.top
        later (Globals.empty.after (later ++ .close :: history)))) ∧
    (∀ now, now = run.1.globals ∨ now ∈ run.2.2.filterMap Event.globals? →
      ∃ writes : List Globals.Write, sealed.globals.SealedSince
        (r.globals.below.getD r.globals.top) (writes.map .write) now) ∧
    ∀ (g : Globals) name v,
      ((g.assign name v).1 = .sealedOff ↔ g.top.contains name = false ∧
        ∃ below, g.below = some below ∧ below.contains name = true) ∧
      ((g.assign name v).1 = .notFound ↔ g.contains name = false) ∧
      ((g.assign name v).1 ≠ .done → (g.assign name v).2 = g) ∧
      g.contains name = (g.get? name).isSome := by
  intro g layers sealed run
  have hlayers : layers = g.layers := Globals.layersAfter_eq history
  refine ⟨⟨?_, fun name v => ?_, fun hfirst => ?_⟩, fun now hnow => ?_, fun g name v =>
    ⟨Globals.assign_sealedOff_iff, Globals.assign_notFound_iff, Globals.assign_eq_of_ne_done,
      g.contains_eq_isSome_get? name⟩⟩
  · rw [hlayers, Globals.isSealed_layers, Globals.isSealed_after]
  · rw [hlayers]
    exact ⟨g.get?_eq name, g.contains_eq name, g.assign_layers name v, g.close_layers⟩
  · have hclose := Globals.close_of_first hfirst
    refine ⟨hclose, fun later => ?_⟩
    rw [Globals.after_append]
    exact Globals.sealedSince (congrArg Globals.below hclose) later
  -- A run leads to its globals by writes alone, from the first unit to the last.
  · have hwritten : Written sealed.globals run.1.globals run.2.2 :=
      sealed.runSources_written fuel units (.fresh sealed.globals)
    have hleads : sealed.globals.LeadsTo now := by
      rcases hnow with rfl | hnow
      · exact hwritten.now
      · exact hwritten.always now hnow
    obtain ⟨writes, rfl⟩ := hleads
    exact ⟨writes, Globals.sealedSince r.globals.below_close _⟩

def twoNames : Runtime :=
  { Runtime.new .bare with globals := (Globals.empty.define "a" .null true).define "b" .null true }

def assigningUnit : SourceUnit :=
  ⟨none, 1, "a = true;\nvar b;\nc = true;\n"⟩

theorem sealed_for_good_twoNames :
    let history := [Globals.Operation.write (.define "a" .null true)]
    let later := [Globals.Operation.close, .write (.hoist "b"), .write (.assign "a" .undefined)]
    (Globals.empty.after history).close.1 = true ∧
      (Globals.empty.after (later ++ .close :: history)).get? "a" = some .null ∧
      ∃ writes : List Globals.Write, twoNames.sealGlobals.2.globals.SealedSince
        (twoNames.globals.below.getD twoNames.globals.top) (writes.map .write)
        (twoNames.sealGlobals.2.runSources recorder.traced 20 [assigningUnit]
          (.start ⟨none, none⟩, [])).1.globals := by
  intro history later
  have h := sealed_for_good history recorder twoNames 20 [assigningUnit] (.start ⟨none, none⟩)
  have hfirst : (Globals.empty.after history).close.1 = true := rfl
  have hbound : (Globals.empty.after history).top.get? "a" = some ⟨.null, true⟩ :=
    (Dict.get?_insert _ _ _ _).trans (if_pos rfl)
  have hlater : later.any (·.binds "a") = false := by decide
  have hreads := ((h.1.2.2 hfirst).2 later).reads "a" _ hbound (Dict.get?_empty "a") hlater
  exact ⟨hfirst, hreads, h.2.1 _ (.inl (Eq.refl _))⟩

example :
    let run := twoNames.sealGlobals.2.runSources recorder 20 [assigningUnit] (.start ⟨none, none⟩)
    (run.1.globals.get? "a" matches some .null) ∧ (run.1.globals.get? "b" matches some .undefined) ∧
      (run.1.globals.get? "c" matches some (.bool true)) := by
  decide +kernel

end ScriptShell
