import ScriptShell.Proofs.Evaluation.Hoisting
import ScriptShell.Proofs.Evaluation.Position

namespace ScriptShell

open Evaluation

/-- A program that may be run beside a host: one that was read from one of some units or can be read
from a file. -/
def Host.Offers {σ : Type} (host : Host σ) (units : List SourceUnit) (p : Program) : Prop :=
  (∃ u ∈ units, u.Accepts p) ∨ ∃ name content options warnings,
    host.file name = .bytes content ∧
      Program.ofSource options (Text.readUtf8 content) = .ok (p, warnings)

def Part.OfferedBy {σ : Type} (host : Host σ) (units : List SourceUnit) (q : Part) : Prop :=
  ∃ p, host.Offers units p ∧ (Part.program p).Contains q

section Offers

variable {σ : Type} {host : Host σ} {units : List SourceUnit}

theorem Host.Offers.part {p : Program} (h : host.Offers units p) :
    (Part.program p).OfferedBy host units :=
  ⟨p, h, .refl⟩

theorem hereditary_offeredBy : Hereditary (Part.OfferedBy host units) := by
  rintro q r hr ⟨p, hp, hq⟩
  exact ⟨p, hp, hq.tail hr⟩

theorem Part.OfferedBy.fit {q : Part} (h : q.OfferedBy host units) : q.Fit := by
  obtain ⟨p, hp, hq⟩ := h
  rcases hp with ⟨u, -, options, warnings, -, hsource⟩ | ⟨name, content, options, warnings, -, hsource⟩
  · exact Program.wellFormed_of_ofSource hsource q hq
  · exact Program.wellFormed_of_ofSource hsource q hq

end Offers

namespace Event

def declaresFunction : Event → Bool
  | .moment (.statement s) _ _ => s.declaresFunction
  | _ => false

def bindsFunction : Event → Bool
  | .moment (.functionBound _ _) _ _ => true
  | _ => false

theorem exists_of_declaresFunction {e : Event} (h : e.declaresFunction = true) :
    ∃ f place runtime frame, e = .moment (.statement (.function f place)) runtime frame := by
  unfold declaresFunction at h
  split at h
  case h_1 s runtime frame =>
    unfold Stmt.declaresFunction at h
    split at h
    case h_1 f place => exact ⟨f, place, runtime, frame, rfl⟩
    case h_2 => cases h
  case h_2 => cases h

end Event

theorem exists_declared {trace : List Event} (hruns : trace.any Event.declaresFunction = true) :
    ∃ f place runtime frame past,
      .moment (.statement (.function f place)) runtime frame :: past <:+ trace := by
  obtain ⟨e, he, hdeclares⟩ := List.any_eq_true.mp hruns
  obtain ⟨later, past, htrace⟩ := List.append_of_mem he
  obtain ⟨f, place, runtime, frame, rfl⟩ := Event.exists_of_declaresFunction hdeclares
  exact ⟨f, place, runtime, frame, past, later, htrace.symm⟩

theorem not_boundIn {trace : List Event} (hbinds : trace.any Event.bindsFunction = false)
    {e : Event} {past : List Event} (hsuffix : e :: past <:+ trace) {scope : Option ScopeId}
    {f : FunctionDef} : ¬ BoundIn scope f past := by
  rintro ⟨name, v, runtime, frame, -, hmem, -⟩
  have hbound : trace.any Event.bindsFunction = true :=
    List.any_eq_true.mpr ⟨.moment (.functionBound f v) runtime frame,
      hsuffix.subset (List.mem_cons_of_mem _ hmem), rfl⟩
  rw [hbinds] at hbound
  cases hbound

namespace Runtime

variable {σ : Type} {host : Host σ} {units : List SourceUnit}

theorem execute_inOrder (r : Runtime) (fuel : Nat) (filename : Option String) {p : Program}
    (hp : host.Offers units p) (hr : r.heap.DefinedIn (Part.OfferedBy host units))
    {state : σ × List Event} (hstate : InOrder (Part.OfferedBy host units) state.2) :
    let run := r.execute host.traced fuel filename p state
    run.2.1.heap.DefinedIn (Part.OfferedBy host units) ∧
      InOrder (Part.OfferedBy host units) run.2.2.2 := by
  let start : Evaluation.State (σ × List Event) := Contract.unitState r filename state
  have likeness (i : Spot) : Likeness (definedBy (Part.OfferedBy host units)) (Spot.ground _)
      host.traced host.traced 0 (fun i => (Contract.ordered _ i).rel) i :=
    Contract.ordered_likeness hereditary_offeredBy (fun _ => Part.OfferedBy.fit)
      (fun name content options p w hname hsource =>
        Host.Offers.part (.inr ⟨name, content, options, w, hname, hsource⟩)) i
  have hstart : StandsAt (Part.OfferedBy host units) (.reached none start) start :=
    ⟨rfl, nofun, List.suffix_rfl, Nat.le_refl _, hr, hstate⟩
  have ran := (alike likeness fuel (.reached none start)).program p hp.part start hstart
  obtain ⟨outcome, t, hrun, met⟩ := Contract.ordered_lawful.execute
    (fun r h => Contract.ordered_event h _ (.report r) rfl) r fuel filename p state ran
  rw [hrun]
  cases outcome with
  | value v => exact ⟨met.2.1.definedIn, met.2.1.inOrder⟩
  | stopped e => exact ⟨met.1.definedIn, met.1.inOrder⟩

theorem runSource_inOrder (r : Runtime) (fuel : Nat) {u : SourceUnit} (hu : u ∈ units)
    (hr : r.heap.DefinedIn (Part.OfferedBy host units)) {state : σ × List Event}
    (hstate : InOrder (Part.OfferedBy host units) state.2) :
    let run := r.runSource host.traced fuel u state
    run.2.1.heap.DefinedIn (Part.OfferedBy host units) ∧
      InOrder (Part.OfferedBy host units) run.2.2.2 := by
  have hcompiled := compile_preserves host.traced
    (Q := fun state => InOrder (Part.OfferedBy host units) state.2) (fun r _ h => h.beside rfl)
    r u.filename u.startLine u.source state hstate
  unfold runSource runUnit
  rw [compile_eq] at hcompiled ⊢
  cases hsource : Program.ofSource (r.parseOptions u.startLine) u.source with
  | error e =>
    rw [hsource] at hcompiled
    exact ⟨hr, hcompiled⟩
  | ok parsed =>
    rw [hsource] at hcompiled
    have offered : host.Offers units parsed.1 := .inl ⟨u, hu, _, parsed.2, rfl, hsource⟩
    exact r.execute_inOrder fuel u.filename offered hr hcompiled

theorem runSources_definedIn (r : Runtime) (fuel : Nat) {us : List SourceUnit}
    (hus : ∀ u ∈ us, u ∈ units) (hr : r.heap.DefinedIn (Part.OfferedBy host units)) (state : σ) :
    (r.runSources host fuel us state).1.heap.DefinedIn (Part.OfferedBy host units) := by
  refine runSources_keeps (Q := (·.heap.DefinedIn _)) (fun u hu r state hr => ?_) hr state
  rw [runSource_traced]
  exact (r.runSource_inOrder fuel (hus u hu) hr inOrder_nil).1

/-- On a runtime whose functions are all native, whatever sources were run before: whenever the
declaration of a function is run, in whatever scope, entering a body has bound the function there
during this run, unless the declaration is the branch of an `if` or what a loop repeats in one of the
programs that may be run. -/
theorem runSource_binds_declared (r : Runtime) (hnative : r.heap.AllFunctions fun _ => False)
    (host : Host σ) (fuel : Nat) (earlier : List SourceUnit) (u : SourceUnit) (state : σ) :
    let before := r.runSources host fuel earlier state
    ∀ f place runtime frame past,
      .moment (.statement (.function f place)) runtime frame :: past <:+
          (before.1.runSource host.traced fuel u (before.2, [])).2.2.2 →
        BoundIn frame.scope f past ∨ ∃ p s, host.Offers (earlier ++ [u]) p ∧
          (Part.program p).Contains (.stmt s) ∧ .function f place ∈ s.branches := by
  intro before f place runtime frame past hsuffix
  -- Functions that earlier units left behind may run now, so all sources count as offered.
  have hdefined : before.1.heap.DefinedIn (Part.OfferedBy host (earlier ++ [u])) :=
    r.runSources_definedIn fuel (fun u hu => List.mem_append_left _ hu)
      (fun id c hc => (hnative id c hc).elim) state
  have hstart : InOrder (Part.OfferedBy host (earlier ++ [u])) (before.2, ([] : List Event)).2 :=
    inOrder_nil
  obtain ⟨-, hinOrder⟩ := before.1.runSource_inOrder fuel
    (List.mem_append_right earlier List.mem_cons_self) hdefined hstart
  rcases hinOrder _ runtime frame past hsuffix f place rfl with hbound | ⟨s, ⟨p, hp, hs⟩, hbranch⟩
  · exact .inl hbound
  · exact .inr ⟨p, s, hp, hs, hbranch⟩

def branchUnit : SourceUnit :=
  ⟨none, 1, "if (true) function f() \x7b\x7d\ntypeof f;\n"⟩

def bodyUnit : SourceUnit :=
  ⟨none, 1, "function f() \x7b\x7d\n"⟩

def isEmptyFunction : Stmt → Bool
  | .function f _ => f.body.isEmpty
  | _ => false

theorem bodyUnit_accepts {p : Program} (h : bodyUnit.Accepts p) :
    p.body.all isEmptyFunction = true := by
  have hbody : ∀ letKeywords strict, (Program.ofSource ⟨1, letKeywords, strict⟩
      bodyUnit.source).toOption.all (·.1.body.all isEmptyFunction) = true := by
    decide +kernel
  obtain ⟨⟨_, letKeywords, strict⟩, warnings, rfl, hsource⟩ := h
  have hp := hbody letKeywords strict
  change (Program.ofSource ⟨bodyUnit.startLine, letKeywords, strict⟩ _).toOption.all _ = true at hp
  rw [hsource] at hp
  exact hp

/-- In declarations of functions that do nothing, no statement has a branch. -/
theorem branches_of_empty {p : Program} (h : p.body.all isEmptyFunction = true) {s : Stmt}
    (hs : (Part.program p).Contains (.stmt s)) : s.branches = [] := by
  rcases hs.cases_head with heq | ⟨q, hq, hqs⟩
  · cases heq
  obtain ⟨s', hs', rfl⟩ := List.mem_map.mp hq
  have hempty := List.all_eq_true.mp h s' hs'
  cases s' with
  | function f place =>
    rcases hqs.cases_head with heq | ⟨q, hq, hqs⟩
    · cases heq
      rfl
    obtain rfl := List.mem_singleton.mp hq
    have hbody : f.body = [] := List.isEmpty_iff.mp hempty
    rcases hqs.cases_head with heq | ⟨q, hq, -⟩
    · cases heq
    · rw [Part.parts, hbody] at hq
      cases hq
  | _ => cases hempty

/-- The declaration in a body finds the function bound. The branch is run, and nobody has bound the
function. -/
theorem runSource_binds_declared_branch :
    let before := (initial .bare).runSources recorder 20 [] (.start ⟨none, none⟩)
    (∃ f place runtime frame past,
      .moment (.statement (.function f place)) runtime frame :: past <:+
          (before.1.runSource recorder.traced 20 bodyUnit (before.2, [])).2.2.2 ∧
        BoundIn frame.scope f past) ∧
    ∃ f place runtime frame past,
      .moment (.statement (.function f place)) runtime frame :: past <:+
          (before.1.runSource recorder.traced 20 branchUnit (before.2, [])).2.2.2 ∧
        ¬ BoundIn frame.scope f past ∧ ∃ p s, recorder.Offers ([] ++ [branchUnit]) p ∧
          (Part.program p).Contains (.stmt s) ∧ .function f place ∈ s.branches := by
  have h (u : SourceUnit) := runSource_binds_declared (initial .bare) (allFunctions_initial _)
    recorder 20 [] u (.start ⟨none, none⟩)
  refine ⟨?body, ?branch⟩
  case body =>
    have hruns :
        let before := (initial .bare).runSources recorder 20 [] (.start ⟨none, none⟩)
        (before.1.runSource recorder.traced 20 bodyUnit (before.2, [])).2.2.2.any
          Event.declaresFunction = true := by decide +kernel
    obtain ⟨f, place, runtime, frame, past, hsuffix⟩ := exists_declared hruns
    refine ⟨f, place, runtime, frame, past, hsuffix, ?_⟩
    refine (h bodyUnit f place runtime frame past hsuffix).resolve_right ?_
    rintro ⟨p, s, ⟨u, hu, hp⟩ | ⟨name, content, -, -, hfile, -⟩, hs, hbranch⟩
    · obtain rfl := List.mem_singleton.mp hu
      rw [branches_of_empty (bodyUnit_accepts hp) hs] at hbranch
      cases hbranch
    · cases hfile
  case branch =>
    have hruns :
        let before := (initial .bare).runSources recorder 20 [] (.start ⟨none, none⟩)
        (before.1.runSource recorder.traced 20 branchUnit (before.2, [])).2.2.2.any
          Event.declaresFunction = true := by decide +kernel
    have hbinds :
        let before := (initial .bare).runSources recorder 20 [] (.start ⟨none, none⟩)
        (before.1.runSource recorder.traced 20 branchUnit (before.2, [])).2.2.2.any
          Event.bindsFunction = false := by decide +kernel
    obtain ⟨f, place, runtime, frame, past, hsuffix⟩ := exists_declared hruns
    have hunbound : ¬ BoundIn frame.scope f past := not_boundIn hbinds hsuffix
    exact ⟨f, place, runtime, frame, past, hsuffix, hunbound,
      (h branchUnit f place runtime frame past hsuffix).resolve_left hunbound⟩

example : ((initial .bare).runSource recorder 20 branchUnit (.start ⟨none, none⟩)).1 matches
    .ran (.value (.text "undefined")) := by
  decide +kernel

end Runtime

end ScriptShell
