import ScriptShell.Proofs.Evaluation.Failure
import ScriptShell.Proofs.Evaluation.Origin
import ScriptShell.Proofs.Library.Startup

namespace ScriptShell

open Evaluation

/-- A source with the name and the first line under which it is compiled. -/
structure SourceUnit where
  filename : Option String
  startLine : Nat
  source : String

def UnitEnd.position? : UnitEnd → Option (Option String × Nat)
  | .ran (.stopped (.thrown _ file line)) => some (file, line)
  | _ => none

theorem UnitEnd.position?_eq_some {e : UnitEnd} {file : Option String} {line : Nat} :
    e.position? = some (file, line) ↔ ∃ v, e = .ran (.stopped (.thrown v file line)) := by
  unfold position?
  split <;> simp_all

namespace SourceUnit

/-- What the source is accepted as, in some language version. -/
def Accepts (u : SourceUnit) (p : Program) : Prop :=
  ∃ options warnings, options.startLine = u.startLine ∧
    Program.ofSource options u.source = .ok (p, warnings)

/-- Where exceptions of an accepted source may be raised. -/
def ground (u : SourceUnit) (p : Program) : Ground where
  part := (Part.program p).Contains
  file := (· = u.filename)
  line n := ∃ q place, (Part.program p).Contains q ∧ place ∈ q.sites ∧ place.line = n
  ready := any

/-- An exception was raised inside a statement of the unit, under the unit's name and at the line of
a statement, a declared name or a call of it. -/
def Raises (u : SourceUnit) (v : Value) (file : Option String) (line : Nat)
    (trace : List Event) : Prop :=
  ∃ p stmt calls runtime frame earlier later, u.Accepts p ∧
    trace = later ++ .moment (.raised v file line) runtime frame :: earlier ∧
    Event.running earlier = some stmt :: calls ∧ (Part.program p).Contains (.stmt stmt) ∧
    file = u.filename ∧ (u.ground p).line line ∧ max 1 u.startLine ≤ line

theorem le_line {u : SourceUnit} {p : Program} (hp : u.Accepts p) {line : Nat}
    (hline : (u.ground p).line line) : max 1 u.startLine ≤ line := by
  obtain ⟨options, warnings, hstart, hsource⟩ := hp
  obtain ⟨q, place, hq, hplace, rfl⟩ := hline
  have hsited := Program.ofSource_sited options u.source
  rw [hsource] at hsited
  obtain ⟨front, back, -, hfront⟩ := hsited.1 q hq place (Part.places_of_sites hplace)
  rw [hfront, Location.line_advance, hstart]
  exact Nat.le_add_right _ _

abbrev Accepted (units : List SourceUnit) : Type :=
  { accepted : SourceUnit × Program // accepted.1 ∈ units ∧ accepted.1.Accepts accepted.2 }

def grounds (units : List SourceUnit) (i : Accepted units) : Ground :=
  i.1.1.ground i.1.2

variable {σ : Type} {host : Host σ} {units : List SourceUnit}

theorem likeness_grounds (hfiles : ∀ name content, host.file name ≠ .bytes content)
    (i : Accepted units) :
    Likeness (fromGround (grounds units)) (grounds units) host.traced host.traced 0
      (fun i => Originates.rel (grounds units) False i) i := by
  refine Originates.likeness (fun i p q hq hp => ?_) (fun i q place hq hplace => ?_)
    (fun _ _ => trivial) (fun _ _ => trivial) hfiles i
  · exact Relation.ReflTransGen.tail hp hq
  · exact ⟨q, place, hq, hplace, rfl⟩

theorem exists_raises {v : Value} {file : Option String} {line : Nat} {trace : List Event}
    (h : RaisedOn (grounds units) v file line trace) : ∃ u ∈ units, u.Raises v file line trace := by
  obtain ⟨⟨⟨u, p⟩, hu, hp⟩, stmt, calls, runtime, frame, earlier, later, htrace, hrunning, hpart,
    hfile, hline⟩ := h
  exact ⟨u, hu, p, stmt, calls, runtime, frame, earlier, later, hp, htrace, hrunning, hpart, hfile,
    hline, le_line hp hline⟩

end SourceUnit

namespace Runtime

variable {σ : Type} {host : Host σ} {units : List SourceUnit}

def FunctionsFrom (units : List SourceUnit) (r : Runtime) : Prop :=
  r.heap.AllFunctions (fromGround (SourceUnit.grounds units))

/-- Compiles and runs a source under its name. -/
def runSource (r : Runtime) (host : Host σ) (fuel : Nat) (u : SourceUnit) (state : σ) :
    UnitEnd × Runtime × σ :=
  r.runUnit host fuel u.filename u.startLine u.source state

/-- Compiles and runs sources one after the other, however they end. -/
def runSources (r : Runtime) (host : Host σ) (fuel : Nat) :
    List SourceUnit → σ → Runtime × σ
  | [], state => (r, state)
  | u :: us, state =>
    let (_, r, state) := r.runSource host fuel u state
    r.runSources host fuel us state

theorem runSources_keeps {Q : Runtime → Prop} {us : List SourceUnit} {fuel : Nat}
    (hkeeps : ∀ u ∈ us, ∀ r state, Q r → Q (r.runSource host fuel u state).2.1) {r : Runtime}
    (hr : Q r) (state : σ) : Q (r.runSources host fuel us state).1 := by
  induction us generalizing r state with
  | nil => exact hr
  | cons u us ih =>
    obtain ⟨hu, hus⟩ := List.forall_mem_cons.mp hkeeps
    exact ih hus (hu r state hr) _

theorem runSource_traced (r : Runtime) (host : Host σ) (fuel : Nat) (u : SourceUnit) (state : σ) :
    (r.runSource host fuel u state).2.1 = (r.runSource host.traced fuel u (state, [])).2.1 :=
  congrArg (·.2.1) (r.runUnit_traced host fuel u.filename u.startLine u.source state [])

/-- A program brings in no functions but those of its unit, and an exception that leaves it was
raised on one of the grounds. -/
theorem execute_raised (r : Runtime) (hfiles : ∀ name content, host.file name ≠ .bytes content)
    (fuel : Nat) {u : SourceUnit} {p : Program} (hu : u ∈ units) (hp : u.Accepts p)
    (hr : r.FunctionsFrom units) (state : σ × List Event) :
    let run := r.execute host.traced fuel u.filename p state
    run.2.1.FunctionsFrom units ∧ ∀ v file line, run.1 = .stopped (.thrown v file line) →
      RaisedOn (SourceUnit.grounds units) v file line run.2.2.2 := by
  let i : SourceUnit.Accepted units := ⟨(u, p), hu, hp⟩
  have ran : EndsOn (SourceUnit.grounds units) False i .body any
      ⟨r, unitFrame u.filename, state⟩
      (Evaluation.program host.traced fuel p ⟨r, unitFrame u.filename, state⟩) :=
    (alike (SourceUnit.likeness_grounds hfiles) fuel i).program p .refl _ ⟨rfl, hr⟩
  unfold execute
  cases hend : Evaluation.program host.traced fuel p ⟨r, unitFrame u.filename, state⟩ with
  | ok v t =>
    rw [hend] at ran
    exact ⟨ran.2.starts.functions, nofun⟩
  | error e t =>
    rw [hend] at ran
    cases e with
    | thrown v file line =>
      obtain ⟨-, hraised⟩ := ran.2 v file line rfl
      dsimp only [uncaught]
      split
      · refine ⟨ran.1, fun v file line he => ?_⟩
        cases he
        exact (hraised.resolve_right fun h => h.1).of_suffix (List.suffix_cons _ _)
      · exact ⟨ran.1, nofun⟩
    | aborted | fault | wanting | outOfFuel => exact ⟨ran.1, nofun⟩

theorem runSource_raised (r : Runtime) (hfiles : ∀ name content, host.file name ≠ .bytes content)
    (fuel : Nat) {u : SourceUnit} (hu : u ∈ units) (hr : r.FunctionsFrom units)
    (state : σ × List Event) :
    let run := r.runSource host.traced fuel u state
    run.2.1.FunctionsFrom units ∧ ∀ v file line, run.1 = .ran (.stopped (.thrown v file line)) →
      RaisedOn (SourceUnit.grounds units) v file line run.2.2.2 := by
  unfold runSource runUnit
  rw [compile_eq]
  cases hsource : Program.ofSource (r.parseOptions u.startLine) u.source with
  | error e => exact ⟨hr, nofun⟩
  | ok parsed =>
    obtain ⟨hfunctions, hraised⟩ := r.execute_raised hfiles fuel hu
      (p := parsed.1) ⟨_, _, rfl, hsource⟩ hr _
    exact ⟨hfunctions, fun v file line he => hraised v file line (UnitEnd.ran.inj he)⟩

theorem runSource_functionsFrom (r : Runtime)
    (hfiles : ∀ name content, host.file name ≠ .bytes content) (fuel : Nat) {u : SourceUnit}
    (hu : u ∈ units) (hr : r.FunctionsFrom units) (state : σ) :
    (r.runSource host fuel u state).2.1.FunctionsFrom units := by
  rw [runSource_traced]
  exact (r.runSource_raised hfiles fuel hu hr (state, [])).1

theorem runSources_functionsFrom (r : Runtime)
    (hfiles : ∀ name content, host.file name ≠ .bytes content) (fuel : Nat)
    {us : List SourceUnit} (hus : ∀ u ∈ us, u ∈ units) (hr : r.FunctionsFrom units) (state : σ) :
    (r.runSources host fuel us state).1.FunctionsFrom units :=
  runSources_keeps
    (fun u hu r state hr => r.runSource_functionsFrom hfiles fuel (hus u hu) hr state) hr state

/-- On a runtime whose functions are all native, whatever sources were run before: an exception that
leaves a source was raised by that source or one of those before it, under the name and at a line of
the one that raised it. -/
theorem runSource_raises (r : Runtime) (hnative : r.heap.AllFunctions fun _ => False)
    (host : Host σ) (hfiles : ∀ name content, host.file name ≠ .bytes content) (fuel : Nat)
    (earlier : List SourceUnit) (u : SourceUnit) (state : σ) :
    let before := r.runSources host fuel earlier state
    ∀ v file line,
      (before.1.runSource host fuel u before.2).1 = .ran (.stopped (.thrown v file line)) →
        ∃ raiser ∈ earlier ++ [u], raiser.Raises v file line
          (before.1.runSource host.traced fuel u (before.2, [])).2.2.2 := by
  intro before v file line hthrown
  -- functions may come from units that run later too, so that one property does for all runs
  have hfunctions : before.1.FunctionsFrom (earlier ++ [u]) :=
    r.runSources_functionsFrom hfiles fuel (fun u hu => List.mem_append_left _ hu)
      (fun id c hc => (hnative id c hc).elim) state
  have traced := before.1.runUnit_traced host fuel u.filename u.startLine u.source before.2 []
  obtain ⟨-, hraised⟩ := before.1.runSource_raised hfiles fuel
    (List.mem_append_right earlier List.mem_cons_self) hfunctions (before.2, [])
  refine SourceUnit.exists_raises (hraised v file line ?_)
  exact (congrArg Prod.fst traced).symm.trans hthrown

def declaringUnit : SourceUnit :=
  ⟨some "declaring", 5, "function f() \x7b\n  x;\n\x7d\n"⟩

def callingUnit : SourceUnit :=
  ⟨some "calling", 40, "\ntry \x7b f(); \x7d finally \x7b 1; \x7d\n"⟩

theorem runSource_raises_calling :
    let before := (initial .bare).runSources recorder 20 [declaringUnit] (.start ⟨none, none⟩)
    ∃ v, (before.1.runSource recorder 20 callingUnit before.2).1 =
        .ran (.stopped (.thrown v (some "declaring") 6)) ∧
      ∃ raiser ∈ [declaringUnit] ++ [callingUnit], raiser.Raises v (some "declaring") 6
        (before.1.runSource recorder.traced 20 callingUnit (before.2, [])).2.2.2 := by
  have hposition :
      let before := (initial .bare).runSources recorder 20 [declaringUnit] (.start ⟨none, none⟩)
      (before.1.runSource recorder 20 callingUnit before.2).1.position? =
        some (some "declaring", 6) := by decide +kernel
  have hfiles (name : String) (content : List UInt8) : recorder.file name ≠ .bytes content := nofun
  have h := runSource_raises (initial .bare) (allFunctions_initial _) recorder hfiles 20 [declaringUnit]
    callingUnit (.start ⟨none, none⟩)
  obtain ⟨v, hthrown⟩ := UnitEnd.position?_eq_some.mp hposition
  exact ⟨v, hthrown, h v _ _ hthrown⟩

end Runtime

end ScriptShell
