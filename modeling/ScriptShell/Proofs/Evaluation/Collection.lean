import Mathlib.Data.List.Forall2
import ScriptShell.Proofs.Evaluation.Coupling
import ScriptShell.Proofs.Host.History

namespace ScriptShell

namespace Event

/-- Events that differ at most in the books of heaps: in those of a runtime that is looked at, and
in statistics that are printed of them. -/
inductive Resembles : Event → Event → Prop
  | report (r : Report) : Resembles (.report r) (.report r)
  | write (text : String) : Resembles (.write text) (.write text)
  | statistics (machine : Machine) {h h' : Heap} (heq : h.contents = h'.contents) :
    Resembles (.write (Library.statisticsLine h.collect.1 (machine.programBreak h.collect.2)))
      (.write (Library.statisticsLine h'.collect.1 (machine.programBreak h'.collect.2)))
  | quit (code : Option Int32) : Resembles (.quit code) (.quit code)
  | moment (m : Moment) {r r' : Runtime} (f : Frame) (heq : r.contents = r'.contents) :
    Resembles (.moment m r f) (.moment m r' f)

def isBranch : Event → Bool
  | .branch .. | .moment .notifies .. => true
  | _ => false

end Event

def withoutBranches (trace : List Event) : List Event :=
  trace.filter fun e => !e.isBranch

/-- Traces of resembling events, the news about loops apart. -/
def TracesResemble (trace trace' : List Event) : Prop :=
  List.Forall₂ Event.Resembles (withoutBranches trace) (withoutBranches trace')

theorem TracesResemble.cons {trace trace' : List Event} (h : TracesResemble trace trace')
    {e e' : Event} (he : e.Resembles e') : TracesResemble (e :: trace) (e' :: trace') := by
  have hsame : e.isBranch = e'.isBranch := by
    cases he with
    | moment m => cases m <;> rfl
    | _ => rfl
  simp only [TracesResemble, withoutBranches, List.filter_cons, ← hsame]
  cases e.isBranch with
  | true => exact h
  | false => exact .cons he h

namespace Runtime

theorem contents_collect (r : Runtime) :
    ({ r with heap := r.heap.collect.2 }).contents = r.contents :=
  rfl

theorem contents_maybeCollect (r : Runtime) :
    ({ r with heap := r.heap.maybeCollect.2 }).contents = r.contents := by
  unfold Heap.maybeCollect
  split
  · exact r.contents_collect
  · rfl

end Runtime

abbrev SameContents (r r' : Runtime) : Prop :=
  r.contents = r'.contents

namespace SameContents

variable {r r' : Runtime} (h : SameContents r r')
include h

theorem strict : r.strict = r'.strict :=
  (congrArg Runtime.strict h :)

theorem parseOptions (startLine : Nat) : r.parseOptions startLine = r'.parseOptions startLine :=
  (congrArg (Runtime.parseOptions · startLine) h :)

theorem machine : r.machine = r'.machine :=
  (congrArg Runtime.machine h :)

theorem heap : r.heap.contents = r'.heap.contents :=
  (congrArg Runtime.heap h :)

end SameContents

abbrev Host.Resemble {σ τ : Type} (host : Host σ) (state : σ) (host' : Host τ) (state' : τ) :
    σ × List Event → τ × List Event → Prop :=
  Host.Alongside host state host' state' TracesResemble

theorem Host.Resemble.add {σ τ : Type} {host : Host σ} {state : σ} {host' : Host τ} {state' : τ}
    {p : σ × List Event} {q : τ × List Event} (h : Host.Resemble host state host' state' p q)
    {e e' : Event} (he : e.Resembles e') :
    Host.Resemble host state host' state' (host.serve e.request p.1, e :: p.2)
      (host'.serve e'.request q.1, e' :: q.2) :=
  Host.Alongside.add h e e' (h.traces.cons he)

namespace Evaluation

variable {σ τ : Type} {host : Host σ} {state : σ} {host' : Host τ} {state' : τ}

theorem unseen_sameContents : Unseen SameContents where
  result {α g r r'} f hg h := by rw [← hg.result r, ← hg.result r', h]
  runtime {α g r r'} f hg h := by
    rw [SameContents, ← hg.runtime r, ← hg.runtime r', h]
  frame {α g r r'} f hg h := by rw [← hg.frame r, ← hg.frame r', h]

/-- States of one run that differ only in what collections and the news about loops leave. -/
structure Passed (host : Host σ) (state : σ) (s s' : State (σ × List Event)) : Prop where
  runtime : SameContents s'.runtime s.runtime
  frame : s'.frame = s.frame
  host : s'.host.1 = host.after state (s'.host.2.map Event.request)
  trace : withoutBranches s'.host.2 = withoutBranches s.host.2

/-- A loop goes on beside a host that does not stop it. -/
theorem branch_passed (hhost : host.NeverAborts state) (line : Nat) (s : State (σ × List Event))
    (hs : s.host.1 = host.after state (s.host.2.map Event.request)) :
    ∃ s', branch host.traced line s = .ok () s' ∧ Passed host state s s' := by
  cases ht : s.runtime.tellsBranches with
  | false => exact ⟨s, branch_silent _ line s ht, rfl, rfl, hs, rfl⟩
  | true =>
    have htold : (s.observed host.traced .notifies).host.1 =
        host.after state ((s.observed host.traced .notifies).host.2.map Event.request) :=
      congrArg (host.serve (.observe .notifies s.runtime s.frame)) hs
    have hgoes : s.answer host.traced line ≠ .abort := by
      have hanswer := hhost ((s.observed host.traced .notifies).host.2.map Event.request)
        s.frame.filename line
      rwa [← htold] at hanswer
    have hnotified : Passed host state s (s.notified host.traced line) :=
      ⟨rfl, rfl, congrArg (host.serve (.branch s.frame.filename line)) htold, rfl⟩
    rw [branch_apply _ line s ht]
    cases haction : s.answer host.traced line with
    | continue_ => exact ⟨_, rfl, hnotified⟩
    | collect =>
      refine ⟨_, rfl, ?_, hnotified.frame, hnotified.host, hnotified.trace⟩
      exact s.runtime.contents_maybeCollect
    | abort => exact (hgoes haction).elim

theorem report_resemble (r : Report) :
    CoupledFrom SameContents (Host.Resemble host state host' state') .expression any
      (report host.traced r) (report host'.traced r) :=
  fun _ _ hst => .ok trivial ⟨hst.runtime, hst.frame, hst.host.add (.report r)⟩

theorem readNested_resemble (r : Except ParseError (Program × List ParseWarning))
    (source filename : String) :
    CoupledFrom SameContents (Host.Resemble host state host' state') .expression any
      (readNested host.traced source filename r) (readNested host'.traced source filename r) := by
  have sequencing := unseen_sameContents.sequencing (H := Host.Resemble host state host' state')
  cases r with
  | ok r =>
    exact sequencing.bind (reportWarnings_alike sequencing
      (fun r _ => report_resemble r) r.2 source _) fun _ _ =>
      sequencing.result r.1
  | error e =>
    exact sequencing.bind (sequencing.newError _ _) fun v _ =>
      .throwAt (fun m f hr h => h.add (.moment m f hr)) v _ _

theorem sameContents_coupling (hhost : host.NeverAborts state) (hhost' : host'.NeverAborts state')
    (hfile : host.file = host'.file) :
    Coupling SameContents (Host.Resemble host state host' state') host.traced host'.traced where
  toUnseen := unseen_sameContents
  report r _ h := h.add (.report r)
  write text h := h.add (.write text)
  requestQuit code h := h.add (.quit code)
  observe m f hr h := h.add (.moment m f hr)
  file := hfile
  strictWarning message s t hst := by
    rw [strictWarning_apply, strictWarning_apply, hst.runtime.strict, hst.frame]
    split
    · exact .ok trivial ⟨hst.runtime, hst.frame, hst.host.add (.report _)⟩
    · exact .ok trivial hst
  statistics s t hst := by
    rw [writeStatistics_apply, writeStatistics_apply, ← hst.runtime.machine]
    refine .ok trivial ⟨?_, hst.frame, hst.host.add (.statistics _ hst.runtime.heap)⟩
    exact s.runtime.contents_collect.trans (hst.runtime.trans t.runtime.contents_collect.symm)
  compileNested source filename s t hst := by
    rw [compileNested_apply, compileNested_apply, hst.runtime.parseOptions]
    exact readNested_resemble _ source filename s t hst
  -- The two hosts may answer differently here, and a collection changes no contents.
  branch line s t hst := by
    obtain ⟨s', hs', passed⟩ := branch_passed hhost line s hst.host.left
    obtain ⟨t', ht', passed'⟩ := branch_passed hhost' line t hst.host.right
    rw [hs', ht']
    refine .ok trivial ⟨?_, ?_, passed.host, passed'.host, ?_⟩
    · exact (passed.runtime.trans hst.runtime).trans passed'.runtime.symm
    · rw [passed.frame, hst.frame, passed'.frame]
    · rw [TracesResemble, passed.trace, passed'.trace]
      exact hst.host.traces

end Evaluation

namespace Runtime

variable {σ τ : Type} {host : Host σ} {state : σ} {host' : Host τ} {state' : τ}

def retuned (r : Runtime) (chunkSize : Nat) (tellsBranches : Bool) : Runtime :=
  { r.setChunkSize chunkSize with tellsBranches }

theorem contents_retuned (r : Runtime) (chunkSize : Nat) (tellsBranches : Bool) :
    (r.retuned chunkSize tellsBranches).contents = r.contents :=
  rfl

/-- Runs of a program that differ in the books of the heap, in whether the host is told about
loops, and in when it asks for a collection come to the same: to the same end, with the same
variables, options, memory and objects, and with the same reports, output and wishes to quit but
for the statistics that are printed of collections. -/
theorem execute_resembles (hhost : host.NeverAborts state) (hhost' : host'.NeverAborts state')
    (hfile : host.file = host'.file) {r r' : Runtime} (hr : r.contents = r'.contents) (fuel : Nat)
    (filename : Option String) (p : Program) :
    let run := r.execute host.traced fuel filename p (state, [])
    let run' := r'.execute host'.traced fuel filename p (state', [])
    run.1 = run'.1 ∧ run.2.1.contents = run'.2.1.contents ∧
      TracesResemble run.2.2.2 run'.2.2.2 := by
  intro run run'
  have started : Host.Resemble host state host' state' (state, []) (state', []) := .start .nil
  obtain ⟨houtcome, hruntime, hhosts⟩ :=
    (Evaluation.sameContents_coupling hhost hhost' hfile).execute hr started fuel filename p
  exact ⟨houtcome, hruntime, hhosts.traces⟩

def collecting : Program :=
  ⟨[.for_ (some (.declare .var [.mk "goesOn" (some (.bool true default)) default] default))
      (some (.name "goesOn" default))
      (some (.assign none (.name "goesOn" default) (.bool false default) default))
      (.expr (.call (.name "gc" default) [] default) default) default], ["goesOn"]⟩

theorem execute_resembles_collecting :
    let run := (forShell .bare).execute recorder.traced 20 none collecting (.start ⟨none, none⟩, [])
    let run' := ((forShell .bare).retuned 1 true).execute recorder.traced 20 none collecting
      (.start ⟨none, some 1⟩, [])
    run'.2.2.2.any (· matches .branch _ _ .collect) = true ∧
      run.1 = run'.1 ∧ run.2.1.contents = run'.2.1.contents ∧
        TracesResemble run.2.2.2 run'.2.2.2 :=
  ⟨by decide +kernel, execute_resembles (recorder_neverAborts none) (recorder_neverAborts (some 1))
    rfl ((forShell .bare).contents_retuned 1 true).symm 20 none collecting⟩

end Runtime

end ScriptShell
