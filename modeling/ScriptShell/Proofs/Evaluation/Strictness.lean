import ScriptShell.Proofs.Compilation
import ScriptShell.Proofs.Evaluation.Coupling
import ScriptShell.Proofs.Host.History
import ScriptShell.Proofs.Parser.Strictness

namespace ScriptShell

/-- What is seen of an event when checking is not strict. -/
def Event.lax? : Event → Option Event
  | .report r => if r.severity = .strictWarning then none else some (.report r)
  | .moment m runtime frame => some (.moment m (runtime.withStrict false) frame)
  | e => some e

/-- The trace that a run leaves when checking is not strict. -/
def laxTrace (trace : List Event) : List Event :=
  trace.filterMap Event.lax?

/-- What of a request may make a difference to the answers of a host that ignores reports. -/
def Request.heard? : Request → Option Request
  | .report _ => none
  | .observe m runtime frame => some (.observe m (runtime.withStrict false) frame)
  | request => some request

/-- The answers of the host do not depend on the reports that it was handed, nor on whether
checking was strict at the moments it was told of. -/
def Host.IgnoresReports {σ : Type} (host : Host σ) (state : σ) : Prop :=
  ∀ history history', history.filterMap Request.heard? = history'.filterMap Request.heard? →
    ∀ filename line, (host.onBranch filename line (host.after state history)).1 =
      (host.onBranch filename line (host.after state history')).1

theorem laxTrace_strictWarning {r : Report} (hr : r.severity = .strictWarning)
    (trace : List Event) : laxTrace (.report r :: trace) = laxTrace trace :=
  List.filterMap_cons_none (if_pos hr)

theorem laxTrace_report {r : Report} (hr : r.severity ≠ .strictWarning) (trace : List Event) :
    laxTrace (.report r :: trace) = .report r :: laxTrace trace :=
  List.filterMap_cons_some (if_neg hr)

theorem heard_laxTrace (trace : List Event) :
    ((laxTrace trace).map Event.request).filterMap Request.heard? =
      (trace.map Event.request).filterMap Request.heard? := by
  induction trace with
  | nil => rfl
  | cons e trace ih =>
    cases e with
    | report r =>
      by_cases hr : r.severity = .strictWarning
      · rw [laxTrace_strictWarning hr]
        exact ih
      · rw [laxTrace_report hr]
        exact ih
    | branch | write | quit | moment => exact congrArg (List.cons _) ih

structure StrictAndLax (r r' : Runtime) : Prop where
  strict : r.strict = true
  lax : r' = r.withStrict false

theorem strictAndLax (r : Runtime) : StrictAndLax (r.withStrict true) (r.withStrict false) :=
  ⟨rfl, rfl⟩

abbrev Host.AlongsideLax {σ : Type} (host : Host σ) (state : σ) :
    σ × List Event → σ × List Event → Prop :=
  Host.Alongside host state host state fun trace trace' => trace' = laxTrace trace

namespace Host.AlongsideLax

variable {σ : Type} {host : Host σ} {state : σ} {p q : σ × List Event}

theorem strictWarning (h : host.AlongsideLax state p q) {r : Report}
    (hr : r.severity = .strictWarning) : host.AlongsideLax state (host.traced.report r p) q :=
  h.addLeft (.report r) (by rw [laxTrace_strictWarning hr, h.traces])

theorem told (h : host.AlongsideLax state p q) {e e' : Event} (he : e.lax? = some e') :
    host.AlongsideLax state (host.serve e.request p.1, e :: p.2)
      (host.serve e'.request q.1, e' :: q.2) :=
  h.add e e' (by rw [h.traces]; exact (List.filterMap_cons_some he).symm)

theorem report (h : host.AlongsideLax state p q) {r : Report}
    (hr : r.severity ≠ .strictWarning) :
    host.AlongsideLax state (host.traced.report r p) (host.traced.report r q) :=
  h.told (e := .report r) (if_neg hr)

theorem observe (h : host.AlongsideLax state p q) {r r' : Runtime} (m : Moment) (f : Frame)
    (hr : StrictAndLax r r') :
    host.AlongsideLax state (host.traced.observe m r f p) (host.traced.observe m r' f q) := by
  rw [hr.lax]
  exact h.told (e := .moment m r f) rfl

theorem warned (h : host.AlongsideLax state p q) (filename : Option String) (source : String)
    (warnings : List ParseWarning) :
    host.AlongsideLax state (host.traced.warned filename source warnings p)
      (host.traced.warned filename source (Parser.laxWarnings warnings) q) := by
  induction warnings generalizing p q with
  | nil => exact h
  | cons w warnings ih =>
    have hseverity := w.severity_report filename source
    cases hw : w.remark.isStrict with
    | true =>
      have hskip : Parser.laxWarnings (w :: warnings) = Parser.laxWarnings warnings :=
        List.filter_cons_of_neg (by simp [hw])
      rw [hskip]
      exact ih (h.strictWarning (hseverity.mpr hw))
    | false =>
      have hkeep : Parser.laxWarnings (w :: warnings) = w :: Parser.laxWarnings warnings :=
        List.filter_cons_of_pos (by simp [hw])
      rw [hkeep]
      exact ih (h.report fun hr => by simp [hseverity.mp hr] at hw)

end Host.AlongsideLax

namespace Evaluation

variable {σ : Type} {host : Host σ} {state : σ}

theorem reportWarnings_apply (host : Host σ) (warnings : List ParseWarning) (source : String)
    (filename : Option String) (s : State σ) :
    reportWarnings host warnings source filename s =
      .ok () (s.tell (host.warned filename source warnings)) := by
  induction warnings generalizing s with
  | nil => rfl
  | cons w warnings ih => exact ih (s.tell (host.report (w.report filename source)))

theorem unseen_strictAndLax : Unseen StrictAndLax where
  result f hg hr := by rw [hr.lax, hg.strict]
  runtime {α g r r'} f hg hr := by
    have hstrict : r.withStrict true = r := by rw [← hr.strict]; rfl
    have hkeeps := congrArg (fun out => out.2.1.strict) (hg.strict r f true)
    rw [hstrict] at hkeeps
    exact ⟨hkeeps, by rw [hr.lax, hg.strict]⟩
  frame f hg hr := by rw [hr.lax, hg.strict]

theorem readNested_lax (r : Except ParseError (Program × List ParseWarning))
    (source filename : String) :
    CoupledFrom StrictAndLax (host.AlongsideLax state) .expression any
      (readNested host.traced source filename r)
      (readNested host.traced source filename (r.map Program.laxly)) := by
  cases r with
  | ok r =>
    intro s t hst
    change SameEnd _ any ((do reportWarnings host.traced r.2 source (some filename); return r.1) s)
      ((do
        reportWarnings host.traced (Parser.laxWarnings r.2) source (some filename)
        return r.1) t)
    rw [bind_apply, bind_apply, reportWarnings_apply, reportWarnings_apply]
    exact .ok trivial ⟨hst.runtime, hst.frame, hst.host.warned _ source r.2⟩
  | error e =>
    have sequencing := unseen_strictAndLax.sequencing (H := host.AlongsideLax state)
    exact sequencing.bind (sequencing.newError _ _) fun v _ =>
      .throwAt (fun m f hr h => h.observe m f hr) v _ _

theorem answer_lax (hhost : host.IgnoresReports state) {p q : σ × List Event}
    (h : host.AlongsideLax state p q) (filename : Option String) (line : Nat) :
    (host.onBranch filename line p.1).1 = (host.onBranch filename line q.1).1 := by
  rw [h.left, h.right, h.traces]
  exact hhost _ _ (heard_laxTrace p.2).symm filename line

theorem notified_lax (hhost : host.IgnoresReports state) {s t : State (σ × List Event)}
    (hst : Coupled StrictAndLax (host.AlongsideLax state) s t) (line : Nat) :
    Coupled StrictAndLax (host.AlongsideLax state) (s.notified host.traced line)
      (t.notified host.traced line) := by
  have htold := hst.observed (fun m f hr h => h.observe m f hr) .notifies
  refine ⟨htold.runtime, htold.frame, ?_⟩
  have hanswer := answer_lax hhost htold.host t.frame.filename line
  rw [State.notified, State.notified, hst.frame]
  refine htold.host.add (.branch t.frame.filename line
    (host.onBranch t.frame.filename line (s.observed host.traced .notifies).host.1).1)
    (.branch t.frame.filename line
      (host.onBranch t.frame.filename line (t.observed host.traced .notifies).host.1).1) ?_
  rw [hanswer, htold.host.traces]
  rfl

theorem strictAndLax_branch (hhost : host.IgnoresReports state) (line : Nat) :
    CoupledFrom StrictAndLax (host.AlongsideLax state) .statement any (branch host.traced line)
      (branch host.traced line) := by
  intro s t hst
  have htells : t.runtime.tellsBranches = s.runtime.tellsBranches := by
    rw [hst.runtime.lax]
    rfl
  cases ht : s.runtime.tellsBranches with
  | false =>
    rw [branch_silent _ line s ht, branch_silent _ line t (htells.trans ht)]
    exact .ok trivial hst
  | true =>
    have hnotified := notified_lax hhost hst line
    have htold := hst.observed (fun m f hr h => h.observe m f hr) .notifies
    have hanswer : s.answer host.traced line = t.answer host.traced line := by
      rw [State.answer, State.answer, hst.frame]
      exact answer_lax hhost htold.host _ line
    rw [branch_apply _ line s ht, branch_apply _ line t (htells.trans ht), hanswer]
    cases t.answer host.traced line with
    | continue_ => exact .ok trivial hnotified
    | collect =>
      exact unseen_strictAndLax.step (l := .statement) isStep_maybeCollect.naming _ _ hnotified
    | abort => exact .error _ hnotified

theorem strictAndLax_coupling (hhost : host.IgnoresReports state) :
    Coupling StrictAndLax (host.AlongsideLax state) host.traced host.traced where
  toUnseen := unseen_strictAndLax
  report r hr h := h.report (by rw [hr]; decide)
  write text h := h.told (e := .write text) rfl
  requestQuit code h := h.told (e := .quit code) rfl
  observe m f hr h := h.observe m f hr
  file := rfl
  -- The only step at which one of the two runs tells more than the other.
  strictWarning message s t hst := by
    rw [strictWarning_apply, strictWarning_apply, if_pos hst.runtime.strict, if_neg]
    · exact .ok trivial ⟨hst.runtime, hst.frame, hst.host.strictWarning rfl⟩
    · rw [hst.runtime.lax]
      exact Bool.false_ne_true
  statistics s t hst := by
    have hheap : t.runtime.heap = s.runtime.heap := by rw [hst.runtime.lax]; rfl
    have hmachine : t.runtime.machine = s.runtime.machine := by rw [hst.runtime.lax]; rfl
    rw [writeStatistics_apply, writeStatistics_apply, hheap, hmachine]
    refine .ok trivial ⟨⟨hst.runtime.strict, ?_⟩, hst.frame, hst.host.told (e := .write _) rfl⟩
    change ({ t.runtime with heap := _ } : Runtime) = _
    rw [hst.runtime.lax]
    rfl
  compileNested source filename s t hst := by
    have hoptions : t.runtime.parseOptions 1 =
        { s.runtime.parseOptions 1 with strict := false } := by
      rw [hst.runtime.lax]
      rfl
    rw [compileNested_apply, compileNested_apply, hoptions, Program.ofSource_lax]
    exact readNested_lax _ source filename s t hst
  branch := strictAndLax_branch hhost

end Evaluation

namespace Recording

theorem answer_after (file : String → FileState) (record : Recording) (history : List Request) :
    (((Recording.host file).after record history).policy,
        ((Recording.host file).after record history).branches) =
      (((Recording.host file).after record (history.filterMap Request.heard?)).policy,
        ((Recording.host file).after record (history.filterMap Request.heard?)).branches) := by
  induction history with
  | nil => rfl
  | cons request history ih =>
    cases request with
    | branch => exact congrArg (fun key : BranchPolicy × Nat => (key.1, key.2 + 1)) ih
    | report | write | quit | observe => exact ih

theorem host_ignoresReports (file : String → FileState) (record : Recording) :
    (Recording.host file).IgnoresReports record := by
  intro history history' hsame filename line
  have hkey := answer_after file record history
  rw [hsame, ← answer_after file record history'] at hkey
  exact congrArg (fun key : BranchPolicy × Nat => BranchPolicy.answer key.1 (key.2 + 1)) hkey

end Recording

namespace Runtime

variable {σ : Type} {host : Host σ} {state : σ}

theorem compile_lax (r : Runtime) {p q : σ × List Event} (h : host.AlongsideLax state p q)
    (filename : Option String) (startLine : Nat) (source : String) :
    ((r.withStrict false).compile host.traced filename startLine source q).1 =
        ((r.withStrict true).compile host.traced filename startLine source p).1 ∧
      host.AlongsideLax state
        ((r.withStrict true).compile host.traced filename startLine source p).2
        ((r.withStrict false).compile host.traced filename startLine source q).2 := by
  have hoptions : (r.withStrict false).parseOptions startLine =
      { (r.withStrict true).parseOptions startLine with strict := false } := rfl
  unfold compile
  rw [hoptions, Program.ofSource_lax]
  cases Program.ofSource ((r.withStrict true).parseOptions startLine) source with
  | ok parsed => exact ⟨rfl, h.warned filename source parsed.2⟩
  | error e => exact ⟨rfl, h.report nofun⟩

/-- A unit comes to the same whether or not checking is strict: it is accepted as the same program
or fails in the same way, and it runs to the same end with the same output, wishes to quit,
variables and objects. What the host is told is the same but for the strict warnings, which only
strict checking makes. -/
theorem unit_withoutStrict (hhost : host.IgnoresReports state) (r : Runtime) (fuel startLine : Nat)
    (filename : Option String) (source : String) :
    let strict := (r.withStrict true).compile host.traced filename startLine source (state, [])
    let lax := (r.withStrict false).compile host.traced filename startLine source (state, [])
    lax.1 = strict.1 ∧ lax.2.2 = laxTrace strict.2.2 ∧
      ∀ p, strict.1 = .ok p →
        let strictRun := (r.withStrict true).execute host.traced fuel filename p strict.2
        let laxRun := (r.withStrict false).execute host.traced fuel filename p lax.2
        laxRun.1 = strictRun.1 ∧ laxRun.2.1 = strictRun.2.1.withStrict false ∧
          laxRun.2.2.2 = laxTrace strictRun.2.2.2 := by
  intro strict lax
  obtain ⟨hsame, hcompiled⟩ := r.compile_lax (.start rfl) filename startLine source
  refine ⟨hsame, hcompiled.traces, fun p _ => ?_⟩
  obtain ⟨houtcome, hruntime, hhosts⟩ := (Evaluation.strictAndLax_coupling hhost).execute
    (strictAndLax r) hcompiled fuel filename p
  exact ⟨houtcome.symm, hruntime.lax, hhosts.traces⟩

def redeclaring : String :=
  "var a; var a; b = a;"

theorem compile_redeclaring : ∃ p, (((initial .bare).withStrict true).compile recorder.traced none 1
    redeclaring (.start ⟨none, none⟩, [])).1 = .ok p := by
  have accepted : (((initial .bare).withStrict true).compile recorder.traced none 1 redeclaring
      (.start ⟨none, none⟩, [])).1.toBool = true := by decide +kernel
  revert accepted
  generalize (((initial .bare).withStrict true).compile recorder.traced none 1 redeclaring
      (.start ⟨none, none⟩, [])).1 = r
  cases r with
  | ok p => exact fun _ => ⟨p, rfl⟩
  | error e => exact nofun

theorem unit_withoutStrict_redeclaring : ∃ p,
    let strict := ((initial .bare).withStrict true).compile recorder.traced none 1 redeclaring
      (.start ⟨none, none⟩, [])
    let lax := ((initial .bare).withStrict false).compile recorder.traced none 1 redeclaring
      (.start ⟨none, none⟩, [])
    strict.2.1.reports.length = 1 ∧ lax.1 = .ok p ∧ lax.2.2 = laxTrace strict.2.2 ∧
      let strictRun := ((initial .bare).withStrict true).execute recorder.traced 20 none p strict.2
      let laxRun := ((initial .bare).withStrict false).execute recorder.traced 20 none p lax.2
      laxRun.1 = strictRun.1 ∧ laxRun.2.1 = strictRun.2.1.withStrict false ∧
        laxRun.2.2.2 = laxTrace strictRun.2.2.2 := by
  have warned : (((initial .bare).withStrict true).compile recorder.traced none 1 redeclaring
      (.start ⟨none, none⟩, [])).2.1.reports.length = 1 := by decide +kernel
  obtain ⟨p, hp⟩ := compile_redeclaring
  have ignores : recorder.IgnoresReports (.start ⟨none, none⟩) := Recording.host_ignoresReports _ _
  have h := unit_withoutStrict ignores (initial .bare) 20 1 none redeclaring
  exact ⟨p, warned, h.1.trans hp, h.2.1, h.2.2 p hp⟩

end Runtime

end ScriptShell
