import ScriptShell.Host.Recording
import ScriptShell.Proofs.Parser.Places
import ScriptShell.Proofs.Report.Place

namespace ScriptShell

def ParseWarning.report (w : ParseWarning) (filename : Option String) (source : String) : Report :=
  (Report.warning w.remark.message w.remark.isStrict).inSource filename source w.place

theorem ParseWarning.severity_report (w : ParseWarning) (filename : Option String)
    (source : String) :
    (w.report filename source).severity = .strictWarning ↔ w.remark.isStrict = true := by
  change (if w.remark.isStrict = true then Severity.strictWarning else .warning) = _ ↔ _
  split <;> simp_all

def ParseError.report (e : ParseError) (filename : Option String) (source : String) : Report :=
  (Report.error e.fault.message).inSource filename source e.place

def Host.warned {σ : Type} (host : Host σ) (filename : Option String) (source : String)
    (warnings : List ParseWarning) (state : σ) : σ :=
  warnings.foldl (fun state w => host.report (w.report filename source) state) state

/-- What there is to report about a source, each with the place that it is about. -/
def diagnostics (filename : Option String) (source : String) :
    Except ParseError (Program × List ParseWarning) → List (Location × Report)
  | .ok (_, warnings) => warnings.map fun w => (w.place, w.report filename source)
  | .error e => [(e.place, e.report filename source)]

theorem diagnostics_pointsAt (options : ParseOptions) (filename : Option String)
    (source : String) : ∀ d ∈ diagnostics filename source (Program.ofSource options source),
      ∃ cut, d.2.PointsAt (max 1 options.startLine) source d.1 cut := by
  have hsited := Program.ofSource_sited options source
  cases hparsed : Program.ofSource options source with
  | ok parsed =>
    rw [hparsed] at hsited
    refine List.forall_mem_map.mpr fun w hw => ?_
    exact Report.exists_pointsAt _ filename source (hsited.2 w hw)
  | error e =>
    rw [hparsed] at hsited
    refine List.forall_mem_singleton.mpr ?_
    exact Report.exists_pointsAt _ filename source hsited

namespace Runtime

variable {σ : Type}

theorem compile_eq (r : Runtime) (host : Host σ) (filename : Option String) (startLine : Nat)
    (source : String) (state : σ) :
    r.compile host filename startLine source state =
      ((Program.ofSource (r.parseOptions startLine) source).map (·.1),
        (diagnostics filename source (Program.ofSource (r.parseOptions startLine) source)).foldl
          (fun state d => host.report d.2 state) state) := by
  unfold compile
  cases Program.ofSource (r.parseOptions startLine) source with
  | ok parsed =>
    refine Prod.ext rfl ?_
    rw [diagnostics, List.foldl_map]
    rfl
  | error e => rfl

/-- Compiling hands over reports of everything there is to report about the source, in order, and
every one of them points at its place. -/
theorem compile_pointsAt (r : Runtime) (host : Host σ) (filename : Option String)
    (startLine : Nat) (source : String) (state : σ) :
    let found := diagnostics filename source (Program.ofSource (r.parseOptions startLine) source)
    (r.compile host filename startLine source state).2 =
        found.foldl (fun state d => host.report d.2 state) state ∧
      ∀ d ∈ found, ∃ cut, d.2.PointsAt (max 1 startLine) source d.1 cut := by
  intro found
  refine ⟨congrArg Prod.snd (r.compile_eq host filename startLine source state), ?_⟩
  exact diagnostics_pointsAt (r.parseOptions startLine) filename source

example : (((initial .bare).compile (Recording.host fun _ => .failed .notFound) none 7
      "é;\n'é😀' + ;\n" (.start ⟨none, none⟩)).2.reports.map
    fun r => (r.line, r.lineBuffer, r.tokenOffset)) = [(8, some "'é😀' + ;\n", 11)] := by
  decide +kernel

end Runtime

end ScriptShell
