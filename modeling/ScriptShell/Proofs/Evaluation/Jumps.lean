import ScriptShell.Proofs.Evaluation.Restoration
import ScriptShell.Proofs.Evaluation.Simulation
import ScriptShell.Proofs.Library.Startup
import ScriptShell.Proofs.Program.Accepted

namespace ScriptShell

def Program.Accepted (p : Program) : Prop :=
  ∃ options source warnings, ofSource options source = .ok (p, warnings)

/-- A part of a program that can be read from a source. -/
def Part.Accepted (q : Part) : Prop :=
  ∃ p : Program, p.Accepted ∧ (Part.program p).Contains q

theorem Program.Accepted.part {p : Program} (h : p.Accepted) : (Part.program p).Accepted :=
  ⟨p, h, .refl⟩

theorem hereditary_accepted : Hereditary Part.Accepted := by
  rintro q r hr ⟨p, hp, hq⟩
  exact ⟨p, hp, hq.tail hr⟩

theorem Part.Accepted.fit {q : Part} (h : q.Accepted) : q.Fit := by
  obtain ⟨p, ⟨options, source, warnings, hsource⟩, hq⟩ := h
  exact Program.wellFormed_of_ofSource hsource q hq

/-- Whether something happens that the parser is to rule out. -/
def Moment.isAmiss : Moment → Bool
  | .strayJump | .noTarget => true
  | _ => false

/-- A trace of a run in which nothing is amiss. -/
def Event.isAmiss : Event → Bool
  | .moment m _ _ => m.isAmiss
  | _ => false

namespace Evaluation

variable {σ : Type}

theorem Occurs.isAmiss {m : Moment} (h : Occurs Part.Accepted m) : m.isAmiss = false := by
  cases m with
  | strayJump =>
    rcases h with ⟨f, j, hf, hj, hne⟩ | ⟨p, j, hp, hj⟩
    · exact (hne (hf.fit j hj)).elim
    · rw [hp.fit j] at hj
      cases hj
  | noTarget =>
    obtain ⟨e, he, htarget⟩ := h
    have fit : e.isTarget = true := he.fit
    rw [fit] at htarget
    cases htarget
  | _ => rfl

structure Agreeing (s : State (σ × List Event)) : Prop where
  definedIn : s.runtime.heap.DefinedIn Part.Accepted
  inOrder : ∀ e ∈ s.host.2, e.isAmiss = false

theorem Agreeing.tell {s t : State (σ × List Event)} {e : Event} (h : Agreeing s)
    (hheap : t.runtime.heap = s.runtime.heap) (htrace : t.host.2 = e :: s.host.2)
    (he : e.isAmiss = false) : Agreeing t := by
  refine ⟨?_, ?_⟩
  · rw [hheap]
    exact h.definedIn
  · rw [htrace]
    exact List.forall_mem_cons.mpr ⟨he, h.inOrder⟩

theorem Agreeing.notified {s : State (σ × List Event)} (h : Agreeing s) (host : Host σ)
    (line : Nat) : Agreeing (s.notified host.traced line) := by
  have announced : Agreeing (s.observed host.traced .notifies) := h.tell rfl rfl rfl
  exact announced.tell rfl rfl rfl

def Contract.agreeing (σ : Type) : Contract (σ × List Event) where
  good := Agreeing
  ends _ := Agreeing
  moves _ _ _ := True

theorem agreeing_invariant (host : Host σ) :
    Contract.Invariant Agreeing Part.Accepted host.traced where
  definedIn h := h.definedIn
  step hg h := ⟨hg.functions _ _ h.definedIn, h.inOrder⟩
  inFrame _ h := ⟨h.definedIn, h.inOrder⟩
  report _ _ h := h.tell rfl rfl rfl
  write _ h := h.tell rfl rfl rfl
  quitted {s} code h := by
    have announced : Agreeing (s.observed host.traced .quits) := h.tell rfl rfl rfl
    exact announced.tell rfl rfl rfl
  told hm h := h.tell rfl rfl hm.isAmiss
  notified line h := h.notified host line
  entered h := h.tell rfl rfl rfl
  left h := h.tell rfl rfl rfl
  hereditary := hereditary_accepted
  accepted h := Program.Accepted.part ⟨_, _, _, h⟩

theorem Contract.agreeing_keeps (host : Host σ) :
    (agreeing σ).Keeps Part.Accepted host.traced :=
  (agreeing_invariant host).keeps

theorem statement_normal {host : Host σ} {p : Program} (hp : p.Accepted) {s : Stmt}
    (hs : s ∈ p.body) {n : Nat} {state t : State σ} {c : Completion}
    (hrun : statement host n s state = .ok c t) : c = .normal := by
  have met := (alike ((Contract.restoring_keeps host).likeness 0) n ()).statement s trivial trivial
    state trivial
  change Contract.Met _ _ _ _ (statement host n s state) at met
  rw [hrun] at met
  have fit : ∀ j, emitsAny j p.body = false := hp.part.fit
  have silent (j : Jump) (hj : s.emits j = true) : False := by
    have emits := emitsAny_of_mem hs hj
    rw [fit j] at emits
    cases emits
  cases c with
  | normal => rfl
  | return_ v => exact (silent .return_ (met.1 .return_ rfl)).elim
  | break_ => exact (silent .break_ (met.1 .break_ rfl)).elim
  | continue_ => exact (silent .continue_ (met.1 .continue_ rfl)).elim

theorem body_returns {host : Host σ} {f : FunctionDef} (hf : (Part.function f).Accepted) {n : Nat}
    {state t : State σ} {c : Completion} (hrun : statements host n f.body state = .ok c t) :
    c = .normal ∨ ∃ v, c = .return_ v := by
  have met := (alike ((Contract.restoring_keeps host).likeness 0) n ()).statements f.body
    (fun _ _ => trivial) (fun _ _ => trivial) state trivial
  change Contract.Met _ _ _ _ (statements host n f.body state) at met
  rw [hrun] at met
  have fit : ∀ j, emitsAny j f.body = true → j = .return_ := hf.fit
  cases c with
  | normal => exact .inl rfl
  | return_ v => exact .inr ⟨v, rfl⟩
  | break_ => cases fit .break_ (met.1 .break_ rfl)
  | continue_ => cases fit .continue_ (met.1 .continue_ rfl)

/-- What a program may do that was read from a source: its statements end normally, the functions
in it end by returns at most, and while it runs no jump and no assignment gets anywhere that the
parser rules out, if that is so for the functions that it finds; these are accepted afterwards
too. -/
theorem accepted_agrees (host : Host σ) {options : ParseOptions} {source : String} {p : Program}
    {warnings : List ParseWarning} (hsource : Program.ofSource options source = .ok (p, warnings)) :
    (∀ s ∈ p.body, ∀ n state c t, statement host n s state = .ok c t → c = .normal) ∧
    (∀ f, (Part.function f).Accepted → ∀ n state c t, statements host n f.body state = .ok c t →
      c = .normal ∨ ∃ v, c = .return_ v) ∧
    ∀ (r : Runtime) fuel filename state, r.heap.DefinedIn Part.Accepted →
      (∀ e ∈ (r.execute host.traced fuel filename p (state, [])).2.2.2, e.isAmiss = false) ∧
      (r.execute host fuel filename p state).2.1.heap.DefinedIn Part.Accepted := by
  have hp : p.Accepted := ⟨options, source, warnings, hsource⟩
  refine ⟨?_, ?_, ?_⟩
  · intro s hs n state c t hrun
    exact statement_normal hp hs hrun
  · intro f hf n state c t hrun
    exact body_returns hf hrun
  · intro r fuel filename state hheap
    obtain ⟨outcome, t, hrun, met⟩ :=
      (Contract.agreeing_keeps host).execute
        (fun _ h => ⟨h.tell rfl rfl rfl, trivial⟩) r fuel filename p (state, []) hp.part
        ⟨hheap, fun e he => nomatch he⟩
    -- Whatever the end is, the contract holds of the state that the run left.
    have agreeing : Agreeing t := by
      cases outcome with
      | value v => exact met.2.1
      | stopped e => exact met.1
    rw [Runtime.execute_traced host r fuel filename p state [], hrun]
    exact ⟨agreeing.inOrder, agreeing.definedIn⟩

def loopSource : String :=
  "function f(x) \x7b if (x) return x; \x7d while (f(true)) \x7b break; \x7d"

theorem accepted_agrees_loopSource : ∃ p warnings,
    Program.ofSource {} loopSource = .ok (p, warnings) ∧
    (∀ e ∈ ((Runtime.forShell .bare).execute recorder.traced plenty none p
        (.start ⟨none, none⟩, [])).2.2.2, e.isAmiss = false) ∧
    ((Runtime.forShell .bare).execute recorder plenty none p
      (.start ⟨none, none⟩)).2.1.heap.DefinedIn Part.Accepted := by
  have accepted : (Program.ofSource {} loopSource).toBool = true := by decide +kernel
  cases hsource : Program.ofSource {} loopSource with
  | ok read =>
    obtain ⟨p, warnings⟩ := read
    refine ⟨p, warnings, rfl, ?_⟩
    exact (accepted_agrees recorder hsource).2.2 (.forShell .bare) plenty none _
      (Runtime.allFunctions_forShell _)
  | error e =>
    rw [hsource] at accepted
    cases accepted

end Evaluation

end ScriptShell
