import ScriptShell.Proofs.Parser.Uniform

namespace ScriptShell.Parser

variable {α β : Type}

def Context.lax (c : Context) : Context :=
  { c with strict := false }

def laxWarnings (warnings : List ParseWarning) : List ParseWarning :=
  warnings.filter fun w => !w.remark.isStrict

def State.lax (s : State) : State :=
  { s with warnings := laxWarnings s.warnings }

theorem State.lax_warn (c : Context) (s : State) (remark : Remark) (place : Location) :
    s.lax.warn c.lax remark place = (s.warn c remark place).lax := by
  unfold State.warn
  cases hremark : remark.isStrict <;> cases c.strict <;>
    simp [State.lax, Context.lax, laxWarnings, hremark]

theorem State.lax_declareVar (c : Context) (s : State) (name : String) (place : Location) :
    s.lax.declareVar c.lax name place = (s.declareVar c name place).lax := by
  have hscopes : s.lax.varScopes = s.varScopes := rfl
  unfold State.declareVar
  rw [hscopes]
  cases s.varScopes with
  | nil => rfl
  | cons names outer =>
    dsimp only
    split
    · exact State.lax_warn c s _ _
    · rfl

def Laxly (P : α → Prop) (x : Parser α) : Prop :=
  ∀ c s, Run x c s (fun a t => P a ∧ x c.lax s.lax = .ok a t.lax)
    fun e t => x c.lax s.lax = .error e t.lax

namespace Laxly

variable {P : α → Prop} {Q : β → Prop} {x : Parser α} {f : α → Parser β}

protected theorem bind (hx : Laxly P x) (hf : ∀ a, P a → Laxly Q (f a)) : Laxly Q (x >>= f) := by
  intro c s
  refine Run.bind_iff.mpr ((hx c s).imp (fun a t ⟨ha, hlax⟩ => ?_) fun e t hlax => ?_)
  · rw [bind_ok hlax]
    exact hf a ha c t
  · exact bind_error hlax

/-- A parser that runs another one in a changed state, where strict checking makes no difference
to the changes. -/
theorem inside {y : Parser β} {enter : State → State} {leave : State → State → State}
    {result : α → State → β}
    (hy : ∀ c s, y c s = match x c (enter s) with
      | .ok a t => .ok (result a t) (leave s t)
      | .error e t => .error e t)
    (henter : ∀ s, enter s.lax = (enter s).lax)
    (hleave : ∀ s t, leave s.lax t.lax = (leave s t).lax)
    (hresult : ∀ a t, result a t.lax = result a t) (hx : Laxly P x)
    (hP : ∀ a t, P a → Q (result a t)) : Laxly Q y := by
  intro c s
  have hrun := hx c (enter s)
  unfold Run at hrun ⊢
  rw [hy, hy, henter]
  cases hcase : x c (enter s) with
  | ok a t =>
    rw [hcase] at hrun
    refine ⟨hP a t hrun.1, ?_⟩
    rw [hrun.2]
    dsimp only
    rw [hresult, hleave]
  | error e t =>
    rw [hcase] at hrun
    dsimp only at hrun ⊢
    rw [hrun]

theorem uniform : Uniform (fun _ => True) Laxly where
  pure ha _ _ := ⟨ha, rfl⟩
  bind := Laxly.bind
  peek _ _ := ⟨trivial, rfl⟩
  here _ _ := ⟨trivial, rfl⟩
  newlineBefore _ _ := ⟨trivial, rfl⟩
  atEnd _ _ := ⟨trivial, rfl⟩
  skip _ _ := ⟨trivial, rfl⟩
  failAt _ _ _ _ _ := rfl
  failHere _ _ _ := rfl
  warn remark place _ c s := by
    rw [Run.iff_ok (warn_eq c s remark place), warn_eq, State.lax_warn]
    exact ⟨trivial, rfl⟩
  declareVar name place _ c s := by
    rw [Run.iff_ok (declareVar_eq c s name place), declareVar_eq, State.lax_declareVar]
    exact ⟨trivial, rfl⟩
  depths _ hf c s := Run.bind_iff.mpr (hf s.loopDepth s.functionDepth c s)
  inLoop {α P x} hx := hx.inside (inLoop_eq · · x) (fun _ => rfl) (fun _ _ => rfl)
    (fun _ _ => rfl) fun _ _ ha => ha
  inFunction {α P x} hx := hx.inside (inFunction_eq · · x) (fun _ => rfl) (fun _ _ => rfl)
    (fun _ _ => rfl) fun _ _ ha => ha

end Laxly

end ScriptShell.Parser

namespace ScriptShell.Program

def laxly (r : Program × List ParseWarning) : Program × List ParseWarning :=
  (r.1, Parser.laxWarnings r.2)

theorem ofTokens_lax (strict : Bool) (ts : Tokens) :
    ofTokens false ts = (ofTokens strict ts).map laxly := by
  have hrun := Parser.Laxly.uniform.statements (Parser.depthFor ts.items.length)
    (contextOf strict ts) (stateOf ts)
  unfold Parser.Run at hrun
  cases hcase : Parser.statements (Parser.depthFor ts.items.length) (contextOf strict ts)
      (stateOf ts) with
  | ok body t =>
    rw [hcase] at hrun
    rw [(ofTokens_eq_ok (p := ⟨body, (t.varScopes.headD []).reverse⟩)).mpr ⟨t, hcase, rfl, rfl⟩]
    exact ofTokens_eq_ok.mpr ⟨t.lax, hrun.2, rfl, List.filter_reverse⟩
  | error e t =>
    rw [hcase] at hrun
    rw [ofTokens_eq_error.mpr ⟨t, hcase⟩]
    exact ofTokens_eq_error.mpr ⟨t.lax, hrun⟩

theorem ofSource_lax (options : ParseOptions) (source : String) :
    ofSource { options with strict := false } source = (ofSource options source).map laxly := by
  unfold ofSource
  dsimp only
  cases Tokens.ofSource options.letKeywords (max 1 options.startLine) source with
  | ok ts => exact ofTokens_lax options.strict ts
  | error e => rfl

end ScriptShell.Program
