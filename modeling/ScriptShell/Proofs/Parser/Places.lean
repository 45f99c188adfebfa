import ScriptShell.Proofs.Parser.Uniform
import ScriptShell.Proofs.Token.Places

namespace ScriptShell.Parser

variable {ok : Location → Prop} {α β : Type}

structure State.Sited (ok : Location → Prop) (s : State) : Prop where
  rest : ∀ t ∈ s.rest, ok t.place
  warnings : ∀ w ∈ s.warnings, ok w.place

namespace State.Sited

variable {c : Context} {s : State}

theorem here (h : s.Sited ok) (hc : ok c.finish) : ok (s.here c) := by
  unfold State.here
  cases hrest : s.rest with
  | nil => exact hc
  | cons t rest => exact h.rest t (by simp [hrest])

theorem skip (h : s.Sited ok) : s.skip.Sited ok :=
  ⟨fun t ht => h.rest t (List.mem_of_mem_tail ht), h.warnings⟩

theorem warn (h : s.Sited ok) (remark : Remark) {place : Location} (hplace : ok place) :
    (s.warn c remark place).Sited ok := by
  unfold State.warn
  split
  · exact ⟨h.rest, List.forall_mem_cons.mpr ⟨hplace, h.warnings⟩⟩
  · exact h

theorem declareVar (h : s.Sited ok) (name : String) {place : Location} (hplace : ok place) :
    (s.declareVar c name place).Sited ok := by
  unfold State.declareVar
  split
  · split
    · exact h.warn _ hplace
    · exact ⟨h.rest, h.warnings⟩
  · exact h

end State.Sited

def Siting (ok : Location → Prop) (P : α → Prop) (x : Parser α) : Prop :=
  ∀ c s, ok c.finish → s.Sited ok →
    Run x c s (fun a t => P a ∧ t.Sited ok) fun e _ => ok e.place

namespace Siting

variable {P : α → Prop} {Q : β → Prop} {x : Parser α} {f : α → Parser β}

protected theorem bind (hx : Siting ok P x) (hf : ∀ a, P a → Siting ok Q (f a)) :
    Siting ok Q (x >>= f) := by
  intro c s hc hs
  refine Run.bind_iff.mpr ((hx c s hc hs).imp (fun a t ⟨ha, ht⟩ => ?_) fun e t he => he)
  exact hf a ha c t hc ht

/-- A parser that runs another one in a state with the same tokens and warnings. -/
theorem inside {y : Parser β} {enter : State → State} {leave : State → State → State}
    {result : α → State → β}
    (hy : ∀ c s, y c s = match x c (enter s) with
      | .ok a t => .ok (result a t) (leave s t)
      | .error e t => .error e t)
    (henter : ∀ s, s.Sited ok → (enter s).Sited ok)
    (hleave : ∀ s t, t.Sited ok → (leave s t).Sited ok) (hx : Siting ok P x)
    (hP : ∀ a t, P a → Q (result a t)) : Siting ok Q y := by
  intro c s hc hs
  have hrun := hx c (enter s) hc (henter s hs)
  unfold Run at hrun ⊢
  rw [hy]
  cases hcase : x c (enter s) with
  | ok a t =>
    rw [hcase] at hrun
    exact ⟨hP a t hrun.1, hleave s t hrun.2⟩
  | error e t =>
    rw [hcase] at hrun
    exact hrun

theorem uniform : Uniform ok (Siting ok) where
  pure ha _ _ _ hs := ⟨ha, hs⟩
  bind := Siting.bind
  peek _ _ _ hs := ⟨trivial, hs⟩
  here _ _ hc hs := ⟨hs.here hc, hs⟩
  newlineBefore _ _ _ hs := ⟨trivial, hs⟩
  atEnd _ _ _ hs := ⟨trivial, hs⟩
  skip _ _ _ hs := ⟨trivial, hs.skip⟩
  failAt _ _ hplace _ _ _ _ := hplace
  failHere _ _ _ hc hs := hs.here hc
  warn remark _ hplace c s _ hs :=
    (Run.iff_ok (warn_eq c s remark _)).mpr ⟨trivial, hs.warn remark hplace⟩
  declareVar name _ hplace c s _ hs :=
    (Run.iff_ok (declareVar_eq c s name _)).mpr ⟨trivial, hs.declareVar name hplace⟩
  depths _ hf c s hc hs := Run.bind_iff.mpr (hf s.loopDepth s.functionDepth c s hc hs)
  inLoop {_ _ x} hx := hx.inside (inLoop_eq · · x) (fun _ hs => ⟨hs.rest, hs.warnings⟩)
    (fun _ _ ht => ⟨ht.rest, ht.warnings⟩) fun _ _ ha => ha
  inFunction {_ _ x} hx := hx.inside (inFunction_eq · · x) (fun _ hs => ⟨hs.rest, hs.warnings⟩)
    (fun _ _ ht => ⟨ht.rest, ht.warnings⟩) fun _ _ ha => ha

end Siting

end ScriptShell.Parser

namespace ScriptShell.Program

variable {ok : Location → Prop}

def Sited (ok : Location → Prop) : Except ParseError (Program × List ParseWarning) → Prop
  | .ok (p, warnings) => (Part.program p).Sited ok ∧ ∀ w ∈ warnings, ok w.place
  | .error e => ok e.place

theorem ofTokens_sited (strict : Bool) {ts : Tokens} (hitems : ∀ t ∈ ts.items, ok t.place)
    (hfinish : ok ts.finish) : Sited ok (ofTokens strict ts) := by
  have hrun := Parser.Siting.uniform.statements (Parser.depthFor ts.items.length)
    (contextOf strict ts) (stateOf ts) hfinish ⟨hitems, nofun⟩
  unfold Parser.Run at hrun
  cases hcase : Parser.statements (Parser.depthFor ts.items.length) (contextOf strict ts)
      (stateOf ts) with
  | ok body t =>
    rw [hcase] at hrun
    rw [(ofTokens_eq_ok (p := ⟨body, (t.varScopes.headD []).reverse⟩)).mpr ⟨t, hcase, rfl, rfl⟩]
    refine ⟨.of_parts nofun (.body hrun.1), fun w hw => ?_⟩
    exact hrun.2.warnings w (List.mem_reverse.mp hw)
  | error e t =>
    rw [hcase] at hrun
    rw [ofTokens_eq_error.mpr ⟨t, hcase⟩]
    exact hrun

theorem ofSource_sited (options : ParseOptions) (source : String) :
    Sited ((Location.start (max 1 options.startLine)).IsIn source.toList)
      (ofSource options source) := by
  have hscan : Scan.Sited ((Location.start (max 1 options.startLine)).IsIn source.toList)
      (Scan.scanFrom options.letKeywords (.blank false) (.start (max 1 options.startLine))
        source.toList) := Scan.scanFrom_sited trivial fun _ h => h
  unfold ofSource Tokens.ofSource
  cases hts : Scan.scanFrom options.letKeywords (.blank false)
      (.start (max 1 options.startLine)) source.toList with
  | ok ts =>
    rw [hts] at hscan
    exact ofTokens_sited options.strict hscan.1 hscan.2
  | error e =>
    rw [hts] at hscan
    exact hscan

end ScriptShell.Program
