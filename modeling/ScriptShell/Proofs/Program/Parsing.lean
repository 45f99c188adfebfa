import ScriptShell.Program.Parser
import ScriptShell.Proofs.Program.WellFormed

namespace ScriptShell.Parser

variable {α β : Type}

def Gives (loopDepth functionDepth : Nat) (P : α → Prop) (x : Parser α) : Prop :=
  ∀ context s a t, s.loopDepth = loopDepth → s.functionDepth = functionDepth →
    x context s = .ok a t → P a ∧ t.loopDepth = loopDepth ∧ t.functionDepth = functionDepth

namespace Gives

variable {l f : Nat} {P : α → Prop} {Q : β → Prop}

protected theorem bind {x : Parser α} {g : α → Parser β} (hx : Gives l f P x)
    (hg : ∀ a, P a → Gives l f Q (g a)) : Gives l f Q (x >>= g) := by
  intro context s b u hl hf h
  change EStateM.bind (x context) (fun a => g a context) s = .ok b u at h
  unfold EStateM.bind at h
  cases hr : x context s with
  | ok a t =>
    rw [hr] at h
    obtain ⟨ha, hl', hf'⟩ := hx context s a t hl hf hr
    exact hg a ha context t b u hl' hf' h
  | error e t =>
    rw [hr] at h
    cases h

protected theorem pure {a : α} (ha : P a) : Gives l f P (pure a) := by
  intro context s b t hl hf h
  cases h
  exact ⟨ha, hl, hf⟩

protected theorem ite {c : Prop} [Decidable c] {x y : Parser α} (hx : c → Gives l f P x)
    (hy : ¬c → Gives l f P y) : Gives l f P (if c then x else y) := by
  split
  case isTrue h => exact hx h
  case isFalse h => exact hy h

protected theorem map {x : Parser α} {g : α → β} (hx : Gives l f P x) (hg : ∀ a, P a → Q (g a)) :
    Gives l f Q (g <$> x) :=
  hx.bind fun a ha => Gives.pure (hg a ha)

theorem get : Gives l f (fun s => s.loopDepth = l ∧ s.functionDepth = f) get := by
  intro context s a t hl hf h
  cases h
  exact ⟨⟨hl, hf⟩, hl, hf⟩

theorem read : Gives l f any read := by
  intro context s a t hl hf h
  cases h
  exact ⟨trivial, hl, hf⟩

theorem modify {g : State → State} (hl : ∀ s, (g s).loopDepth = s.loopDepth)
    (hf : ∀ s, (g s).functionDepth = s.functionDepth) : Gives l f any (modify g) := by
  intro context s a t hl' hf' h
  cases h
  exact ⟨trivial, (hl s).trans hl', (hf s).trans hf'⟩

theorem throw (e : ParseError) : Gives l f P (throw e) := by
  intro context s a t _ _ h
  cases h

theorem peek : Gives l f any peek :=
  get.bind fun _ _ => Gives.pure trivial

theorem here : Gives l f any here :=
  get.bind fun _ _ => read.bind fun _ _ => Gives.pure trivial

theorem newlineBefore : Gives l f any newlineBefore :=
  get.bind fun _ _ => read.bind fun _ _ => Gives.pure trivial

theorem atEnd : Gives l f any atEnd :=
  get.bind fun _ _ => Gives.pure trivial

theorem skip : Gives l f any skip :=
  modify (fun _ => rfl) fun _ => rfl

theorem failAt (fault : ParseFault) (place : Location) : Gives l f P (failAt fault place) :=
  throw _

theorem failHere (fault : ParseFault) : Gives l f P (failHere fault) :=
  here.bind fun _ _ => atEnd.bind fun _ _ => throw _

theorem failAt_bind (fault : ParseFault) (place : Location) {g : α → Parser β} :
    Gives l f Q (Parser.failAt fault place >>= g) :=
  (failAt fault place).bind fun _ (h : False) => h.elim

theorem failHere_bind (fault : ParseFault) {g : α → Parser β} :
    Gives l f Q (Parser.failHere fault >>= g) :=
  (failHere fault).bind fun _ (h : False) => h.elim

theorem exhausted : Gives l f P exhausted :=
  here.bind fun _ _ => failAt _ _

theorem atMark (m : Mark) : Gives l f any (atMark m) := by
  refine peek.bind fun k _ => ?_
  split
  · exact Gives.pure trivial
  · exact Gives.pure trivial

theorem eatMark (m : Mark) : Gives l f any (eatMark m) := by
  refine (atMark m).bind fun b _ => ?_
  split
  · exact skip.bind fun _ _ => Gives.pure trivial
  · exact Gives.pure trivial

theorem eatKeyword (k : Keyword) : Gives l f any (eatKeyword k) := by
  refine peek.bind fun next _ => ?_
  split
  · split
    · exact skip.bind fun _ _ => Gives.pure trivial
    · exact Gives.pure trivial
  · exact Gives.pure trivial

theorem expectMark (m : Mark) (what : String) : Gives l f any (expectMark m what) := by
  refine (eatMark m).bind fun b _ => ?_
  split
  · exact failHere _
  · exact Gives.pure trivial

theorem expectName (what : String) : Gives l f any (expectName what) := by
  refine peek.bind fun next _ => ?_
  split
  · exact skip.bind fun _ _ => Gives.pure trivial
  · exact failHere _

theorem endStatement : Gives l f any endStatement := by
  refine (eatMark _).bind fun b _ => ?_
  split
  · exact Gives.pure trivial
  · refine newlineBefore.bind fun _ _ => atEnd.bind fun _ _ => (atMark _).bind fun _ _ => ?_
    split
    · exact Gives.pure trivial
    · exact failHere _

theorem warn (remark : Remark) (place : Location) : Gives l f any (warn remark place) := by
  refine read.bind fun context _ => ?_
  split
  · exact modify (fun _ => rfl) fun _ => rfl
  · exact Gives.pure trivial

theorem declareVar (name : String) (place : Location) : Gives l f any (declareVar name place) := by
  refine get.bind fun s _ => ?_
  split
  · split
    · exact warn _ _
    · exact modify (fun _ => rfl) fun _ => rfl
  · exact Gives.pure trivial

theorem warnUnreachable (body : List Stmt) : Gives l f any (warnUnreachable body) := by
  unfold Parser.warnUnreachable
  split
  · exact warn _ _
  · exact Gives.pure trivial

theorem warnCondition (e : Expr) : Gives l f any (warnCondition e) := by
  unfold Parser.warnCondition
  split
  · exact warn _ _
  · exact Gives.pure trivial

theorem peekAs (reading : TokenKind → Option α) :
    Gives l f (fun r => ∀ a ∈ r, ∃ k, reading k = some a) (peekAs reading) := by
  refine peek.bind fun next _ => Gives.pure fun a ha => ?_
  cases next with
  | none => cases ha
  | some k => exact ⟨k, ha⟩

theorem inLoop {p : Parser α} (hp : Gives (l + 1) f P p) : Gives l f P (inLoop p) := by
  intro context s a u hl hf h
  change EStateM.bind (p context) (fun a t => .ok a { t with loopDepth := t.loopDepth - 1 })
    { s with loopDepth := s.loopDepth + 1 } = .ok a u at h
  unfold EStateM.bind at h
  cases hr : p context { s with loopDepth := s.loopDepth + 1 } with
  | ok b t =>
    rw [hr] at h
    obtain ⟨hb, hl', hf'⟩ :=
      hp context { s with loopDepth := s.loopDepth + 1 } b t (congrArg (· + 1) hl) hf hr
    cases h
    exact ⟨hb, congrArg (· - 1) hl', hf'⟩
  | error e t =>
    rw [hr] at h
    cases h

theorem inFunction {p : Parser α} (hp : Gives 0 (f + 1) P p) :
    Gives l f (fun r => P r.1) (inFunction p) := by
  intro context s a u hl hf h
  change EStateM.bind (p context) (fun a t => .ok (a, (t.varScopes.headD []).reverse)
      { t with
        varScopes := t.varScopes.tail
        functionDepth := t.functionDepth - 1
        loopDepth := s.loopDepth })
    { s with
      varScopes := [] :: s.varScopes
      functionDepth := s.functionDepth + 1
      loopDepth := 0 } = .ok a u at h
  unfold EStateM.bind at h
  cases hr : p context { s with
      varScopes := [] :: s.varScopes
      functionDepth := s.functionDepth + 1
      loopDepth := 0 } with
  | ok b t =>
    rw [hr] at h
    obtain ⟨hb, -, hf'⟩ := hp context _ b t rfl (congrArg (· + 1) hf) hr
    cases h
    exact ⟨hb, hl, congrArg (· - 1) hf'⟩
  | error e t =>
    rw [hr] at h
    cases h

end Gives

end ScriptShell.Parser
