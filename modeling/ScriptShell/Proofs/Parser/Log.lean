import ScriptShell.Proofs.Parser.Run
import ScriptShell.Proofs.Program.Remarks

namespace ScriptShell

/-- Whether a warning is given with or without strict checking. -/
def ParseWarning.isShown (strict : Bool) (w : ParseWarning) : Bool :=
  !w.remark.isStrict || strict

namespace Parser

variable {α β : Type}

/-- Declarators of `var`, parts that have been read, and remarks that are on no part of them
but on one that is not complete yet. -/
structure Log where
  vars : List VarName
  parts : List Part
  remarks : List ParseWarning

namespace Log

def nil : Log :=
  ⟨[], [], []⟩

instance : Append Log where
  append l l' := ⟨l.vars ++ l'.vars, l.parts ++ l'.parts, l.remarks ++ l'.remarks⟩

@[simp] def ofParts (parts : List Part) : Log :=
  ⟨[], parts, []⟩

@[simp] def ofExpr (e : Expr) : Log :=
  ofParts [.expr e]

@[simp] def ofExprs (es : List Expr) : Log :=
  ofParts (es.map .expr)

@[simp] def ofCondition (e : Expr) : Log :=
  ⟨[], [.expr e], mistypedIn e⟩

@[simp] def ofDeclarators (kind : DeclKind) (ds : List Declarator) : Log :=
  ⟨kind.vars ds, ds.flatMap Part.ofDeclarator, []⟩

@[simp] def ofStmt (s : Stmt) : Log :=
  ⟨s.vars, [.stmt s], []⟩

@[simp] def ofBody (body : List Stmt) : Log :=
  ⟨varsBody body, Part.ofBody body, []⟩

@[simp] def ofBlock (body : List Stmt) : Log :=
  ⟨varsBody body, Part.ofBody body, unreachableIn body⟩

@[simp] def ofOption (s : Option Stmt) : Log :=
  ⟨varsOption s, s.toList.map .stmt, []⟩

@[simp] def ofHandler (handler : Option CatchClause) : Log :=
  ⟨varsHandler handler, handler.toList.flatMap Part.ofHandler,
    handler.toList.flatMap (unreachableIn ·.body)⟩

@[simp] def ofFinal (finalizer : Option (List Stmt)) : Log :=
  ⟨varsFinal finalizer, finalizer.toList.flatMap Part.ofBody,
    finalizer.toList.flatMap unreachableIn⟩

section Append

variable (l l' : Log)

@[simp] theorem vars_append : (l ++ l').vars = l.vars ++ l'.vars := rfl

@[simp] theorem parts_append : (l ++ l').parts = l.parts ++ l'.parts := rfl

@[simp] theorem remarks_append : (l ++ l').remarks = l.remarks ++ l'.remarks := rfl

end Append

def warnings (l : Log) (names : List String) : Multiset ParseWarning :=
  redeclarations names l.vars ++ (l.parts.flatMap Part.allRemarks ++ l.remarks)

/-- The log tells what was written down between two states. -/
structure Holds (c : Context) (s : State) (l : Log) (t : State) : Prop where
  hoisted : ∀ q ∈ l.parts, q.Hoisted
  scopes : ∀ names outer, s.varScopes = names :: outer →
    t.varScopes = declareAll names l.vars :: outer
  warnings : ∀ names outer, s.varScopes = names :: outer → (t.warnings : Multiset ParseWarning) =
    s.warnings + (l.warnings names).filter (·.isShown c.strict)

theorem warnings_append (l l' : Log) (names : List String) :
    (l ++ l').warnings names = l.warnings names + l'.warnings (declareAll names l.vars) := by
  simp only [warnings, vars_append, parts_append, remarks_append, redeclarations_append,
    List.flatMap_append, Multiset.coe_add, Multiset.coe_eq_coe, List.perm_iff_count,
    List.count_append]
  omega

theorem warnings_ofRemarks (names : List String) (ws : List ParseWarning) :
    (⟨[], [], ws⟩ : Log).warnings names = ws :=
  rfl

namespace Holds

variable {c : Context} {s t u : State} {l l' : Log}

theorem refl (c : Context) (s : State) : nil.Holds c s s where
  hoisted := nofun
  scopes _ _ h := h
  warnings _ _ _ := by simp [Log.warnings, nil, redeclarations]

theorem trans (h : l.Holds c s t) (h' : l'.Holds c t u) : (l ++ l').Holds c s u where
  hoisted := List.forall_mem_append.mpr ⟨h.hoisted, h'.hoisted⟩
  scopes names outer hs := by
    rw [h'.scopes _ _ (h.scopes names outer hs), vars_append]
    simp only [declareAll, List.foldl_append]
  warnings names outer hs := by
    rw [h'.warnings _ _ (h.scopes names outer hs), h.warnings names outer hs, warnings_append,
      Multiset.filter_add, Multiset.add_assoc]

theorem congr {t' : State} (h : l.Holds c s t) (hscopes : t'.varScopes = t.varScopes)
    (hwarnings : t'.warnings = t.warnings) : l.Holds c s t' where
  hoisted := h.hoisted
  scopes := hscopes ▸ h.scopes
  warnings := hwarnings ▸ h.warnings

theorem warn (c : Context) (s : State) (remark : Remark) (place : Location) :
    (⟨[], [], [⟨remark, place⟩]⟩ : Log).Holds c s (s.warn c remark place) := by
  unfold State.warn
  cases h : !remark.isStrict || c.strict with
  | true =>
    have hshown : (⟨remark, place⟩ : ParseWarning).isShown c.strict = true := h
    refine ⟨nofun, fun _ _ hs => hs, fun names _ _ => ?_⟩
    rw [warnings_ofRemarks, Multiset.coe_singleton, Multiset.filter_singleton, if_pos hshown,
      Multiset.add_comm]
    rfl
  | false =>
    have hshown : ¬(⟨remark, place⟩ : ParseWarning).isShown c.strict = true :=
      Bool.eq_false_iff.mp h
    refine ⟨nofun, fun _ _ hs => hs, fun names _ _ => ?_⟩
    rw [warnings_ofRemarks, Multiset.coe_singleton, Multiset.filter_singleton, if_neg hshown]
    exact (Multiset.add_zero _).symm

theorem declareVar (c : Context) (s : State) (name : String) (place : Location) :
    (⟨[(name, place)], [], []⟩ : Log).Holds c s (s.declareVar c name place) := by
  unfold State.declareVar
  split
  next names outer hs =>
    cases h : names.contains name with
    | true =>
      have hname : name ∈ names := List.contains_iff_mem.mp h
      have hwarn := warn c s (.redeclared name) place
      refine ⟨nofun, fun _ _ hs' => ?_, fun _ _ hs' => ?_⟩
      · cases hs.symm.trans hs'
        rw [if_pos rfl, hwarn.scopes names outer hs]
        simp [declareAll, hname]
      · cases hs.symm.trans hs'
        rw [if_pos rfl, hwarn.warnings names outer hs]
        simp [Log.warnings, redeclarations, hname]
    | false =>
      have hname : name ∉ names := fun hmem => by simp [hmem] at h
      refine ⟨nofun, fun _ _ hs' => ?_, fun _ _ hs' => ?_⟩
      · cases hs.symm.trans hs'
        simp [declareAll, hname]
      · cases hs.symm.trans hs'
        simp [Log.warnings, redeclarations, hname]
  next hs => exact ⟨nofun, fun _ _ hs' => by simp [hs] at hs', fun _ _ hs' => by simp [hs] at hs'⟩

theorem warnUnreachable (c : Context) (s : State) (body : List Stmt) :
    (⟨[], [], unreachableIn body⟩ : Log).Holds c s (s.warnUnreachable c body) := by
  rw [State.warnUnreachable, unreachable?_false, unreachableIn]
  cases (behindReturn body).find? fun s => !s.isIdle with
  | none => exact refl c s
  | some s' => exact warn c s _ _

theorem warnCondition (c : Context) (s : State) (e : Expr) :
    (⟨[], [], mistypedIn e⟩ : Log).Holds c s (s.warnCondition c e) := by
  unfold State.warnCondition
  split
  next => exact warn c s _ _
  next h =>
    have hnone : mistypedIn e = [] := by
      unfold mistypedIn
      split
      next place => exact (h _ _ place rfl).elim
      next => rfl
    rw [hnone]
    exact refl c s

end Holds

def Entails (l l' : Log) : Prop :=
  ∀ c s t, l.Holds c s t → l'.Holds c s t

section Entails

variable {l : Log}

protected theorem Entails.rfl : Entails l l :=
  fun _ _ _ h => h

theorem Entails.perm {l' : Log} (hvars : l.vars = l'.vars) (hparts : l.parts.Perm l'.parts)
    (hremarks : l.remarks.Perm l'.remarks) : Entails l l' := by
  intro c s t h
  have hsame (names : List String) : l.warnings names = l'.warnings names := by
    rw [Log.warnings, Log.warnings, hvars, Multiset.coe_eq_coe]
    exact ((hparts.flatMap_right _).append hremarks).append_left _
  refine ⟨fun q hq => ?_, hvars ▸ h.scopes, fun names outer hs => ?_⟩
  · exact h.hoisted q (hparts.mem_iff.mpr hq)
  · rw [h.warnings names outer hs, hsame]

theorem Entails.part (vars : List VarName) {p : Part} (hp : p.NamesVars) :
    Entails ⟨vars, p.parts, p.remarks⟩ ⟨vars, [p], []⟩ := by
  intro c s t h
  have hsame (names : List String) : (⟨vars, p.parts, p.remarks⟩ : Log).warnings names =
      (⟨vars, [p], []⟩ : Log).warnings names := by
    simp only [Log.warnings, List.flatMap_singleton, List.append_nil, Part.allRemarks_eq p,
      Multiset.coe_eq_coe]
    exact List.perm_append_comm.append_left _
  refine ⟨List.forall_mem_singleton.mpr ?_, h.scopes, fun names outer hs => ?_⟩
  · exact Part.forall_contains hp h.hoisted
  · rw [h.warnings names outer hs, hsame]

theorem Entails.expr (e : Expr) : Entails (ofParts (Part.ofExpr e)) (ofExpr e) :=
  .part [] (p := .expr e) trivial

theorem Entails.stmt {s : Stmt} (hvars : l.vars = s.vars) (hparts : l.parts.Perm (Part.ofStmt s))
    (hremarks : l.remarks.Perm (Part.remarks (.stmt s))) : Entails l (ofStmt s) := by
  intro c r t h
  apply Entails.part s.vars (p := .stmt s) trivial
  exact Entails.perm hvars hparts hremarks c r t h

theorem Entails.target {e : Expr} {ps : List Part} (he : e.isTarget = true) :
    Entails (ofParts (.expr e :: ps)) (ofParts (.target e :: ps)) := by
  have hparts : (Part.target e).parts = (Part.expr e).parts := by
    cases e with
    | name | member | index => rfl
    | _ => cases he
  have hsame : (Part.target e).allRemarks = (Part.expr e).allRemarks := by
    rw [Part.allRemarks_eq, hparts, Part.allRemarks_eq (.expr e)]
    rfl
  intro c s t h
  obtain ⟨hfirst, hrest⟩ := List.forall_mem_cons.mp h.hoisted
  refine ⟨List.forall_mem_cons.mpr ⟨?_, hrest⟩, h.scopes, fun names outer hs => ?_⟩
  · refine Part.forall_contains trivial fun q hq r hr => hfirst r (.head ?_ hr)
    exact hparts ▸ hq
  · rw [h.warnings names outer hs]
    simp only [Log.warnings, ofParts, List.flatMap_cons, hsame]

end Entails

end Log

def Quiet (x : Parser α) : Prop :=
  ∀ c s a t, x c s = .ok a t → t.varScopes = s.varScopes ∧ t.warnings = s.warnings

namespace Quiet

variable {x : Parser α} {g : α → Parser β}

protected theorem bind (hx : Quiet x) (hg : ∀ a, Quiet (g a)) : Quiet (x >>= g) := by
  intro c s b u h
  cases hrun : x c s with
  | ok a t =>
    obtain ⟨hscopes, hwarnings⟩ := hx c s a t hrun
    obtain ⟨hscopes', hwarnings'⟩ := hg a c t b u (by rwa [bind_ok hrun] at h)
    exact ⟨hscopes'.trans hscopes, hwarnings'.trans hwarnings⟩
  | error e t =>
    rw [bind_error hrun] at h
    cases h

protected theorem pure (a : α) : Quiet (pure a) := by
  rintro c s _ _ ⟨⟩
  exact ⟨rfl, rfl⟩

protected theorem ite {p : Prop} [Decidable p] {y : Parser α} (hx : Quiet x) (hy : Quiet y) :
    Quiet (if p then x else y) := by
  split <;> assumption

theorem get : Quiet get := by
  rintro c s _ _ ⟨⟩
  exact ⟨rfl, rfl⟩

theorem skip : Quiet skip := by
  rintro c s _ _ ⟨⟩
  exact ⟨rfl, rfl⟩

theorem failHere (fault : ParseFault) : Quiet (failHere fault : Parser α) := by
  rintro c s _ _ ⟨⟩

theorem exhausted : Quiet (exhausted : Parser α) := by
  rintro c s _ _ ⟨⟩

theorem peek : Quiet peek :=
  get.bind fun _ => .pure _

theorem peekAs (reading : TokenKind → Option α) : Quiet (peekAs reading) :=
  peek.bind fun _ => .pure _

theorem here : Quiet here := by
  rintro c s _ _ ⟨⟩
  exact ⟨rfl, rfl⟩

theorem newlineBefore : Quiet newlineBefore := by
  rintro c s _ _ ⟨⟩
  exact ⟨rfl, rfl⟩

theorem atEnd : Quiet atEnd :=
  get.bind fun _ => .pure _

theorem atMark (m : Mark) : Quiet (atMark m) := by
  apply peek.bind
  intro k
  split <;> exact .pure _

theorem eatMark (m : Mark) : Quiet (eatMark m) :=
  (atMark m).bind fun _ => .ite (skip.bind fun _ => .pure _) (.pure _)

theorem eatKeyword (k : Keyword) : Quiet (eatKeyword k) := by
  apply peek.bind
  intro next
  split
  · exact .ite (skip.bind fun _ => .pure _) (.pure _)
  · exact .pure _

theorem expectMark (m : Mark) (what : String) : Quiet (expectMark m what) :=
  (eatMark m).bind fun _ => .ite (failHere _) (.pure _)

theorem expectName (what : String) : Quiet (expectName what) := by
  apply peek.bind
  intro k
  split
  · exact skip.bind fun _ => .pure _
  · exact failHere _

theorem endStatement : Quiet endStatement := by
  refine (eatMark _).bind fun _ => .ite (.pure _) ?_
  refine newlineBefore.bind fun _ => atEnd.bind fun _ => (atMark _).bind fun _ => ?_
  exact .ite (.pure _) (failHere _)

theorem parameters (n : Nat) : Quiet (parameters n) := by
  induction n with
  | zero => exact exhausted
  | succ n ih =>
    refine (expectName _).bind fun _ => (eatMark _).bind fun _ => .ite ?_ (.pure _)
    exact ih.bind fun _ => .pure _

end Quiet

def Records (l : Log) (x : Parser α) (l' : α → Log) : Prop :=
  ∀ c r s a t, l.Holds c r s → x c s = .ok a t → (l' a).Holds c r t

namespace Records

variable {l : Log} {l' m : α → Log} {k : β → Log} {x : Parser α} {g : α → Parser β}

protected theorem bind (hx : Records l x m) (hg : ∀ a, Records (m a) (g a) k) :
    Records l (x >>= g) k := by
  intro c r s b u hs h
  cases hrun : x c s with
  | ok a t => exact hg a c r t b u (hx c r s a t hs hrun) (by rwa [bind_ok hrun] at h)
  | error e t =>
    rw [bind_error hrun] at h
    cases h

theorem of_run (hx : ∀ c s a t, x c s = .ok a t → (m a).Holds c s t) : Records .nil x m :=
  fun c _ s a t hs h => hs.trans (hx c s a t h)

theorem frame (hx : Records .nil x m) : Records l x fun a => l ++ m a :=
  fun c _ s a t hs h => hs.trans (hx c s s a t (.refl c s) h)

theorem next (hx : Records .nil x m) (hg : ∀ a, Records (l ++ m a) (g a) k) :
    Records l (x >>= g) k :=
  hx.frame.bind hg

theorem quietly (hx : Quiet x) (hg : ∀ a, Records l (g a) k) : Records l (x >>= g) k := by
  intro c r s b u hs h
  cases hrun : x c s with
  | ok a t =>
    obtain ⟨hscopes, hwarnings⟩ := hx c s a t hrun
    exact hg a c r t b u (hs.congr hscopes hwarnings) (by rwa [bind_ok hrun] at h)
  | error e t =>
    rw [bind_error hrun] at h
    cases h

protected theorem pure {a : α} (h : l.Entails (l' a)) : Records l (pure a) l' := by
  rintro c r s _ _ hs ⟨⟩
  exact h c r s hs

theorem peekAs {γ : Type} {reading : TokenKind → Option γ} {g : Option γ → Parser β}
    (hsome : ∀ next a, reading next = some a → Records l (g (some a)) k)
    (hnone : Records l (g none) k) : Records l (Parser.peekAs reading >>= g) k := by
  intro c r s b u hs h
  rw [bind_ok (peekAs_eq c s reading)] at h
  cases hnext : s.next.bind reading with
  | none => exact hnone c r s b u hs (hnext ▸ h)
  | some a =>
    obtain ⟨next, -, ha⟩ := Option.bind_eq_some_iff.mp hnext
    exact hsome next a ha c r s b u hs (hnext ▸ h)

theorem behind {l₀ : Log} (h : l₀.Entails l) (hx : Records l x l') : Records l₀ x l' :=
  fun c r s a t hs hrun => hx c r s a t (h c r s hs) hrun

protected theorem ite {p : Prop} [Decidable p] {y : Parser α} (hx : p → Records l x l')
    (hy : ¬p → Records l y l') : Records l (if p then x else y) l' := by
  split
  next h => exact hx h
  next h => exact hy h

theorem failAt (fault : ParseFault) (place : Location) :
    Records l (failAt fault place : Parser α) l' := by
  rintro c r s _ _ _ ⟨⟩

theorem failHere (fault : ParseFault) : Records l (failHere fault : Parser α) l' := by
  rintro c r s _ _ _ ⟨⟩

theorem exhausted : Records l (exhausted : Parser α) l' := by
  rintro c r s _ _ _ ⟨⟩

theorem failAt_bind (fault : ParseFault) (place : Location) :
    Records l (Parser.failAt fault place >>= g) k := by
  intro c r s b u _ h
  rw [bind_error (failAt_eq c s fault place)] at h
  cases h

theorem failHere_bind (fault : ParseFault) : Records l (Parser.failHere fault >>= g) k := by
  intro c r s b u _ h
  rw [bind_error (failHere_eq c s fault)] at h
  cases h

theorem step {x : Parser Unit} {f : Context → State → State} {added : Log}
    (hx : ∀ c s, x c s = .ok () (f c s)) (hf : ∀ c s, added.Holds c s (f c s)) :
    Records .nil x fun _ => added := by
  apply of_run
  intro c s a t h
  cases (hx c s).symm.trans h
  exact hf c s

theorem declareVar (name : String) (place : Location) :
    Records .nil (declareVar name place) fun _ => ⟨[(name, place)], [], []⟩ :=
  step (declareVar_eq · · name place) (Log.Holds.declareVar · · name place)

theorem warnUnreachable (body : List Stmt) :
    Records .nil (warnUnreachable body) fun _ => ⟨[], [], unreachableIn body⟩ :=
  step (warnUnreachable_eq · · body) (Log.Holds.warnUnreachable · · body)

theorem warnCondition (e : Expr) :
    Records .nil (warnCondition e) fun _ => ⟨[], [], mistypedIn e⟩ :=
  step (warnCondition_eq · · e) (Log.Holds.warnCondition · · e)

theorem inLoop (hx : Records l x l') : Records l (inLoop x) l' := by
  intro c r s a u hs h
  rw [inLoop_eq] at h
  cases hrun : x c s.enterLoop with
  | ok b t =>
    rw [hrun] at h
    cases h
    exact (hx c r s.enterLoop a t (hs.congr rfl rfl) hrun).congr rfl rfl
  | error e t =>
    rw [hrun] at h
    cases h

/-- Whatever a function declares and whatever is said about this stays in the function. -/
theorem inFunction {x : Parser (List Stmt)} (hx : Records .nil x Log.ofBlock)
    (name : Option String) (params : List String) (place : Location) :
    Records .nil (do
      let r ← inFunction x
      return FunctionDef.mk name params r.1 r.2 place) fun f => .ofParts [.function f] := by
  apply of_run
  intro c s f u h
  have hrun := inFunction_eq c s x
  cases hbody : x c s.enterFunction with
  | error e t =>
    rw [hbody] at hrun
    rw [bind_error hrun] at h
    cases h
  | ok body t =>
    rw [hbody] at hrun
    rw [bind_ok hrun] at h
    cases h
    have hlog := hx c _ _ body t (.refl c s.enterFunction) hbody
    have hscopes := hlog.scopes [] s.varScopes rfl
    have hnames : (t.varScopes.headD []).reverse = hoistedNames body := by
      rw [hscopes, hoistedNames_eq]
      rfl
    refine ⟨List.forall_mem_singleton.mpr ?_, fun names outer hs => ?_, fun names outer hs => ?_⟩
    · exact Part.forall_contains hnames hlog.hoisted
    · change t.varScopes.tail = _
      rw [hscopes, List.tail_cons, hs]
      rfl
    · have hsame : (Log.ofBlock body).warnings [] =
          (Log.ofParts [.function (.mk name params body
            (t.varScopes.headD []).reverse place)]).warnings names := by
        simp only [Log.warnings, Log.ofBlock, Log.ofParts, redeclarations, List.flatMap_singleton,
          List.append_nil, List.nil_append, Part.allRemarks_eq (.function _), Part.remarks,
          Part.parts, FunctionDef.body, Multiset.coe_eq_coe, List.perm_iff_count,
          List.count_append]
        omega
      rw [← hsame]
      exact hlog.warnings [] s.varScopes rfl

end Records

end Parser

end ScriptShell
