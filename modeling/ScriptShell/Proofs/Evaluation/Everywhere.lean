import ScriptShell.Proofs.Evaluation.Variable

namespace ScriptShell.Evaluation

variable {σ τ : Type}

/-- What relates the runs of programs beside two hosts in the same way on every ground, where the
second run may have more fuel and the parts that are run have a property. -/
structure Everywhere (T : Part → Prop) (host : Host σ) (host' : Host τ) (extra : Nat)
    (Rel : Level → {α : Type} → (α → Prop) → Eval σ α → Eval τ α → Prop) : Prop
    extends Dealing (definedBy T) (.of T) host host' Rel where
  hereditary : Hereditary T
  naming : ∀ {l : Level} {α : Type} {P : α → Prop} {x : ∀ σ, Eval σ α},
    IsNaming (definedBy T) P x → Rel l P (x σ) (x τ)
  /-- Nothing is asked of bodies that is not asked of other statements. -/
  body : ∀ {α : Type} {P : α → Prop} {x : Eval σ α} {y : Eval τ α},
    Rel .statement P x y → Rel .body P x y
  unlocated : ∀ {α : Type} (P : α → Prop) (v : Value),
    Rel .expression P (throw (.thrown v none 0)) (throw (.thrown v none 0))
  setLine : ∀ line, Rel .expression any (setLine line) (setLine line)
  /-- What a script reads as a program has the property. -/
  openUnit : ∀ name,
    Rel .expression (fun p => T (.program p)) (openUnit host name) (openUnit host' name)
  outOfFuel : ∀ {l : Level} {α : Type} (P : α → Prop) (y : Eval τ α),
    (extra = 0 → y = throw .outOfFuel) → Rel l P (throw .outOfFuel) y
  setLastValue : ∀ v, Rel .statement any (setLastValue v) (setLastValue v)
  branch : ∀ line, Rel .statement any (branch host line) (branch host' line)
  told : ∀ m, Occurs T m → Rel .expression any (observe host m) (observe host' m)
  inScope : ∀ {α : Type} {P : α → Prop} {x : Eval σ α} {y : Eval τ α} (id : ScopeId),
    Rel .statement P x y → Rel .statement P (inScope id x) (inScope id y)
  inFrame : ∀ {α : Type} {P : α → Prop} {x : Eval σ α} {y : Eval τ α} (frame : Frame),
    Rel .statement P x y → Rel .expression P (inFrame frame x) (inFrame frame y)
  oneDeeper : ∀ {α : Type} {P : α → Prop} {x : Eval σ α} {y : Eval τ α} (refused : Eval σ α)
    (refused' : Eval τ α), Rel .expression P refused refused' → Rel .expression P x y →
      Rel .expression P (do if ← tooDeep then refused else oneDeeper host x)
        (do if ← tooDeep then refused' else oneDeeper host' y)
  located : ∀ {α : Type} {P : α → Prop} {x : Eval σ α} {y : Eval τ α},
    Rel .expression P x y → Rel .expression P (located host x) (located host' y)
  guarded : ∀ {P : Completion → Prop} {x : Eval σ Completion} {y : Eval τ Completion}
    {handler : Option CatchClause} {finalizer : Option (List Stmt)}
    {handle : CatchClause → Value → Eval σ Completion}
    {handle' : CatchClause → Value → Eval τ Completion}
    {last : List Stmt → Eval σ Completion} {last' : List Stmt → Eval τ Completion},
    Rel .statement P x y →
    (∀ c ∈ handler, ∀ v, Rel .statement P (handle c v) (handle' c v)) →
    (∀ body ∈ finalizer, Rel .statement P (last body) (last' body)) →
      Rel .statement P (guarded host x (handler.map handle) (finalizer.map last))
        (guarded host' y (handler.map handle') (finalizer.map last'))

variable {T : Part → Prop} {host : Host σ} {host' : Host τ}
  {Rel : Level → {α : Type} → (α → Prop) → Eval σ α → Eval τ α → Prop}

protected theorem Everywhere.toNaming {extra : Nat} (h : Everywhere T host host' extra Rel) :
    Naming (definedBy T) Rel where
  toSequencing := h.toSequencing
  naming := h.naming

/-- What is the same on every ground is a likeness on the only one. -/
protected theorem Everywhere.likeness {extra : Nat} (h : Everywhere T host host' extra Rel)
    (i : Unit) : Likeness (definedBy T) (fun _ => .of T) host host' extra (fun _ => Rel) i where
  toDealing := h.toDealing
  hereditary := h.hereditary.own
  names _ _ := trivial
  declareLocal name v isMutable _ := declareLocal_alike h.toNaming name v isMutable
  sites _ _ := trivial
  outOfFuel := h.outOfFuel
  setLine line _ := h.setLine line
  begins s _ _ hx := by
    refine h.body (h.bind (h.relax (h.setLine _)) fun _ _ => ?_)
    exact h.bind (h.relax (h.told (.statement s) trivial)) fun _ _ => hx
  makeClosure f hf := h.toSequencing.makeClosure f fun _ _ => hf
  setLastValue := h.setLastValue
  branch := h.branch
  noTarget e he hTarget := h.told .noTarget ⟨e, he, hTarget⟩
  strayJump hm := h.body (h.relax (h.told .strayJump hm))
  alone _ _ _ := trivial
  enters body hbody hxy := by
    have hoisted := hoistFunctions_alike h.toSequencing host host'
      (fun f hf => h.toSequencing.makeClosure f fun _ _ => hf)
      (fun f v => h.body (h.relax (h.told (.functionBound f v) trivial))) body hbody
      h.hereditary.own fun _ _ name _ v => declareLocal_alike h.toNaming name v true
    exact h.bind hoisted fun _ _ => hxy () (.refl _) fun _ _ => trivial
  inBlockScope hxy := by
    refine h.bind (h.step isStep_frame) fun frame _ => ?_
    refine h.bind (h.step (isStep_openScope _ _)) fun scope _ => ?_
    exact h.inScope scope (hxy () (.refl _) scope)
  inCall callee c args hc hbody := by
    refine h.oneDeeper _ _ (h.raise _ _ _) ?_
    have hown : ∀ s ∈ c.def_.body, T (.stmt s) :=
      fun s hs => h.hereditary _ _ (List.mem_map_of_mem hs) hc
    refine h.bind (openCall_alike h.toNaming callee c args) fun scope _ => ?_
    exact h.bind (h.step isStep_frame) fun frame _ =>
      h.inFrame _ (h.settle (hbody () hc hown trivial))
  runFile name _ _ hrun :=
    h.bind (h.openUnit name) fun p hp => h.inFrame _ (h.settle (hrun () p hp trivial))
  method receiver key args :=
    h.located (Library.method_alike h.toSequencing h.unlocated receiver key args)
  located := h.located
  guarded := h.guarded

theorem openUnit_alike (h : Stepping (definedBy T) Rel)
    (hd : Dealing (definedBy T) (.of T) host host' Rel)
    (report : ∀ r, r.isWarning = true → Rel .expression any (report host r) (report host' r))
    (name : String) {R : List UInt8 → Prop}
    (readFile : Rel .expression R (Library.readFile host name) (Library.readFile host' name))
    (accepted : ∀ content {options p w}, R content →
      Program.ofSource options (Text.readUtf8 content) = .ok (p, w) → T (.program p)) :
    Rel .expression (fun p => T (.program p)) (openUnit host name) (openUnit host' name) := by
  refine h.bind readFile fun content hread => ?_
  refine h.bind (h.freeStep isFreeStep_parseOptions) fun options _ => ?_
  split
  case h_1 p warnings hp =>
    exact h.bind (reportWarnings_alike h.toSequencing report _ _ _) fun _ _ =>
      h.pure p (accepted content hread hp)
  case h_2 e _ => exact h.bind (h.newError _ _) fun v _ => hd.throwAt _ v trivial trivial

end ScriptShell.Evaluation
