import ScriptShell.Proofs.Evaluation.Ending
import ScriptShell.Proofs.Evaluation.Step
import ScriptShell.Proofs.Program.Place

namespace ScriptShell

def Moment.isAccess : Moment → Bool
  | .reads _ | .assigns .. => true
  | _ => false

namespace Evaluation

/-- What is evaluated. Statements may be related less closely than expressions. -/
inductive Level where
  | expression
  | statement
  /-- Statements that may start a body, where no line has been set yet. -/
  | body

/-- Where something is evaluated: the parts that are run, the units and lines at which exceptions
may be raised, the statements that may be run now, and the names that may be declared. -/
structure Ground where
  part : Part → Prop
  file : Option String → Prop
  line : Nat → Prop
  ready : Stmt → Prop
  binds : String → Prop := any

namespace Ground

abbrev of (T : Part → Prop) : Ground :=
  ⟨T, any, any, any, any⟩

/-- The ground on which a body is run that was entered from another ground. -/
structure Within (g g' : Ground) : Prop where
  part : ∀ p, g'.part p → g.part p
  line : ∀ n, g'.line n → g.line n
  binds : ∀ name, g'.binds name → g.binds name

theorem Within.refl (g : Ground) : g.Within g :=
  ⟨fun _ hp => hp, fun _ hn => hn, fun _ hname => hname⟩

end Ground

abbrev definedBy (T : Part → Prop) (c : Closure) : Prop :=
  T (.function c.def_)

variable {σ τ : Type}

/-- Relations, up to a condition on the result, that are kept by sequencing. -/
structure Sequencing (K : Closure → Prop)
    (Rel : Level → {α : Type} → (α → Prop) → Eval σ α → Eval τ α → Prop) : Prop where
  relax : ∀ {α : Type} {P : α → Prop} {x : Eval σ α} {y : Eval τ α},
    Rel .expression P x y → Rel .statement P x y
  settle : ∀ {α : Type} {P : α → Prop} {x : Eval σ α} {y : Eval τ α},
    Rel .body P x y → Rel .statement P x y
  weaken : ∀ {l : Level} {α : Type} {P Q : α → Prop} {x : Eval σ α} {y : Eval τ α},
    Rel l P x y → (∀ a, P a → Q a) → Rel l Q x y
  bind : ∀ {l : Level} {α β : Type} {P : α → Prop} {Q : β → Prop}
    {x : Eval σ α} {y : Eval τ α} {f : α → Eval σ β} {g : α → Eval τ β},
    Rel l P x y → (∀ a, P a → Rel l Q (f a) (g a)) →
      Rel l Q (x >>= f) (y >>= g)
  step : ∀ {l : Level} {α : Type} {P : α → Prop} {x : ∀ σ, Eval σ α},
    IsStep K P x → Rel l P (x σ) (x τ)
  fault : ∀ {α : Type} (P : α → Prop) (f : Fault),
    Rel .expression P (throw (.fault f)) (throw (.fault f))

/-- A sequencing of evaluations in which names may be bound at will. -/
structure Naming (K : Closure → Prop)
    (Rel : Level → {α : Type} → (α → Prop) → Eval σ α → Eval τ α → Prop) : Prop
    extends Sequencing K Rel where
  naming : ∀ {l : Level} {α : Type} {P : α → Prop} {x : ∀ σ, Eval σ α},
    IsNaming K P x → Rel l P (x σ) (x τ)
  step := fun hx => naming hx.naming

/-- A sequencing of evaluations that both make of a single step whatever it makes of the state. -/
structure Stepping (K : Closure → Prop)
    (Rel : Level → {α : Type} → (α → Prop) → Eval σ α → Eval τ α → Prop) : Prop
    extends Sequencing K Rel where
  freeStep : ∀ {α : Type} {P : α → Prop} {x : ∀ σ, Eval σ α},
    IsFreeStep K P x → Rel .expression P (x σ) (x τ)

def writeStatistics (host : Host σ) : Eval σ Unit := do
  let (statistics, programBreak) ← Library.collect
  Library.write host (Library.statisticsLine statistics programBreak)

/-- A sequencing that relates what scripts ask of two hosts, loops and programs to be read
apart. -/
structure Dealing (K : Closure → Prop) (G : Ground) (host : Host σ) (host' : Host τ)
    (Rel : Level → {α : Type} → (α → Prop) → Eval σ α → Eval τ α → Prop) : Prop
    extends Sequencing K Rel where
  frame : Rel .expression (fun f => G.file f.filename ∧ G.line f.line) frame frame
  throwAt : ∀ {α : Type} (P : α → Prop) (v : Value) {file : Option String} {line : Nat},
    G.file file → G.line line →
      Rel .expression P (throwAt host v file line) (throwAt host' v file line)
  write : ∀ text, Rel .expression any (Library.write host text) (Library.write host' text)
  quit : ∀ {α : Type} (P : α → Prop) (code : Option Int32),
    Rel .expression P (Library.quit host code) (Library.quit host' code)
  readFile : ∀ name,
    Rel .expression any (Library.readFile host name) (Library.readFile host' name)
  strictWarning : ∀ message,
    Rel .expression any (strictWarning host message) (strictWarning host' message)
  statistics : Rel .expression any (writeStatistics host) (writeStatistics host')
  accesses : ∀ m, m.isAccess = true → Rel .expression any (observe host m) (observe host' m)

/-- The moments that evaluation tells of apart from calls and the news to the host, by the parts
that are run. -/
def Occurs (T : Part → Prop) : Moment → Prop
  | .strayJump =>
    (∃ f j, T (.function f) ∧ emitsAny j f.body = true ∧ j ≠ .return_) ∨
      ∃ p j, T (.program p) ∧ emitsAny j p.body = true
  | .noTarget => ∃ e, T (.target e) ∧ e.isTarget = false
  | .callBegins | .callEnds | .notifies | .quits => False
  | .statement _ | .handlerBegins | .finalizerBegins | .raised .. | .functionBound .. | .reads _
  | .assigns .. => True

theorem occurs_of_isAccess {T : Part → Prop} {m : Moment} (hm : m.isAccess = true) :
    Occurs T m := by
  cases m with
  | reads | assigns => trivial
  | _ => cases hm

/-- Runs a body in the scope and the unit of a call, one call deeper. -/
def inCallFrame (host : Host σ) (callee : Value) (c : Closure) (args : List Value)
    (body : Eval σ Value) : Eval σ Value :=
  deeper host do
    let scope ← openCall callee c args
    let line := (← frame).line
    inFrame ⟨some scope, c.filename, line, .undefined⟩ body

def runFile (host : Host σ) (name : String) (run : Program → Eval σ Value) : Eval σ Value := do
  let p ← openUnit host name
  inFrame (unitFrame (some name)) (run p)

/-- What relates the runs of programs beside two hosts, where the second run may have more fuel.
The relations make up a family, with one for each ground that is run on; calls and files lead
from one to another. -/
structure Likeness {ι : Type} (K : Closure → Prop) (G : ι → Ground) (host : Host σ)
    (host' : Host τ) (extra : Nat)
    (Rel : ι → Level → {α : Type} → (α → Prop) → Eval σ α → Eval τ α → Prop) (i : ι) : Prop
    extends Dealing K (G i) host host' (Rel i) where
  hereditary : OwnHereditary (G i).part
  names : ∀ {s name}, (G i).part (.stmt s) → name ∈ s.declaredNames → (G i).binds name
  declareLocal : ∀ {l : Level} (name : String) (v : Value) (isMutable : Bool),
    (G i).binds name → Rel i l any (declareLocal name v isMutable) (declareLocal name v isMutable)
  sites : ∀ {p place}, (G i).part p → place ∈ p.sites → (G i).line place.line
  outOfFuel : ∀ {l : Level} {α : Type} (P : α → Prop) (y : Eval τ α),
    (extra = 0 → y = throw .outOfFuel) → Rel i l P (throw .outOfFuel) y
  setLine : ∀ line, (G i).line line → Rel i .expression any (setLine line) (setLine line)
  begins : ∀ {α : Type} {P : α → Prop} {x : Eval σ α} {y : Eval τ α} (s : Stmt),
    (G i).part (.stmt s) → (G i).ready s → Rel i .statement P x y →
      Rel i .body P (do Evaluation.setLine s.place.line; observe host (.statement s); x)
        (do Evaluation.setLine s.place.line; observe host' (.statement s); y)
  makeClosure : ∀ {l : Level} (f : FunctionDef), (G i).part (.function f) →
    Rel i l any (Evaluation.makeClosure f) (Evaluation.makeClosure f)
  setLastValue : ∀ v, Rel i .statement any (setLastValue v) (setLastValue v)
  branch : ∀ line, Rel i .statement any (branch host line) (branch host' line)
  noTarget : ∀ e, (G i).part (.target e) → e.isTarget = false →
    Rel i .expression any (observe host .noTarget) (observe host' .noTarget)
  strayJump : Occurs (G i).part .strayJump →
    Rel i .body any (observe host .strayJump) (observe host' .strayJump)
  /-- What is not part of a body may be run at any time. -/
  alone : ∀ {s} s', (G i).part (.stmt s) → (s' ∈ s.initial ∨ s' ∈ s.branches) → (G i).ready s'
  /-- Once its functions are bound, all of a body may be run. -/
  enters : ∀ {α : Type} {P : α → Prop} {x : Eval σ α} {y : Eval τ α} (body : List Stmt),
    (∀ s ∈ body, (G i).part (.stmt s)) →
    (∀ j, (G j).Within (G i) → (∀ s ∈ body, (G j).ready s) → Rel j .body P x y) →
      Rel i .body P (do hoistFunctions host body; x) (do hoistFunctions host' body; y)
  inBlockScope : ∀ {α : Type} {P : α → Prop} {x : ScopeId → Eval σ α} {y : ScopeId → Eval τ α},
    (∀ j, (G j).Within (G i) → ∀ id, Rel j .statement P (x id) (y id)) →
      Rel i .statement P (inBlockScope x) (inBlockScope y)
  /-- The body of a call is run on the ground that the function comes from. -/
  inCall : ∀ {x : Eval σ Value} {y : Eval τ Value} (callee : Value) (c : Closure)
    (args : List Value), K c →
    (∀ j, (G j).part (.function c.def_) → (∀ s ∈ c.def_.body, (G j).part (.stmt s)) →
      (G j).file c.filename → Rel j .body any x y) →
      Rel i .expression any (inCallFrame host callee c args x)
        (inCallFrame host' callee c args y)
  /-- What a script reads as a program is run on a ground of its own. -/
  runFile : ∀ (name : String) {x : Program → Eval σ Value} {y : Program → Eval τ Value},
    (∀ j p, (G j).part (.program p) → (G j).file (some name) → Rel j .body any (x p) (y p)) →
      Rel i .expression any (Evaluation.runFile host name x) (Evaluation.runFile host' name y)
  method : ∀ receiver key args, Rel i .expression any
    (located host (Library.method receiver key args))
    (located host' (Library.method receiver key args))
  located : ∀ {α : Type} {P : α → Prop} {x : Eval σ α} {y : Eval τ α},
    Rel i .expression P x y → Rel i .expression P (located host x) (located host' y)
  guarded : ∀ {P : Completion → Prop} {x : Eval σ Completion} {y : Eval τ Completion}
    {handler : Option CatchClause} {finalizer : Option (List Stmt)}
    {handle : CatchClause → Value → Eval σ Completion}
    {handle' : CatchClause → Value → Eval τ Completion}
    {last : List Stmt → Eval σ Completion} {last' : List Stmt → Eval τ Completion},
    Rel i .statement P x y →
    (∀ c ∈ handler, ∀ v, Rel i .statement P (handle c v) (handle' c v)) →
    (∀ body ∈ finalizer, Rel i .statement P (last body) (last' body)) →
      Rel i .statement P (guarded host x (handler.map handle) (finalizer.map last))
        (guarded host' y (handler.map handle') (finalizer.map last'))

namespace Sequencing

variable {K : Closure → Prop}
  {Rel : Level → {α : Type} → (α → Prop) → Eval σ α → Eval τ α → Prop} (h : Sequencing K Rel)
  {l : Level}
include h

protected theorem pure {α : Type} {P : α → Prop} (a : α) (ha : P a) :
    Rel l P (pure a) (pure a) :=
  h.step (isStep_pure a ha)

protected theorem result {α : Type} (a : α) : Rel l any (Pure.pure a) (Pure.pure a) :=
  h.pure a trivial

protected theorem liftFault {α : Type} {P : α → Prop} (r : Except Fault α)
    (hr : ∀ a, r = .ok a → P a) : Rel .expression P (liftFault r) (liftFault r) := by
  cases r with
  | ok a => exact h.pure a (hr a rfl)
  | error f => exact h.fault P f

protected theorem ask {α : Type} (f : Heap → Except Fault α)
    (hf : ∀ h, f h.contents = f h) :
    Rel .expression (fun a => ∃ heap, f heap = .ok a) (ask f) (ask f) := by
  refine h.bind (h.step (isStep_look f hf)) fun r ⟨heap, hr⟩ => ?_
  exact h.liftFault r fun a ha => ⟨heap, by rw [← hr, ha]⟩

protected theorem asked {α : Type} (f : Heap → Except Fault α)
    (hf : ∀ h, f h.contents = f h) : Rel .expression any (ask f) (ask f) :=
  h.weaken (h.ask f hf) fun _ _ => trivial

protected theorem allocate (o : Object) (ho : o.callable? = none) :
    Rel l any (allocate o) (allocate o) :=
  h.step (isStep_allocate o fun c hc => by rw [ho] at hc; cases hc)

protected theorem newArray (elements : Array Value) :
    Rel l any (newArray elements) (newArray elements) :=
  h.allocate _ rfl

protected theorem newError (kind : ErrorKind) (message : String) :
    Rel l any (newError kind message) (newError kind message) :=
  h.allocate _ rfl

protected theorem map {α β : Type} {P : α → Prop} {x : Eval σ α} {y : Eval τ α} (f : α → β)
    (hx : Rel l P x y) : Rel l any (f <$> x) (f <$> y) := by
  rw [map_eq_pure_bind, map_eq_pure_bind]
  exact h.bind hx fun a _ => h.pure (f a) trivial

protected theorem makeClosure (f : FunctionDef) (hf : ∀ scope filename, K ⟨f, scope, filename⟩) :
    Rel l any (makeClosure f) (makeClosure f) := by
  refine h.bind (h.step isStep_frame) fun frame _ => h.step (isStep_allocate _ fun c hc => ?_)
  cases hc
  exact hf frame.scope frame.filename

protected theorem ownProperty (id : ObjectId) (key : String) :
    Rel .expression any (ownProperty id key) (ownProperty id key) :=
  h.weaken (h.step (isStep_look _ (by simp))) fun _ _ => trivial

protected theorem frame (T : Part → Prop) :
    Rel l (fun f => (Ground.of T).file f.filename ∧ (Ground.of T).line f.line) frame frame :=
  h.weaken (h.step isStep_frame) fun _ _ => ⟨trivial, trivial⟩

protected theorem raiseOn {G : Ground} (host : Host σ) (host' : Host τ) {α : Type} {P : α → Prop}
    (frame : Rel .expression (fun f => G.file f.filename ∧ G.line f.line) frame frame)
    (throwAt : ∀ v {file line}, G.file file → G.line line →
      Rel .expression P (throwAt host v file line) (throwAt host' v file line))
    (kind : ErrorKind) (message : String) :
    Rel .expression P (raise host kind message) (raise host' kind message) := by
  refine h.bind (h.newError kind message) fun v _ => ?_
  exact h.bind frame fun frame hframe => throwAt v hframe.1 hframe.2

protected theorem raise (host : Host σ) (host' : Host τ) {α : Type} {P : α → Prop}
    (throwAt : ∀ v file line,
      Rel .expression P (throwAt host v file line) (throwAt host' v file line))
    (kind : ErrorKind) (message : String) :
    Rel .expression P (raise host kind message) (raise host' kind message) :=
  h.raiseOn host host' (h.frame anyPart) (fun v _ _ _ _ => throwAt v _ _) kind message

end Sequencing

protected theorem Dealing.raise {K : Closure → Prop} {G : Ground} {host : Host σ} {host' : Host τ}
    {Rel : Level → {α : Type} → (α → Prop) → Eval σ α → Eval τ α → Prop}
    (h : Dealing K G host host' Rel) {α : Type} (P : α → Prop) (kind : ErrorKind)
    (message : String) : Rel .expression P (raise host kind message) (raise host' kind message) :=
  h.raiseOn host host' h.frame (h.throwAt P) kind message

/-- What relates every single step to itself and the dealings with two hosts relates strict
warnings and the statistics of collections. -/
protected theorem Stepping.dealing {K : Closure → Prop} {G : Ground} {host : Host σ}
    {host' : Host τ} {Rel : Level → {α : Type} → (α → Prop) → Eval σ α → Eval τ α → Prop}
    (h : Stepping K Rel)
    (frame : Rel .expression (fun f => G.file f.filename ∧ G.line f.line) frame frame)
    (throwAt : ∀ {α : Type} (P : α → Prop) (v : Value) {file : Option String} {line : Nat},
      G.file file → G.line line →
        Rel .expression P (throwAt host v file line) (throwAt host' v file line))
    (report : ∀ r, r.isWarning = true → Rel .expression any (report host r) (report host' r))
    (write : ∀ text, Rel .expression any (Library.write host text) (Library.write host' text))
    (quit : ∀ {α : Type} (P : α → Prop) (code : Option Int32),
      Rel .expression P (Library.quit host code) (Library.quit host' code))
    (readFile : ∀ name,
      Rel .expression any (Library.readFile host name) (Library.readFile host' name))
    (accesses : ∀ m, m.isAccess = true → Rel .expression any (observe host m) (observe host' m)) :
    Dealing K G host host' Rel where
  toSequencing := h.toSequencing
  frame := frame
  throwAt := throwAt
  write := write
  quit := quit
  readFile := readFile
  accesses := accesses
  strictWarning message := by
    refine h.bind (h.freeStep isFreeStep_isStrict) fun isStrict _ => ?_
    split
    · exact h.bind (h.step isStep_frame) fun frame _ => report _ rfl
    · exact h.result _
  statistics := h.bind (h.freeStep isFreeStep_collect) fun statistics _ => write _

end Evaluation

end ScriptShell
