import Mathlib.Data.Option.Basic
import ScriptShell.Proofs.Evaluation.Everywhere
import ScriptShell.Proofs.Evaluation.Running

namespace ScriptShell.Evaluation

variable {σ α β : Type}

/-- What evaluations promise: which states they take and give back, how they may end early, and
how far the states before and after may differ. -/
structure Contract (σ : Type) where
  good : State σ → Prop
  ends : Stop → State σ → Prop
  moves : Level → State σ → State σ → Prop

namespace Contract

def Met (C : Contract σ) (l : Level) (P : α → Prop) (s : State σ) :
    EStateM.Result Stop (State σ) α → Prop
  | .ok a t => P a ∧ C.good t ∧ C.moves l s t
  | .error e t => C.ends e t ∧ C.moves l s t

def Reaches (C : Contract σ) (l : Level) (s t : State σ) : Prop :=
  C.good t ∧ C.moves l s t

def Holds (C : Contract σ) (l : Level) (P : α → Prop) (x : Eval σ α) : Prop :=
  ∀ s, C.good s → C.Met l P s (x s)

def levelOf : Level → Level
  | .expression => .expression
  | .statement | .body => .statement

def rel (C : Contract σ) (l : Level) {α : Type} (P : α → Prop) (x _ : Eval σ α) : Prop :=
  C.Holds (levelOf l) P x

/-- What keeps a contract along the steps that a script takes by itself, where they bind no names. -/
structure Steady (C : Contract σ) (T : Part → Prop) : Prop where
  refl : ∀ l s, C.moves l s s
  trans : ∀ {l s t u}, C.moves l s t → C.moves l t u → C.moves l s u
  relax : ∀ {s t}, C.moves .expression s t → C.moves .statement s t
  definedIn : ∀ {s}, C.good s → s.runtime.heap.DefinedIn T
  nameless : ∀ {α : Type} {P : α → Prop} {g : Runtime → Frame → α × Runtime × Frame}
    {s : State σ}, Keeping (definedBy T) P g → Nameless g → C.good s →
      C.Reaches .expression s ⟨(g s.runtime s.frame).2.1, (g s.runtime s.frame).2.2, s.host⟩
  thrown : ∀ {s} v file line, C.good s → C.ends (.thrown v file line) s
  caught : ∀ {s v file line}, C.ends (.thrown v file line) s → C.good s
  fault : ∀ {s} f, C.good s → C.ends (.fault f) s

/-- What keeps a contract along all steps that a script takes by itself. -/
structure Lawful (C : Contract σ) (T : Part → Prop) : Prop extends C.Steady T where
  step : ∀ {α : Type} {P : α → Prop} {g : Runtime → Frame → α × Runtime × Frame} {s : State σ},
    Keeping (definedBy T) P g → C.good s →
      C.Reaches .expression s ⟨(g s.runtime s.frame).2.1, (g s.runtime s.frame).2.2, s.host⟩
  nameless := fun hg _ hs => step hg hs

/-- What keeps a contract in whatever frame a script goes on. -/
structure Portable (C : Contract σ) (T : Part → Prop) : Prop extends C.Lawful T where
  inFrame : ∀ {s} f, C.good s → C.good (s.inFrame f)
  endsInFrame : ∀ {e s} f, C.ends e s → C.ends e (s.inFrame f)
  fromScope : ∀ {s t} scope, C.moves .statement (s.inScope scope) t →
    C.moves .statement s (t.inScope s.frame.scope)
  fromFrame : ∀ {s t} f, C.moves .statement (s.inFrame f) t →
    C.moves .expression s (t.inFrame s.frame)

variable {C : Contract σ} {T : Part → Prop} {l : Level} {P : α → Prop} {Q : β → Prop}

theorem Met.overridden {P : Completion → Prop} {s : State σ}
    {before : State σ → EStateM.Result Stop (State σ) Completion}
    {r : EStateM.Result Stop (State σ) Completion} (hr : C.Met .statement P s r)
    (hbefore : ∀ t, C.good t → C.moves .statement s t → C.Met .statement P s (before t)) :
    C.Met .statement P s (Evaluation.overridden before r) := by
  cases r with
  | error e t => exact hr
  | ok c t =>
    cases c with
    | normal => exact hbefore t hr.2.1 hr.2.2
    | return_ | break_ | continue_ => exact hr

theorem Met.inState {D : Contract σ} {l' : Level} {f : State σ → State σ} {s s' : State σ}
    {r : EStateM.Result Stop (State σ) α} (hr : D.Met l' P s' r)
    (hgood : ∀ t, D.moves l' s' t → D.good t → C.good (f t))
    (hends : ∀ e t, D.moves l' s' t → D.ends e t → C.ends e (f t))
    (hmoves : ∀ t, D.moves l' s' t → C.moves l s (f t)) :
    C.Met l P s (inState f r) := by
  cases r with
  | ok a t => exact ⟨hr.1, hgood t hr.2.2 hr.2.1, hmoves t hr.2.2⟩
  | error e t => exact ⟨hends e t hr.2 hr.1, hmoves t hr.2⟩

def Announces (C : Contract σ) (host : Host σ) : Prop :=
  ∀ {s} v file line, C.good s → C.Reaches .expression s (s.observed host (.raised v file line))

namespace Steady

variable (h : C.Steady T)
include h

protected theorem after {s t : State σ} {r : EStateM.Result Stop (State σ) α}
    (hst : C.moves l s t) (hr : C.Met l P t r) : C.Met l P s r := by
  cases r with
  | ok a u => exact ⟨hr.1, hr.2.1, h.trans hst hr.2.2⟩
  | error e u => exact ⟨hr.1, h.trans hst hr.2⟩

protected theorem bind {x : Eval σ α} {f : α → Eval σ β} (hx : C.Holds l P x)
    (hf : ∀ a, P a → C.Holds l Q (f a)) : C.Holds l Q (x >>= f) := by
  intro s hs
  have hxs := hx s hs
  rw [bind_apply]
  cases hr : x s with
  | ok a t =>
    rw [hr] at hxs
    obtain ⟨ha, ht, hst⟩ := hxs
    exact h.after hst (hf a ha t ht)
  | error e t =>
    rw [hr] at hxs
    exact hxs

protected theorem keeping {g : Runtime → Frame → α × Runtime × Frame}
    (hg : Keeping (definedBy T) P g) (hnames : Nameless g) :
    C.Holds .expression P (Evaluation.step g) :=
  fun _ hs => ⟨hg.result _ _ (h.definedIn hs), h.nameless hg hnames hs⟩

protected theorem freeStep {x : ∀ σ, Eval σ α} (hx : IsFreeStep (definedBy T) P x) :
    C.Holds .expression P (x σ) := by
  obtain ⟨g, hx, hg, -, hnames⟩ := hx
  rw [hx]
  exact h.keeping hg hnames

protected theorem setLine (line : Nat) : C.Holds .expression any (setLine line) :=
  h.keeping (keeping_lineStep line) (nameless_lineStep line)

protected theorem relaxed {x : Eval σ α} (hx : C.Holds .expression P x) :
    C.Holds .statement P x := by
  intro s hs
  have hxs := hx s hs
  cases hr : x s with
  | ok a t =>
    rw [hr] at hxs
    exact ⟨hxs.1, hxs.2.1, h.relax hxs.2.2⟩
  | error e t =>
    rw [hr] at hxs
    exact ⟨hxs.1, h.relax hxs.2⟩

protected theorem sequencing : Sequencing (definedBy T) C.rel where
  relax := h.relaxed
  settle hx := hx
  weaken := by
    intro l α P Q x _ hx hPQ s hs
    have hxs := hx s hs
    cases hr : x s with
    | ok a t =>
      rw [hr] at hxs
      exact ⟨hPQ a hxs.1, hxs.2⟩
    | error e t =>
      rw [hr] at hxs
      exact hxs
  bind := h.bind
  step {l} _ _ _ hx := by
    cases l with
    | expression => exact h.freeStep hx.free
    | statement | body => exact h.relaxed (h.freeStep hx.free)
  fault _ f s hs := ⟨h.fault f hs, h.refl _ s⟩

protected theorem stepping : Stepping (definedBy T) C.rel where
  toSequencing := h.sequencing
  freeStep := h.freeStep

protected theorem throwAt {host : Host σ} (raises : C.Announces host) (v : Value)
    (file : Option String) (line : Nat) : C.Holds .expression P (throwAt host v file line) := by
  intro s hs
  obtain ⟨hgood, hmoves⟩ := raises v file line hs
  exact ⟨h.thrown v file line hgood, hmoves⟩

protected theorem raise {host : Host σ} (raises : C.Announces host) (kind : ErrorKind)
    (message : String) : C.Holds .expression P (raise host kind message) :=
  h.sequencing.raise host host (h.throwAt raises) kind message

protected theorem located {host : Host σ} (raises : C.Announces host) {x : Eval σ α}
    (hx : C.Holds .expression P x) : C.Holds .expression P (located host x) := by
  intro s hs
  have hxs := hx s hs
  rw [located_apply]
  split
  case h_1 v t hr =>
    rw [hr] at hxs
    exact h.after hxs.2 (h.throwAt raises v _ _ t (h.caught hxs.1))
  case h_2 => exact hxs

protected theorem handled {host : Host σ} {handler : Option (Value → Eval σ Completion)}
    {P : Completion → Prop} {s : State σ} {r : EStateM.Result Stop (State σ) Completion}
    (begins : ∀ t, C.good t → C.Reaches .statement t (t.observed host .handlerBegins))
    (hhandler : ∀ handle ∈ handler, ∀ v, C.Holds .statement P (handle v))
    (hr : C.Met .statement P s r) : C.Met .statement P s (handled host handler r) := by
  unfold handled
  split
  case h_1 handle v file line t =>
    obtain ⟨ht, hmoves⟩ := begins t (h.caught hr.1)
    exact h.after (h.trans hr.2 hmoves) (hhandler handle rfl v _ ht)
  case h_2 => exact hr

protected theorem finished {host : Host σ} {finalizer : Option (Eval σ Completion)}
    {P : Completion → Prop} {s : State σ} {r : EStateM.Result Stop (State σ) Completion}
    (begins : ∀ t, C.good t → C.Reaches .statement t (t.observed host .finalizerBegins))
    (hfinalizer : ∀ last ∈ finalizer, C.Holds .statement P last)
    (hr : C.Met .statement P s r) : C.Met .statement P s (finished host finalizer r) := by
  unfold finished
  split
  case h_1 last c t =>
    obtain ⟨ht, hmoves⟩ := begins t hr.2.1
    have run := h.after (h.trans hr.2.2 hmoves) (hfinalizer last rfl _ ht)
    exact run.overridden fun u hu hsu => ⟨hr.1, hu, hsu⟩
  case h_2 last v file line t =>
    obtain ⟨ht, hmoves⟩ := begins t (h.caught hr.1)
    have run := h.after (h.trans hr.2 hmoves) (hfinalizer last rfl _ ht)
    exact run.overridden fun u hu hsu => ⟨h.thrown v file line hu, hsu⟩
  case h_3 => exact hr

protected theorem guarded {host : Host σ} {body : Eval σ Completion}
    {handler : Option (Value → Eval σ Completion)} {finalizer : Option (Eval σ Completion)}
    {P : Completion → Prop}
    (handlerBegins : ∀ t, C.good t → C.Reaches .statement t (t.observed host .handlerBegins))
    (finalizerBegins : ∀ t, C.good t → C.Reaches .statement t (t.observed host .finalizerBegins))
    (hbody : C.Holds .statement P body)
    (hhandler : ∀ handle ∈ handler, ∀ v, C.Holds .statement P (handle v))
    (hfinalizer : ∀ last ∈ finalizer, C.Holds .statement P last) :
    C.Holds .statement P (guarded host body handler finalizer) := by
  intro s hs
  rw [guarded_apply]
  exact h.finished finalizerBegins hfinalizer (h.handled handlerBegins hhandler (hbody s hs))

end Steady

protected theorem Lawful.naming (h : C.Lawful T) : Naming (definedBy T) C.rel where
  toSequencing := h.sequencing
  naming {l _ P x} hx := by
    have keeps : C.Holds .expression P (x σ) := by
      obtain ⟨g, hx, hg, -⟩ := hx
      rw [hx]
      exact fun _ hs => ⟨hg.result _ _ (h.definedIn hs), h.step hg hs⟩
    cases l with
    | expression => exact keeps
    | statement | body => exact h.relaxed keeps

namespace Portable

variable (h : C.Portable T)
include h

protected theorem inScope {x : Eval σ α} (id : ScopeId) (hx : C.Holds .statement P x) :
    C.Holds .statement P (inScope id x) := by
  intro s hs
  have hxs := hx (s.inScope (some id)) (h.inFrame _ hs)
  rw [inScope_apply]
  exact hxs.inState (fun _ _ => h.inFrame _) (fun _ _ _ => h.endsInFrame _) fun _ => h.fromScope _

protected theorem runInFrame {x : Eval σ α} (f : Frame) (hx : C.Holds .statement P x) :
    C.Holds .expression P (Evaluation.inFrame f x) := by
  intro s hs
  have hxs := hx (s.inFrame f) (h.inFrame _ hs)
  rw [inFrame_apply]
  exact hxs.inState (fun _ _ => h.inFrame _) (fun _ _ _ => h.endsInFrame _) fun _ => h.fromFrame _

end Portable

def Stops (C : Contract σ) (s t : State σ) : Prop :=
  C.ends .aborted t ∧ C.moves .expression s t

/-- What keeps a contract along the dealings with a host, loops apart. -/
structure Serves (C : Contract σ) (T : Part → Prop) (host : Host σ) : Prop
    extends C.Steady T where
  report : ∀ {s} r, r.isWarning = true → C.good s →
    C.Reaches .expression s (s.tell (host.report r))
  write : ∀ {s} text, C.good s → C.Reaches .expression s (s.tell (host.write text))
  quit : ∀ {s} code, C.good s → C.Stops s (s.quitted host code)
  wanting : ∀ {s name}, host.file name = .unknown → C.good s → C.ends (.wanting name) s
  announces : C.Announces host
  accessed : ∀ {s m}, m.isAccess = true → C.good s →
    C.Reaches .expression s (s.observed host m)

/-- What takes a contract to a contract for a call and back. -/
structure Deepens (C D : Contract σ) (host : Host σ) : Prop where
  enter : ∀ {s}, C.good s → s.isTooDeep = false → D.good (s.entered host)
  leave : ∀ {s t}, C.good s → D.moves .expression (s.entered host) t → D.good t →
    C.good (t.left host)
  stop : ∀ {s t e}, C.good s → D.moves .expression (s.entered host) t → D.ends e t →
    C.ends e (t.left host)
  moves : ∀ {s t}, D.moves .expression (s.entered host) t → C.moves .expression s (t.left host)

/-- What keeps a contract along whole runs. -/
structure Keeps (C : Contract σ) (T : Part → Prop) (host : Host σ) : Prop
    extends C.Portable T, C.Serves T host where
  told : ∀ {s m}, Occurs T m → C.good s → C.Reaches .expression s (s.observed host m)
  announces := fun {_} v file line hs => told (m := .raised v file line) trivial hs
  accessed := fun hm hs => told (occurs_of_isAccess hm) hs
  hereditary : Hereditary T
  accepted : ∀ {options source p w}, Program.ofSource options source = .ok (p, w) →
    T (.program p)
  outOfFuel : ∀ {s}, C.good s → C.ends .outOfFuel s
  lastValue : ∀ s v, C.moves .statement s (s.inFrame { s.frame with lastValue := v })
  goesOn : ∀ {s} line, C.good s → s.runtime.tellsBranches = true →
    s.answer host line ≠ .abort → C.Reaches .statement s (s.notified host line)
  aborts : ∀ {s} line, C.good s → s.runtime.tellsBranches = true →
    s.answer host line = .abort → C.Stops s (s.notified host line)
  deepens : C.Deepens C host

variable {host : Host σ}

/-- What stays in force along every step and all dealings with a host, in whatever frame. -/
structure Invariant (good : State σ → Prop) (T : Part → Prop) (host : Host σ) : Prop where
  definedIn : ∀ {s}, good s → s.runtime.heap.DefinedIn T
  step : ∀ {α : Type} {P : α → Prop} {g : Runtime → Frame → α × Runtime × Frame} {s : State σ},
    Keeping (definedBy T) P g → good s →
      good ⟨(g s.runtime s.frame).2.1, (g s.runtime s.frame).2.2, s.host⟩
  inFrame : ∀ {s} f, good s → good (s.inFrame f)
  report : ∀ {s} r, r.isWarning = true → good s → good (s.tell (host.report r))
  write : ∀ {s} text, good s → good (s.tell (host.write text))
  quitted : ∀ {s} code, good s → good (s.quitted host code)
  told : ∀ {s m}, Occurs T m → good s → good (s.observed host m)
  notified : ∀ {s} line, good s → good (s.notified host line)
  entered : ∀ {s}, good s → good (s.entered host)
  left : ∀ {s}, good s → good (s.left host)
  hereditary : Hereditary T
  accepted : ∀ {options source p w}, Program.ofSource options source = .ok (p, w) →
    T (.program p)

/-- An invariant is a contract that asks for the same of every state, however a run ends. -/
theorem Invariant.keeps {good : State σ → Prop} (h : Invariant good T host) :
    (⟨good, fun _ => good, fun _ _ _ => True⟩ : Contract σ).Keeps T host where
  refl _ _ := trivial
  trans _ _ := trivial
  relax _ := trivial
  definedIn := h.definedIn
  step hg hs := ⟨h.step hg hs, trivial⟩
  thrown _ _ _ hs := hs
  caught hs := hs
  fault _ hs := hs
  inFrame := h.inFrame
  endsInFrame := h.inFrame
  fromScope _ _ := trivial
  fromFrame _ _ := trivial
  report r hr hs := ⟨h.report r hr hs, trivial⟩
  write text hs := ⟨h.write text hs, trivial⟩
  quit code hs := ⟨h.quitted code hs, trivial⟩
  wanting _ hs := hs
  told hm hs := ⟨h.told hm hs, trivial⟩
  hereditary := h.hereditary
  accepted := h.accepted
  outOfFuel hs := hs
  lastValue _ _ := trivial
  goesOn line hs _ _ := ⟨h.notified line hs, trivial⟩
  aborts line hs _ _ := ⟨h.notified line hs, trivial⟩
  deepens := {
    enter := fun hs _ => h.entered hs
    leave := fun _ _ ht => h.left ht
    stop := fun _ _ ht => h.left ht
    moves := fun _ => trivial }

theorem Deepens.holds {D : Contract σ} (hD : C.Deepens D host) {refused x : Eval σ α}
    (hrefused : C.Holds .expression P refused) (hx : D.Holds .expression P x) :
    C.Holds .expression P (do if ← tooDeep then refused else oneDeeper host x) := by
  intro s hs
  change C.Met .expression P s ((if s.isTooDeep = true then refused else oneDeeper host x) s)
  cases hdeep : s.isTooDeep with
  | true => exact hrefused s hs
  | false =>
    have hxs := hx (s.entered host) (hD.enter hs hdeep)
    change C.Met .expression P s (oneDeeper host x s)
    rw [oneDeeper_apply]
    exact hxs.inState (fun _ => hD.leave hs) (fun _ _ => hD.stop hs) fun _ => hD.moves

theorem Serves.holds_report (h : C.Serves T host) (r : Report) (hr : r.isWarning = true) :
    C.Holds .expression any (Evaluation.report host r) :=
  fun _ hs => ⟨trivial, h.report r hr hs⟩

protected theorem Serves.readFile (h : C.Serves T host) (name : String) :
    C.Holds .expression (fun content => host.file name = .bytes content)
      (Library.readFile host name) := by
  unfold Library.readFile
  cases hname : host.file name with
  | bytes content => exact h.sequencing.pure (l := .expression) content rfl
  | failed e => exact h.raise h.announces _ _
  | unknown => exact fun s hs => ⟨h.wanting hname hs, h.refl _ s⟩

protected theorem Serves.dealing (h : C.Serves T host) :
    Dealing (definedBy T) (.of T) host host C.rel := by
  refine h.stepping.dealing (h.sequencing.frame T)
    (fun _ v _ _ _ _ => h.throwAt h.announces v _ _) h.holds_report
    (fun text s hs => ⟨trivial, h.write text hs⟩) (fun _ code s hs => h.quit code hs)
    (fun name => ?_) fun _ hm _ hs => ⟨trivial, h.accessed hm hs⟩
  exact h.sequencing.weaken (h.readFile name) fun _ _ => trivial

/-- Going round a loop again keeps to the contract if the news of it does. -/
protected theorem Steady.branch (h : C.Steady T) (line : Nat)
    (goesOn : ∀ {s}, C.good s → s.runtime.tellsBranches = true →
      s.answer host line ≠ .abort → C.Reaches .statement s (s.notified host line))
    (aborts : ∀ {s}, C.good s → s.runtime.tellsBranches = true →
      s.answer host line = .abort → C.Stops s (s.notified host line)) :
    C.Holds .statement any (branch host line) := by
  intro s hs
  cases ht : s.runtime.tellsBranches with
  | false =>
    rw [branch_silent host line s ht]
    exact ⟨trivial, hs, h.refl _ s⟩
  | true =>
    rw [branch_apply host line s ht]
    cases ha : s.answer host line with
    | continue_ => exact ⟨trivial, goesOn hs ht (by rw [ha]; decide)⟩
    | collect =>
      obtain ⟨hgood, hmoves⟩ := goesOn hs ht (by rw [ha]; decide)
      have collects := h.relaxed (h.freeStep (isStep_maybeCollect (K := definedBy T)).free)
      exact h.after hmoves (collects _ hgood)
    | abort =>
      obtain ⟨hend, hmoves⟩ := aborts hs ht ha
      exact ⟨hend, h.relax hmoves⟩

/-- A contract that is kept along whole runs is a likeness, the same on every ground. -/
protected theorem Keeps.everywhere (h : C.Keeps T host) (extra : Nat) :
    Everywhere T host host extra C.rel where
  toDealing := h.dealing
  hereditary := h.hereditary
  naming := h.naming.naming
  body hx := hx
  unlocated _ v s hs := ⟨h.thrown v none 0 hs, h.refl _ s⟩
  setLine := h.setLine
  openUnit name := openUnit_alike h.stepping h.dealing h.holds_report name (h.readFile name)
    fun _ _ _ _ _ => h.accepted
  outOfFuel _ _ _ s hs := ⟨h.outOfFuel hs, h.refl _ s⟩
  setLastValue v s hs := ⟨trivial, h.inFrame _ hs, h.lastValue s v⟩
  branch line := h.branch line (h.goesOn line) (h.aborts line)
  told m hm s hs := ⟨trivial, h.told hm hs⟩
  inScope id hx := h.toPortable.inScope id hx
  inFrame f hx := h.runInFrame f hx
  oneDeeper _ _ hrefused hx := h.deepens.holds hrefused hx
  located hx := h.located h.announces hx
  guarded hx hhandler hfinalizer := by
    refine h.guarded (fun t ht => ?_) (fun t ht => ?_) hx (Option.forall_mem_map.mpr hhandler)
      (Option.forall_mem_map.mpr hfinalizer)
    · obtain ⟨hgood, hmoves⟩ := h.told (m := .handlerBegins) trivial ht
      exact ⟨hgood, h.relax hmoves⟩
    · obtain ⟨hgood, hmoves⟩ := h.told (m := .finalizerBegins) trivial ht
      exact ⟨hgood, h.relax hmoves⟩

protected theorem Keeps.likeness (h : C.Keeps T host) (extra : Nat) (i : Unit) :
    Likeness (definedBy T) (fun _ => .of T) host host extra (fun _ => C.rel) i :=
  (h.everywhere extra).likeness i

end Contract

end ScriptShell.Evaluation
