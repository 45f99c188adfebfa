import Mathlib.Data.Option.Basic
import ScriptShell.Proofs.Evaluation.Alike
import ScriptShell.Proofs.Evaluation.Running
import ScriptShell.Proofs.Host.Trace

namespace ScriptShell.Evaluation

variable {σ α β ι : Type}

/-- An exception was raised at some moment, inside a statement of a ground and at a unit and a line
of the same ground. -/
def RaisedOn (G : ι → Ground) (v : Value) (file : Option String) (line : Nat)
    (trace : List Event) : Prop :=
  ∃ i s calls runtime frame earlier later,
    trace = later ++ .moment (.raised v file line) runtime frame :: earlier ∧
      Event.running earlier = some s :: calls ∧ (G i).part (.stmt s) ∧ (G i).file file ∧
        (G i).line line

theorem RaisedOn.of_suffix {G : ι → Ground} {v : Value} {file : Option String} {line : Nat}
    {trace trace' : List Event} (h : RaisedOn G v file line trace) (hs : trace <:+ trace') :
    RaisedOn G v file line trace' := by
  obtain ⟨i, s, calls, runtime, frame, earlier, later, rfl, rest⟩ := h
  obtain ⟨front, rfl⟩ := hs
  exact ⟨i, s, calls, runtime, frame, earlier, front ++ later, by rw [List.append_assoc], rest⟩

def fromGround (G : ι → Ground) (c : Closure) : Prop :=
  ∃ i, (G i).part (.function c.def_) ∧ (G i).file c.filename

structure StandsOn (G : ι → Ground) (i : ι) (s : State (σ × List Event)) : Prop where
  file : (G i).file s.frame.filename
  functions : s.runtime.heap.AllFunctions (fromGround G)

/-- Evaluation takes place inside a statement and at a line of the ground. -/
structure RunsOn (G : ι → Ground) (i : ι) (s : State (σ × List Event)) : Prop
    extends StandsOn G i s where
  line : (G i).line s.frame.line
  inside : ∃ stmt calls, Event.running s.host.2 = some stmt :: calls ∧ (G i).part (.stmt stmt)

def Starts (G : ι → Ground) (i : ι) : Level → State (σ × List Event) → Prop
  | .body, s => StandsOn G i s
  | _, s => RunsOn G i s

def Proceeds (G : ι → Ground) (i : ι) : Level → State (σ × List Event) → State (σ × List Event) →
    Prop
  | .body, s, t => RunsOn G i t ∨ StandsOn G i t ∧ t.frame.line = s.frame.line ∧
      Event.running t.host.2 = Event.running s.host.2
  | _, _, t => RunsOn G i t

/-- Evaluation leaves the statements of outer calls alone. -/
structure Leads (G : ι → Ground) (i : ι) (l : Level) (s t : State (σ × List Event)) : Prop where
  trace : s.host.2 <:+ t.host.2
  calls : (Event.running t.host.2).tail = (Event.running s.host.2).tail
  proceeds : Proceeds G i l s t

/-- Whether an evaluation ends on its ground, and its exception was raised on some ground. Where
exceptions may be `bare`, it may also have been thrown without a unit and a line. -/
def EndsOn (G : ι → Ground) (bare : Prop) (i : ι) (l : Level) (P : α → Prop)
    (s : State (σ × List Event)) : EStateM.Result Stop (State (σ × List Event)) α → Prop
  | .ok a t => P a ∧ Leads G i l s t
  | .error e t => t.runtime.heap.AllFunctions (fromGround G) ∧
      ∀ v file line, e = .thrown v file line → Leads G i .statement s t ∧
        (RaisedOn G v file line t.host.2 ∨ bare ∧ file = none ∧ line = 0)

def Originates (G : ι → Ground) (bare : Prop) (i : ι) (l : Level) (P : α → Prop)
    (x : Eval (σ × List Event) α) : Prop :=
  ∀ s, Starts G i l s → EndsOn G bare i l P s (x s)

def Originates.rel (G : ι → Ground) (bare : Prop) (i : ι) (l : Level) {α : Type} (P : α → Prop)
    (x _ : Eval (σ × List Event) α) : Prop :=
  Originates G bare i l P x

variable {G : ι → Ground} {bare : Prop} {i : ι} {l : Level} {P : α → Prop} {Q : β → Prop}
  {s t u : State (σ × List Event)}

theorem Starts.stands (h : Starts G i l s) : StandsOn G i s := by
  cases l with
  | expression | statement => exact h.toStandsOn
  | body => exact h

/-- What only adds to the trace, and lets no statement begin and no call begin or end, changes
nothing about where evaluation takes place. -/
structure SamePlace (s t : State (σ × List Event)) : Prop where
  file : t.frame.filename = s.frame.filename
  line : t.frame.line = s.frame.line
  trace : s.host.2 <:+ t.host.2
  running : Event.running t.host.2 = Event.running s.host.2

theorem SamePlace.still (hfile : t.frame.filename = s.frame.filename)
    (hline : t.frame.line = s.frame.line) (htrace : t.host.2 = s.host.2) : SamePlace s t :=
  ⟨hfile, hline, htrace ▸ List.suffix_rfl, congrArg Event.running htrace⟩

theorem SamePlace.cons {e : Event} (hframe : t.frame = s.frame) (htrace : t.host.2 = e :: s.host.2)
    (he : Event.running (e :: s.host.2) = Event.running s.host.2) : SamePlace s t :=
  ⟨congrArg Frame.filename hframe, congrArg Frame.line hframe, htrace ▸ List.suffix_cons _ _,
    htrace ▸ he⟩

theorem SamePlace.trans {u : State (σ × List Event)} (hst : SamePlace s t) (htu : SamePlace t u) :
    SamePlace s u :=
  ⟨htu.file.trans hst.file, htu.line.trans hst.line, hst.trace.trans htu.trace,
    htu.running.trans hst.running⟩

theorem StandsOn.samePlace (h : StandsOn G i s) (hst : SamePlace s t)
    (hfunctions : t.runtime.heap.AllFunctions (fromGround G)) : StandsOn G i t :=
  ⟨hst.file ▸ h.file, hfunctions⟩

theorem RunsOn.samePlace (h : RunsOn G i s) (hst : SamePlace s t)
    (hfunctions : t.runtime.heap.AllFunctions (fromGround G)) : RunsOn G i t where
  toStandsOn := h.toStandsOn.samePlace hst hfunctions
  line := hst.line ▸ h.line
  inside := hst.running ▸ h.inside

namespace Leads

theorem samePlace (h : Starts G i l s) (hst : SamePlace s t)
    (hfunctions : t.runtime.heap.AllFunctions (fromGround G)) : Leads G i l s t where
  trace := hst.trace
  calls := congrArg List.tail hst.running
  proceeds := by
    cases l with
    | expression | statement => exact RunsOn.samePlace h hst hfunctions
    | body => exact .inr ⟨StandsOn.samePlace h hst hfunctions, hst.line, hst.running⟩

theorem of_runs (htrace : s.host.2 <:+ t.host.2)
    (hcalls : (Event.running t.host.2).tail = (Event.running s.host.2).tail) (ht : RunsOn G i t) :
    Leads G i l s t := by
  refine ⟨htrace, hcalls, ?_⟩
  cases l with
  | expression | statement => exact ht
  | body => exact .inl ht

theorem starts (h : Leads G i l s t) : Starts G i l t := by
  cases l with
  | expression | statement => exact h.proceeds
  | body =>
    rcases h.proceeds with hruns | ⟨hstands, -⟩
    · exact hruns.toStandsOn
    · exact hstands

theorem trans (hst : Leads G i l s t) (htu : Leads G i l t u) : Leads G i l s u where
  trace := hst.trace.trans htu.trace
  calls := htu.calls.trans hst.calls
  proceeds := by
    cases l with
    | expression | statement => exact htu.proceeds
    | body =>
      rcases htu.proceeds with hruns | ⟨hstands, hline, hrunning⟩
      · exact .inl hruns
      · rcases hst.proceeds with hruns | ⟨-, hline', hrunning'⟩
        · exact .inl ⟨hstands, hline ▸ hruns.line, hrunning ▸ hruns.inside⟩
        · exact .inr ⟨hstands, hline.trans hline', hrunning.trans hrunning'⟩

theorem runs (hst : Leads G i l s t) (htu : Leads G i .statement t u) :
    Leads G i .statement s u :=
  ⟨hst.trace.trans htu.trace, htu.calls.trans hst.calls, htu.proceeds⟩

theorem settle (hs : RunsOn G i s) (h : Leads G i .body s t) : Leads G i .statement s t := by
  refine ⟨h.trace, h.calls, ?_⟩
  rcases h.proceeds with hruns | ⟨hstands, hline, hrunning⟩
  · exact hruns
  · exact ⟨hstands, hline ▸ hs.line, hrunning ▸ hs.inside⟩

end Leads

structure Within (s t : State (σ × List Event)) : Prop where
  trace : s.host.2 <:+ t.host.2
  calls : (Event.running t.host.2).tail = Event.running s.host.2

namespace Within

theorem leads (hst : Within s t) (htu : Leads G i l t u) : Within s u :=
  ⟨hst.trace.trans htu.trace, htu.calls.trans hst.calls⟩

theorem left {host : Host σ} (hs : RunsOn G i s) (hst : Within s t)
    (hfile : (G i).file t.frame.filename) (hline : (G i).line t.frame.line)
    (hfunctions : t.runtime.heap.AllFunctions (fromGround G)) :
    Leads G i l s (t.left host.traced) := by
  have hrunning : Event.running (t.left host.traced).host.2 = Event.running s.host.2 := hst.calls
  have hruns : RunsOn G i (t.left host.traced) :=
    ⟨⟨hfile, hfunctions⟩, hline, hrunning ▸ hs.inside⟩
  exact .of_runs (hst.trace.trans (List.suffix_cons _ _)) (congrArg List.tail hrunning) hruns

end Within

namespace EndsOn

theorem imp {l' : Level} {Q : α → Prop} {r : EStateM.Result Stop (State (σ × List Event)) α}
    (h : EndsOn G bare i l P s r) (hPQ : ∀ a, P a → Q a)
    (hok : ∀ u, Leads G i l s u → Leads G i l' t u)
    (hthrown : ∀ u, Leads G i .statement s u → Leads G i .statement t u) :
    EndsOn G bare i l' Q t r := by
  cases r with
  | ok a u => exact ⟨hPQ a h.1, hok u h.2⟩
  | error e u =>
    refine ⟨h.1, fun v file line he => ?_⟩
    obtain ⟨hsu, hraised⟩ := h.2 v file line he
    exact ⟨hthrown u hsu, hraised⟩

theorem after {r : EStateM.Result Stop (State (σ × List Event)) α} (hst : Leads G i l s t)
    (h : EndsOn G bare i l P t r) : EndsOn G bare i l P s r :=
  h.imp (fun _ ha => ha) (fun _ => hst.trans) fun _ => hst.runs

theorem error {e : Stop} (he : ∀ v file line, e ≠ .thrown v file line)
    (hfunctions : t.runtime.heap.AllFunctions (fromGround G)) :
    EndsOn G bare i l P s (.error e t) :=
  ⟨hfunctions, fun v file line h => (he v file line h).elim⟩

theorem overridden {P : Completion → Prop}
    {before : State (σ × List Event) → EStateM.Result Stop (State (σ × List Event)) Completion}
    {r : EStateM.Result Stop (State (σ × List Event)) Completion} (hst : Leads G i .statement s t)
    (hr : EndsOn G bare i .statement P t r)
    (hbefore : ∀ u, Leads G i .statement t u → EndsOn G bare i .statement P s (before u)) :
    EndsOn G bare i .statement P s (Evaluation.overridden before r) := by
  cases r with
  | error e u => exact hr.after hst
  | ok c u =>
    cases c with
    | normal => exact hbefore u hr.2
    | return_ | break_ | continue_ => exact hr.after hst

theorem inState {j : ι} {bare' : Prop} {l' : Level}
    {f : State (σ × List Event) → State (σ × List Event)}
    {r : EStateM.Result Stop (State (σ × List Event)) α} (h : EndsOn G bare' j l' P t r)
    (hbare : bare' → bare) (hheap : ∀ u, (f u).runtime.heap = u.runtime.heap)
    (htrace : ∀ u, u.host.2 <:+ (f u).host.2)
    (hok : ∀ u, Leads G j l' t u → Leads G i l s (f u))
    (hthrown : ∀ u, Leads G j .statement t u → Leads G i .statement s (f u)) :
    EndsOn G bare i l P s (inState f r) := by
  cases r with
  | ok a u => exact ⟨h.1, hok u h.2⟩
  | error e u =>
    refine ⟨hheap u ▸ h.1, fun v file line he => ?_⟩
    obtain ⟨htu, hraised⟩ := h.2 v file line he
    exact ⟨hthrown u htu, hraised.imp (·.of_suffix (htrace u)) (.imp_left hbare)⟩

theorem left {host : Host σ} {j : ι} {f : Frame}
    {r : EStateM.Result Stop (State (σ × List Event)) α} (hs : RunsOn G i s) (hst : Within s t)
    (hfile : (G i).file f.filename) (hline : (G i).line f.line)
    (hr : EndsOn G False j .body P t r) :
    EndsOn G bare i l P s
      (Evaluation.inState (·.left host.traced) (Evaluation.inState (·.inFrame f) r)) := by
  have leads {l l' : Level} (u : State (σ × List Event)) (h : Leads G j l t u) :
      Leads G i l' s ((u.inFrame f).left host.traced) := by
    have hu : Within s (u.inFrame f) := ⟨(hst.leads h).trace, (hst.leads h).calls⟩
    exact hu.left hs hfile hline h.starts.stands.functions
  rw [inState_inState]
  exact hr.inState False.elim (fun _ => rfl) (fun _ => List.suffix_cons _ _) leads leads

end EndsOn

namespace Originates

theorem bind {x : Eval (σ × List Event) α} {f : α → Eval (σ × List Event) β}
    (hx : Originates G bare i l P x) (hf : ∀ a, P a → Originates G bare i l Q (f a)) :
    Originates G bare i l Q (x >>= f) := by
  intro s hs
  have hxs := hx s hs
  rw [bind_apply]
  cases hr : x s with
  | ok a t =>
    rw [hr] at hxs
    exact (hf a hxs.1 t hxs.2.starts).after hxs.2
  | error e t =>
    rw [hr] at hxs
    exact hxs

theorem staying {g : Runtime → Frame → α × Runtime × Frame} (hg : Keeping (fromGround G) P g)
    (hstays : Stays g) : Originates (σ := σ) G bare i l P (step g) := by
  intro s hs
  have hfunctions := hs.stands.functions
  refine ⟨hg.result _ _ hfunctions, .samePlace hs ?_ (hg.functions _ _ hfunctions)⟩
  exact .still (hg.filename _ _) (hstays _ _) rfl

theorem freeStep {x : ∀ σ, Eval σ α} (hx : IsFreeStep (fromGround G) P x) :
    Originates G bare i l P (x (σ × List Event)) := by
  obtain ⟨g, hx, hg, hstays, -⟩ := hx
  rw [hx]
  exact staying hg hstays

theorem namingStep {x : ∀ σ, Eval σ α} (hx : IsNaming (fromGround G) P x) :
    Originates G bare i l P (x (σ × List Event)) := by
  obtain ⟨g, hx, hg, -, hstays⟩ := hx
  rw [hx]
  exact staying hg hstays

theorem naming : Naming (fromGround G) (Originates.rel (σ := σ) G bare i) where
  relax hx s hs :=
    (hx s hs).imp (fun _ ha => ha) (fun _ h => .of_runs h.trace h.calls h.proceeds) fun _ h => h
  settle hx s hs := (hx s hs.toStandsOn).imp (fun _ ha => ha) (fun _ h => h.settle hs) fun _ h => h
  weaken hx hPQ s hs := (hx s hs).imp hPQ (fun _ h => h) fun _ h => h
  bind := bind
  naming := namingStep
  fault _ _ _ hs := .error nofun hs.functions

theorem sequencing : Sequencing (fromGround G) (Originates.rel (σ := σ) G bare i) :=
  naming.toSequencing

theorem stepping : Stepping (fromGround G) (Originates.rel (σ := σ) G bare i) where
  toSequencing := sequencing
  freeStep := freeStep

section Host

variable {host : Host σ}

theorem tells {e : State (σ × List Event) → Event} {f : State (σ × List Event) → σ}
    (he : ∀ s, Event.running (e s :: s.host.2) = Event.running s.host.2) :
    Originates G bare i l any (modify fun s => { s with host := (f s, e s :: s.host.2) }) :=
  fun s hs => ⟨trivial, .samePlace hs (.cons rfl rfl (he s)) hs.stands.functions⟩

theorem frame :
    Originates G bare i .expression (fun f => (G i).file f.filename ∧ (G i).line f.line)
      (Evaluation.frame : Eval (σ × List Event) Frame) :=
  fun _ hs => ⟨⟨hs.file, hs.line⟩, .samePlace hs (.still rfl rfl rfl) hs.functions⟩

theorem throwAt (v : Value) {file : Option String} {line : Nat} (hfile : (G i).file file)
    (hline : (G i).line line) :
    Originates G bare i .expression P (Evaluation.throwAt host.traced v file line) := by
  intro s hs
  obtain ⟨stmt, calls, hrunning, hpart⟩ := hs.inside
  refine ⟨hs.functions, fun v file line he => ?_⟩
  cases he
  refine ⟨.samePlace hs (.cons rfl rfl rfl) hs.functions, .inl ?_⟩
  exact ⟨i, stmt, calls, s.runtime, s.frame, s.host.2, [], rfl, hrunning, hpart, hfile, hline⟩

theorem unlocated (v : Value) :
    Originates (σ := σ) G True i .expression P (throw (.thrown v none 0)) := by
  intro s hs
  refine ⟨hs.functions, fun v file line he => ?_⟩
  cases he
  exact ⟨.samePlace hs (.still rfl rfl rfl) hs.functions, .inr ⟨trivial, rfl, rfl⟩⟩

/-- What is thrown without a position gets one of the ground. -/
theorem located {x : Eval (σ × List Event) α} {bare' : Prop}
    (hx : Originates G bare' i .expression P x) :
    Originates G bare i .expression P (located host.traced x) := by
  intro s hs
  have hxs := hx s hs
  rw [located_apply]
  split
  case h_1 v t hr =>
    rw [hr] at hxs
    obtain ⟨hst, -⟩ := hxs.2 v none 0 rfl
    have ht : RunsOn G i t := hst.proceeds
    exact (throwAt v ht.file ht.line t ht).after (.of_runs hst.trace hst.calls ht)
  case h_2 hbare =>
    cases hr : x s with
    | ok a t =>
      rw [hr] at hxs
      exact hxs
    | error e t =>
      rw [hr] at hxs
      refine ⟨hxs.1, fun v file line he => ?_⟩
      obtain ⟨hst, hraised⟩ := hxs.2 v file line he
      refine ⟨hst, .inl (hraised.resolve_right ?_)⟩
      rintro ⟨-, rfl, rfl⟩
      exact hbare v t (by rw [hr, he])

theorem readFile (hfiles : ∀ name content, host.file name ≠ .bytes content) (name : String) :
    Originates G bare i .expression (fun _ => False) (Library.readFile host.traced name) := by
  unfold Library.readFile
  cases hname : host.traced.file name with
  | bytes content => exact (hfiles name content hname).elim
  | failed e => exact sequencing.raiseOn _ host.traced frame (fun v _ _ => throwAt v) _ _
  | unknown => exact fun s hs => .error nofun hs.functions

theorem dealing (hfiles : ∀ name content, host.file name ≠ .bytes content) :
    Dealing (fromGround G) (G i) host.traced host.traced (Originates.rel G bare i) := by
  refine stepping.dealing frame (fun _ v _ _ => throwAt v) (fun _ _ => tells fun _ => rfl)
    (fun _ => tells fun _ => rfl) (fun _ _ _ hs => .error nofun hs.functions) (fun name => ?_)
    fun m hm => ?_
  · exact sequencing.weaken (readFile hfiles name) fun _ ha => ha.elim
  · cases m with
    | reads | assigns => exact tells fun _ => rfl
    | _ => cases hm

theorem makeClosure (f : FunctionDef) (hf : (G i).part (.function f)) :
    Originates (σ := σ) G bare i l any (Evaluation.makeClosure f) := by
  have frame : Originates (σ := σ) G bare i l (fun f => (G i).file f.filename) Evaluation.frame :=
    fun _ hs => ⟨hs.stands.file, .samePlace hs (.still rfl rfl rfl) hs.stands.functions⟩
  refine frame.bind fun _ hfile => freeStep (isStep_allocate _ fun c hc => ?_).free
  cases hc
  exact ⟨i, hf, hfile⟩

theorem setLine {line : Nat} (hline : (G i).line line) :
    Originates (σ := σ) G bare i .expression any (Evaluation.setLine line) :=
  fun _ hs => ⟨trivial, List.suffix_rfl, rfl, ⟨hs.file, hs.functions⟩, hline, hs.inside⟩

theorem begins {x : Eval (σ × List Event) α} {stmt : Stmt} (hpart : (G i).part (.stmt stmt))
    (hline : (G i).line stmt.place.line) (hx : Originates G bare i .statement P x) :
    Originates G bare i .body P
      (do Evaluation.setLine stmt.place.line; observe host.traced (.statement stmt); x) := by
  intro s hs
  let t : State (σ × List Event) :=
    (s.inFrame { s.frame with line := stmt.place.line }).observed host.traced (.statement stmt)
  have ht : RunsOn G i t := ⟨⟨hs.file, hs.functions⟩, hline, stmt, _, rfl, hpart⟩
  have hst : s.host.2 <:+ t.host.2 := List.suffix_cons _ _
  change EndsOn G bare i .body P s (x t)
  have leads {l : Level} (u : State (σ × List Event)) (htu : Leads G i .statement t u) :
      Leads G i l s u :=
    .of_runs (hst.trans htu.trace) htu.calls htu.proceeds
  exact (hx t ht).imp (fun _ ha => ha) leads leads

theorem setLastValue (v : Value) :
    Originates (σ := σ) G bare i l any (Evaluation.setLastValue v) :=
  fun _ hs => ⟨trivial, .samePlace hs (.still rfl rfl rfl) hs.stands.functions⟩

theorem branch (line : Nat) :
    Originates G bare i .statement any (branch host.traced line) := by
  intro s hs
  cases ht : s.runtime.tellsBranches with
  | false =>
    rw [branch_silent host.traced line s ht]
    exact ⟨trivial, .samePlace hs (.still rfl rfl rfl) hs.functions⟩
  | true =>
    rw [branch_apply host.traced line s ht]
    have htold : SamePlace s (s.observed host.traced .notifies) := .cons rfl rfl rfl
    have hnotified : SamePlace s (s.notified host.traced line) := htold.trans (.cons rfl rfl rfl)
    cases s.answer host.traced line with
    | continue_ => exact ⟨trivial, .samePlace hs hnotified hs.functions⟩
    | collect =>
      have hruns : RunsOn G i (s.notified host.traced line) := hs.samePlace hnotified hs.functions
      have collects : Originates (σ := σ) G bare i .statement any _ :=
        freeStep isStep_maybeCollect.free
      exact (collects _ hruns).after (.samePlace hs hnotified hs.functions)
    | abort => exact .error nofun hs.functions

theorem inScope {x : Eval (σ × List Event) α} (id : ScopeId)
    (hx : Originates G bare i .statement P x) :
    Originates G bare i .statement P (inScope id x) := by
  intro s hs
  have leads (u : State (σ × List Event)) (h : Leads G i .statement (s.inScope (some id)) u) :
      Leads G i .statement s (u.inScope s.frame.scope) := by
    have hu : RunsOn G i u := h.proceeds
    exact ⟨h.trace, h.calls, hu.samePlace (.still rfl rfl rfl) hu.functions⟩
  have hxs := hx (s.inScope (some id)) (hs.samePlace (.still rfl rfl rfl) hs.functions)
  rw [inScope_apply]
  exact hxs.inState (fun h => h) (fun _ => rfl) (fun _ => List.suffix_rfl) leads leads

theorem inBlockScope {x : ScopeId → Eval (σ × List Event) α}
    (hx : ∀ id, Originates G bare i .statement P (x id)) :
    Originates G bare i .statement P (inBlockScope x) := by
  have frame : Originates (σ := σ) G bare i .statement any Evaluation.frame :=
    freeStep isStep_frame.free
  refine frame.bind fun frame _ => ?_
  have opened : Originates (σ := σ) G bare i .statement any (openScope false frame.scope) :=
    freeStep (isStep_openScope _ _).free
  exact opened.bind fun id _ => inScope id (hx id)

theorem hoistFunctions (hT : Hereditary (G i).part) (body : List Stmt)
    (hbody : ∀ s ∈ body, (G i).part (.stmt s)) :
    Originates G bare i l any (hoistFunctions host.traced body) :=
  hoistFunctions_alike sequencing host.traced host.traced makeClosure
    (fun _ _ => tells fun _ => rfl) body hbody hT.own
    fun _ _ name _ v => declareLocal_alike naming name v true

/-- A call runs on another ground and comes back. -/
theorem inCall {j : ι} {x : Eval (σ × List Event) Value} (callee : Value) (c : Closure)
    (args : List Value) (hfile : (G j).file c.filename) (hx : Originates G False j .body any x) :
    Originates G bare i .expression any (inCallFrame host.traced callee c args x) := by
  intro s hs
  change EndsOn G bare i .expression any s ((if s.isTooDeep = true then
    raise host.traced .internalError "too much recursion" else oneDeeper host.traced _) s)
  split
  case isTrue => exact sequencing.raiseOn _ host.traced frame (fun v _ _ => throwAt v) _ _ s hs
  case isFalse =>
    have hentered : Within s (s.entered host.traced) := ⟨List.suffix_cons _ _, rfl⟩
    have opened : EndsOn G False i .body any (s.entered host.traced)
        (openCall callee c args (s.entered host.traced)) :=
      openCall_alike naming callee c args _ ⟨hs.file, hs.functions⟩
    -- The call can fail while it opens its scope or while it runs: both ends are looked at.
    rw [oneDeeper_apply, bind_apply]
    cases hr : openCall callee c args (s.entered host.traced) with
    | ok scope t =>
      rw [hr] at opened
      have ht := opened.2.starts
      -- the frame that is put back is that of the opened call: its line is still the caller's
      have hline : (G i).line t.frame.line := by
        rcases opened.2.proceeds with hruns | ⟨-, hline, -⟩
        · exact hruns.line
        · rw [hline]
          exact hs.line
      change EndsOn G bare i .expression any s (inState (·.left host.traced)
        (inFrame ⟨some scope, c.filename, t.frame.line, .undefined⟩ x t))
      rw [inFrame_apply]
      refine EndsOn.left hs ?_ ht.stands.file hline (hx _ ⟨hfile, ht.stands.functions⟩)
      exact ⟨(hentered.leads opened.2).trace, (hentered.leads opened.2).calls⟩
    | error e t =>
      rw [hr] at opened
      refine ⟨opened.1, fun v file line he => ?_⟩
      obtain ⟨hleads, hraised⟩ := opened.2 v file line he
      have ht : RunsOn G i t := hleads.proceeds
      refine ⟨(hentered.leads hleads).left hs ht.file ht.line ht.functions, ?_⟩
      exact hraised.imp (·.of_suffix (List.suffix_cons _ _)) fun h => h.1.elim

theorem runFile (hfiles : ∀ name content, host.file name ≠ .bytes content) (name : String)
    (run : Program → Eval (σ × List Event) Value) :
    Originates G bare i .expression any (runFile host.traced name run) := by
  have opened : Originates G bare i .expression (fun _ => False) (openUnit host.traced name) :=
    (readFile hfiles name).bind fun _ h => h.elim
  exact opened.bind fun _ h => h.elim

theorem handled {P : Completion → Prop}
    {r : EStateM.Result Stop (State (σ × List Event)) Completion}
    {handler : Option (Value → Eval (σ × List Event) Completion)}
    (hhandler : ∀ handle ∈ handler, ∀ v, Originates G bare i .statement P (handle v))
    (hr : EndsOn G bare i .statement P s r) :
    EndsOn G bare i .statement P s (handled host.traced handler r) := by
  unfold Evaluation.handled
  split
  case h_1 handle v file line t =>
    obtain ⟨hst, -⟩ := hr.2 v file line rfl
    have begins : Leads G i .statement t (t.observed host.traced .handlerBegins) :=
      .samePlace hst.starts (.cons rfl rfl rfl) hr.1
    exact (hhandler handle rfl v _ begins.starts).after (hst.trans begins)
  case h_2 => exact hr

/-- A final part changes neither the unit nor the line of the exception that is passed on. -/
theorem finished {P : Completion → Prop}
    {r : EStateM.Result Stop (State (σ × List Event)) Completion}
    {finalizer : Option (Eval (σ × List Event) Completion)}
    (hfinalizer : ∀ last ∈ finalizer, Originates G bare i .statement P last)
    (hr : EndsOn G bare i .statement P s r) :
    EndsOn G bare i .statement P s (finished host.traced finalizer r) := by
  have begins {t : State (σ × List Event)} (hst : Leads G i .statement s t) :
      Leads G i .statement s (t.observed host.traced .finalizerBegins) :=
    hst.trans (.samePlace hst.starts (.cons rfl rfl rfl) hst.starts.functions)
  unfold Evaluation.finished
  split
  case h_1 last c t =>
    have ran := hfinalizer last rfl _ (begins hr.2).starts
    exact ran.overridden (begins hr.2) fun u htu => ⟨hr.1, (begins hr.2).trans htu⟩
  case h_2 last v file line t =>
    obtain ⟨hst, hraised⟩ := hr.2 v file line rfl
    have ran := hfinalizer last rfl _ (begins hst).starts
    refine ran.overridden (begins hst) fun u htu => ⟨htu.starts.functions, fun _ _ _ he => ?_⟩
    cases he
    refine ⟨(begins hst).trans htu, hraised.imp_left (·.of_suffix ?_)⟩
    exact (List.suffix_cons _ _).trans htu.trace
  case h_3 => exact hr

/-- What runs on grounds ends on them. -/
theorem likeness (hereditary : ∀ i, Hereditary (G i).part)
    (sites : ∀ i p place, (G i).part p → place ∈ p.sites → (G i).line place.line)
    (ready : ∀ i s, (G i).ready s) (binds : ∀ i name, (G i).binds name)
    (hfiles : ∀ name content, host.file name ≠ .bytes content) (i : ι) :
    Likeness (fromGround G) G host.traced host.traced 0 (fun i => Originates.rel G False i) i where
  toDealing := dealing hfiles
  hereditary := (hereditary i).own
  names _ _ := binds i _
  declareLocal name v isMutable _ := declareLocal_alike naming name v isMutable
  sites hp hplace := sites i _ _ hp hplace
  outOfFuel _ _ _ _ hs := .error nofun hs.stands.functions
  setLine _ hline := setLine hline
  begins stmt hpart _ hx := begins hpart (sites i _ _ hpart List.mem_cons_self) hx
  makeClosure := makeClosure
  setLastValue := setLastValue
  branch := branch
  noTarget _ _ _ := tells fun _ => rfl
  strayJump _ := tells fun _ => rfl
  alone s _ _ := ready i s
  enters body hbody hxy :=
    (hoistFunctions (hereditary i) body hbody).bind fun _ _ => hxy i (.refl _) fun s _ => ready i s
  inBlockScope hxy := inBlockScope (hxy i (.refl _))
  inCall callee c args hc hbody := by
    obtain ⟨j, hpart, hfile⟩ := hc
    have hown : ∀ s ∈ c.def_.body, (G j).part (.stmt s) :=
      fun s hs => hereditary j _ _ (List.mem_map_of_mem hs) hpart
    exact inCall callee c args hfile (hbody j hpart hown hfile)
  runFile name _ _ _ := runFile hfiles name _
  method receiver key args :=
    located (Library.method_alike sequencing (fun _ => unlocated) receiver key args)
  located := located
  guarded {P _ _ handler finalizer _ _ _ _} hbody hhandler hfinalizer s hs := by
    rw [guarded_apply]
    exact finished (Option.forall_mem_map.mpr hfinalizer)
      (handled (Option.forall_mem_map.mpr hhandler) (hbody s hs))

end Host

end Originates

end ScriptShell.Evaluation
