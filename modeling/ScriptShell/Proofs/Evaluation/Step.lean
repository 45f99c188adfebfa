import ScriptShell.Proofs.Globals
import ScriptShell.Proofs.Heap.Contents
import ScriptShell.Proofs.Program.Part
import ScriptShell.Proofs.Scopes

namespace ScriptShell

namespace Heap

/-- Every script function in a heap has a definition with a property. -/
def DefinedIn (T : Part → Prop) (h : Heap) : Prop :=
  ∀ id c, (h.object id).callable? = some (.script c) → T (.function c.def_)

/-- Every script function in a heap has a property. -/
def AllFunctions (K : Closure → Prop) (h : Heap) : Prop :=
  ∀ id c, (h.object id).callable? = some (.script c) → K c

theorem definedIn_anyPart (h : Heap) : h.DefinedIn anyPart :=
  fun _ _ _ => trivial

theorem callable?_modify (h : Heap) (id : ObjectId) (f : Object → Object)
    (hf : ∀ o, (f o).callable? = o.callable?) (id' : ObjectId) :
    ((h.modify id f).object id').callable? = (h.object id').callable? := by
  unfold object get? modify
  rw [Array.getElem?_modify]
  split
  · cases h.objects[id']? with
    | none => rfl
    | some o =>
      cases o with
      | none => rfl
      | some o => exact hf o
  · rfl

variable {K : Closure → Prop}

theorem AllFunctions.allocate {h : Heap} (hh : h.AllFunctions K) {o : Object}
    (ho : ∀ c, o.callable? = some (.script c) → K c) :
    (h.allocate o).2.AllFunctions K := by
  intro id c hc
  rw [object_allocate] at hc
  split at hc
  · exact ho c hc
  · exact hh id c hc

theorem AllFunctions.modify {h : Heap} (hh : h.AllFunctions K) {id : ObjectId} {f : Object → Object}
    (hf : ∀ o, (f o).callable? = o.callable?) : (h.modify id f).AllFunctions K := by
  intro id' c hc
  rw [callable?_modify h id f hf] at hc
  exact hh id' c hc

theorem callable?_modifyElements (f : Array Value → Array Value) (o : Object) :
    (o.modifyElements f).callable? = o.callable? := by
  unfold Object.modifyElements
  split <;> rfl

theorem callable?_propertyChange {h : Heap} {id : ObjectId} {key : String} {v : Value}
    {change : Object → Object} (hc : h.propertyChange id key v = .ok change) (o : Object) :
    (change o).callable? = o.callable? := by
  obtain ⟨_, -, -, rfl | rfl⟩ | ⟨_, -, rfl⟩ | rfl := propertyChange_cases hc
  · exact callable?_modifyElements _ o
  · rfl
  · exact callable?_modifyElements _ o
  · rfl

end Heap

namespace Runtime

def withStrict (strict : Bool) (r : Runtime) : Runtime :=
  { r with strict }

/-- A runtime with the books of a fresh heap, which tells the host nothing about loops. -/
def contents (r : Runtime) : Runtime :=
  { r with heap := r.heap.contents, tellsBranches := false }

structure Widens (r r' : Runtime) : Prop where
  globals : r.globals.LeadsTo r'.globals
  scopes : r.scopes.scopes.size ≤ r'.scopes.scopes.size

namespace Widens

theorem refl (r : Runtime) : r.Widens r :=
  ⟨.refl _, Nat.le_refl _⟩

end Widens

end Runtime

namespace Evaluation

variable {σ α : Type}

def step (g : Runtime → Frame → α × Runtime × Frame) : Eval σ α := fun s =>
  .ok (g s.runtime s.frame).1 ⟨(g s.runtime s.frame).2.1, (g s.runtime s.frame).2.2, s.host⟩

/-- What every step leaves as it is, and what holds of its result. -/
structure Keeping (K : Closure → Prop) (P : α → Prop)
    (g : Runtime → Frame → α × Runtime × Frame) : Prop where
  scope : ∀ r f, (g r f).2.2.scope = f.scope
  filename : ∀ r f, (g r f).2.2.filename = f.filename
  lastValue : ∀ r f, (g r f).2.2.lastValue = f.lastValue
  callDepth : ∀ r f, (g r f).2.1.callDepth = r.callDepth
  tellsBranches : ∀ r f, (g r f).2.1.tellsBranches = r.tellsBranches
  widens : ∀ r f, Runtime.Widens r (g r f).2.1
  functions : ∀ r f, r.heap.AllFunctions K → (g r f).2.1.heap.AllFunctions K
  result : ∀ r f, r.heap.AllFunctions K → P (g r f).1

/-- What a step passes on without looking: whether checking is strict, and the books of the
heap. -/
structure Blind (g : Runtime → Frame → α × Runtime × Frame) : Prop where
  strict : ∀ r f strict,
    g (r.withStrict strict) f = ((g r f).1, (g r f).2.1.withStrict strict, (g r f).2.2)
  result : ∀ r f, (g r.contents f).1 = (g r f).1
  runtime : ∀ r f, (g r.contents f).2.1.contents = (g r f).2.1.contents
  frame : ∀ r f, (g r.contents f).2.2 = (g r f).2.2

def Stays (g : Runtime → Frame → α × Runtime × Frame) : Prop :=
  ∀ r f, (g r f).2.2.line = f.line

def Nameless (g : Runtime → Frame → α × Runtime × Frame) : Prop :=
  ∀ (r : Runtime) f, r.scopes.Extends (fun _ _ => False) (g r f).2.1.scopes

theorem Nameless.of_scopes {g : Runtime → Frame → α × Runtime × Frame}
    (h : ∀ r f, (g r f).2.1.scopes = r.scopes) : Nameless g := by
  intro r f
  rw [h]
  exact .refl r.scopes

def IsNaming (K : Closure → Prop) (P : α → Prop) (x : ∀ σ, Eval σ α) : Prop :=
  ∃ g, (∀ σ, x σ = step g) ∧ Keeping K P g ∧ Blind g ∧ Stays g

def IsStep (K : Closure → Prop) (P : α → Prop) (x : ∀ σ, Eval σ α) : Prop :=
  ∃ g, (∀ σ, x σ = step g) ∧ Keeping K P g ∧ Blind g ∧ Stays g ∧ Nameless g

def IsFreeStep (K : Closure → Prop) (P : α → Prop) (x : ∀ σ, Eval σ α) : Prop :=
  ∃ g, (∀ σ, x σ = step g) ∧ Keeping K P g ∧ Stays g ∧ Nameless g

variable {K : Closure → Prop} {P : α → Prop}

theorem IsStep.naming {x : ∀ σ, Eval σ α} (h : IsStep K P x) : IsNaming K P x := by
  obtain ⟨g, hx, hg, hblind, hstays, -⟩ := h
  exact ⟨g, hx, hg, hblind, hstays⟩

theorem IsStep.free {x : ∀ σ, Eval σ α} (h : IsStep K P x) : IsFreeStep K P x := by
  obtain ⟨g, hx, hg, -, hstays, hnames⟩ := h
  exact ⟨g, hx, hg, hstays, hnames⟩

theorem isFreeStep_read (f : Runtime → Frame → α)
    (h : ∀ r fr, r.heap.AllFunctions K → P (f r fr)) :
    IsFreeStep K P fun σ => (do let s ← get; return f s.runtime s.frame : Eval σ α) :=
  ⟨fun r fr => (f r fr, r, fr), fun _ => rfl,
    ⟨fun _ _ => rfl, fun _ _ => rfl, fun _ _ => rfl, fun _ _ => rfl, fun _ _ => rfl,
      fun _ _ => .refl _, fun _ _ hr => hr, h⟩, fun _ _ => rfl, .of_scopes fun _ _ => rfl⟩

theorem isFreeStep_parseOptions :
    IsFreeStep K any fun σ => (parseOptions : Eval σ ParseOptions) :=
  isFreeStep_read (fun r _ => r.parseOptions 1) fun _ _ _ => trivial

theorem isFreeStep_isStrict : IsFreeStep K any fun σ => (isStrict : Eval σ Bool) :=
  isFreeStep_read (fun r _ => r.strict) fun _ _ _ => trivial

theorem isFreeStep_collect :
    IsFreeStep K any fun σ => (Library.collect : Eval σ (Heap.Statistics × Nat)) :=
  ⟨fun r fr => ((r.heap.collect.1, r.machine.programBreak r.heap.collect.2),
    { r with heap := r.heap.collect.2 }, fr), fun _ => rfl,
    ⟨fun _ _ => rfl, fun _ _ => rfl, fun _ _ => rfl, fun _ _ => rfl, fun _ _ => rfl,
      fun _ _ => ⟨.refl _, Nat.le_refl _⟩, fun _ _ hr => hr, fun _ _ _ => trivial⟩,
    fun _ _ => rfl, .of_scopes fun _ _ => rfl⟩

theorem isStep_read (f : Runtime → Frame → α)
    (h : ∀ r fr, r.heap.AllFunctions K → P (f r fr))
    (hstrict : ∀ r fr strict, f (r.withStrict strict) fr = f r fr)
    (hcontents : ∀ r fr, f r.contents fr = f r fr) :
    IsStep K P fun σ => (do let s ← get; return f s.runtime s.frame : Eval σ α) := by
  refine ⟨fun r fr => (f r fr, r, fr), fun _ => rfl, ?_, ?_, fun _ _ => rfl,
    .of_scopes fun _ _ => rfl⟩
  · exact ⟨fun _ _ => rfl, fun _ _ => rfl, fun _ _ => rfl, fun _ _ => rfl, fun _ _ => rfl,
      fun _ _ => .refl _, fun _ _ hr => hr, h⟩
  · exact ⟨fun r fr strict => by rw [hstrict], hcontents, fun _ _ => rfl, fun _ _ => rfl⟩

theorem isStep_pure (a : α) (h : P a) : IsStep K P fun σ => (pure a : Eval σ α) :=
  isStep_read (fun _ _ => a) (fun _ _ _ => h) (fun _ _ _ => rfl) fun _ _ => rfl

theorem isStep_frame : IsStep K any fun σ => (frame : Eval σ Frame) :=
  isStep_read (fun _ fr => fr) (fun _ _ _ => trivial) (fun _ _ _ => rfl) fun _ _ => rfl

theorem isStep_look (f : Heap → α) (hf : ∀ h, f h.contents = f h) :
    IsStep K (fun a => ∃ h, a = f h) fun σ => (look f : Eval σ α) :=
  isStep_read (fun r _ => f r.heap) (fun r _ _ => ⟨r.heap, rfl⟩) (fun _ _ _ => rfl)
    fun r _ => hf r.heap

theorem isStep_callable? (v : Value) :
    IsStep K (fun a => ∀ c, a = some (.script c) → K c)
      fun σ => (look (·.callable? v) : Eval σ (Option Callable)) := by
  refine isStep_read (fun r _ => r.heap.callable? v) (fun r _ hr c hc => ?_) (fun _ _ _ => rfl)
    fun r _ => congrFun r.heap.callable?_contents v
  cases v with
  | object id => exact hr id c hc
  | _ => cases hc

theorem isStep_lookup? (name : String) :
    IsStep K any fun σ => (lookup? name : Eval σ (Option Value)) :=
  isStep_read (fun r fr => Runtime.lookup? r fr.scope name) (fun _ _ _ => trivial)
    (fun _ _ _ => rfl) fun _ _ => rfl

theorem isStep_memory : IsStep K any fun σ => (Library.memory : Eval σ Memory) :=
  isStep_read (fun r _ => r.memory) (fun _ _ _ => trivial) (fun _ _ _ => rfl) fun _ _ => rfl

theorem isStep_machine : IsStep K any fun σ => (Library.machine : Eval σ Machine) :=
  isStep_read (fun r _ => r.machine) (fun _ _ _ => trivial) (fun _ _ _ => rfl) fun _ _ => rfl

theorem isStep_version : IsStep K any fun σ => (Library.version : Eval σ UInt32) :=
  isStep_read (fun r _ => r.version) (fun _ _ _ => trivial) (fun _ _ _ => rfl) fun _ _ => rfl

theorem isStep_modifyGet (f : Runtime → Frame → α × Runtime)
    (hdepth : ∀ r fr, (f r fr).2.callDepth = r.callDepth)
    (htells : ∀ r fr, (f r fr).2.tellsBranches = r.tellsBranches)
    (hglobals : ∀ (r : Runtime) fr, r.globals.LeadsTo (f r fr).2.globals)
    (hscopes : ∀ (r : Runtime) fr, r.scopes.Extends (fun _ _ => False) (f r fr).2.scopes)
    (hheap : ∀ r fr, r.heap.AllFunctions K → (f r fr).2.heap.AllFunctions K)
    (hblind : Blind fun r fr => ((f r fr).1, (f r fr).2, fr)) :
    IsStep K any fun σ => (modifyGet fun s => ((f s.runtime s.frame).1,
      { s with runtime := (f s.runtime s.frame).2 }) : Eval σ α) :=
  ⟨fun r fr => ((f r fr).1, (f r fr).2, fr), fun _ => rfl,
    ⟨fun _ _ => rfl, fun _ _ => rfl, fun _ _ => rfl, hdepth, htells,
      fun r fr => ⟨hglobals r fr, (hscopes r fr).size⟩, hheap, fun _ _ _ => trivial⟩,
    hblind, fun _ _ => rfl, hscopes⟩

theorem isStep_aside (f : Runtime → Frame → α × Runtime)
    (hdepth : ∀ r fr, (f r fr).2.callDepth = r.callDepth)
    (htells : ∀ r fr, (f r fr).2.tellsBranches = r.tellsBranches)
    (hglobals : ∀ (r : Runtime) fr, r.globals.LeadsTo (f r fr).2.globals)
    (hscopes : ∀ (r : Runtime) fr, r.scopes.Extends (fun _ _ => False) (f r fr).2.scopes)
    (hheap : ∀ r fr, (f r fr).2.heap = r.heap)
    (hstrict : ∀ r fr strict,
      f (r.withStrict strict) fr = ((f r fr).1, (f r fr).2.withStrict strict))
    (hcontents : ∀ r fr, f r.contents fr = ((f r fr).1, (f r fr).2.contents)) :
    IsStep K any fun σ => (modifyGet fun s => ((f s.runtime s.frame).1,
      { s with runtime := (f s.runtime s.frame).2 }) : Eval σ α) := by
  refine isStep_modifyGet f hdepth htells hglobals hscopes (fun r fr hr => hheap r fr ▸ hr)
    ⟨fun r fr strict => ?_, fun r fr => ?_, fun r fr => ?_, fun _ _ => rfl⟩
  · rw [hstrict]
  · rw [hcontents]
  · rw [hcontents]
    rfl

theorem isStep_modifyRuntime (f : Runtime → Runtime)
    (hdepth : ∀ r, (f r).callDepth = r.callDepth)
    (htells : ∀ r, (f r).tellsBranches = r.tellsBranches)
    (hglobals : ∀ r : Runtime, r.globals.LeadsTo (f r).globals)
    (hscopes : ∀ r : Runtime, r.scopes.Extends (fun _ _ => False) (f r).scopes)
    (hheap : ∀ r, (f r).heap = r.heap)
    (hstrict : ∀ r strict, f (r.withStrict strict) = (f r).withStrict strict)
    (hcontents : ∀ r, f r.contents = (f r).contents) :
    IsStep K any fun σ => (modifyRuntime f : Eval σ Unit) :=
  isStep_aside (fun r _ => ((), f r)) (fun r _ => hdepth r) (fun r _ => htells r)
    (fun r _ => hglobals r) (fun r _ => hscopes r) (fun r _ => hheap r)
    (fun r _ strict => by rw [hstrict]) fun r _ => by rw [hcontents]

theorem isNaming_modifyScopes (f : Scopes → Scopes)
    (hsize : ∀ s : Scopes, s.scopes.size ≤ (f s).scopes.size) :
    IsNaming K any fun σ =>
      (modifyRuntime fun r => { r with scopes := f r.scopes } : Eval σ Unit) := by
  refine ⟨fun r fr => ((), { r with scopes := f r.scopes }, fr), fun _ => rfl, ?_, ?_,
    fun _ _ => rfl⟩
  · exact ⟨fun _ _ => rfl, fun _ _ => rfl, fun _ _ => rfl, fun _ _ => rfl, fun _ _ => rfl,
      fun r _ => ⟨.refl _, hsize r.scopes⟩, fun _ _ hr => hr, fun _ _ _ => trivial⟩
  · exact ⟨fun _ _ _ => rfl, fun _ _ => rfl, fun _ _ => rfl, fun _ _ => rfl⟩

theorem isStep_openScope (isFunction : Bool) (parent : Option ScopeId) :
    IsStep K any fun σ => (openScope isFunction parent : Eval σ ScopeId) :=
  isStep_aside
    (fun r _ => ((r.scopes.open_ parent isFunction).1,
      { r with scopes := (r.scopes.open_ parent isFunction).2 }))
    (fun _ _ => rfl) (fun _ _ => rfl) (fun _ _ => .refl _)
    (fun r _ => r.scopes.extends_open_ parent isFunction) (fun _ _ => rfl) (fun _ _ _ => rfl)
    fun _ _ => rfl

theorem isNaming_declareIn (scope : ScopeId) (name : String) (v : Value) (isMutable : Bool) :
    IsNaming K any fun σ => (declareIn scope name v isMutable : Eval σ Unit) :=
  isNaming_modifyScopes _ fun s => Nat.le_of_eq (s.size_modify scope _).symm

theorem isNaming_hoistIn (scope : ScopeId) (names : List String) :
    IsNaming K any fun σ => (hoistIn scope names : Eval σ Unit) :=
  isNaming_modifyScopes _ fun s => s.size_hoists scope names

theorem isStep_hoistGlobals (names : List String) :
    IsStep K any fun σ => (hoistGlobals names : Eval σ Unit) :=
  isStep_modifyRuntime _ (fun _ => rfl) (fun _ => rfl) (fun _ => .hoists _ names)
    (fun r => .refl r.scopes) (fun _ => rfl) (fun _ _ => rfl) fun _ => rfl

theorem isStep_bindGlobal (name : String) (v : Value) (isMutable : Bool) :
    IsStep K any fun σ =>
      (modifyRuntime fun r => { r with globals := r.globals.define name v isMutable } :
        Eval σ Unit) :=
  isStep_modifyRuntime _ (fun _ => rfl) (fun _ => rfl)
    (fun _ => (Globals.LeadsTo.refl _).write (.define name v isMutable))
    (fun r => .refl r.scopes) (fun _ => rfl) (fun _ _ => rfl) fun _ => rfl

theorem isStep_defineGlobal (name : String) (v : Value) :
    IsStep K any fun σ => (defineGlobal name v : Eval σ Unit) :=
  isStep_bindGlobal name v true

theorem isStep_setVersion (version : UInt32) :
    IsStep K any fun σ => (modifyRuntime fun r => { r with version } : Eval σ Unit) :=
  isStep_modifyRuntime _ (fun _ => rfl) (fun _ => rfl) (fun _ => .refl _)
    (fun r => .refl r.scopes) (fun _ => rfl) (fun _ _ => rfl) fun _ => rfl

theorem isStep_putMemory (memory : Memory) :
    IsStep K any fun σ => (modifyRuntime fun r => { r with memory } : Eval σ Unit) :=
  isStep_modifyRuntime _ (fun _ => rfl) (fun _ => rfl) (fun _ => .refl _)
    (fun r => .refl r.scopes) (fun _ => rfl) (fun _ _ => rfl) fun _ => rfl

theorem isStep_modifyHeap (f : Heap → Heap)
    (hf : ∀ h : Heap, h.AllFunctions K → (f h).AllFunctions K)
    (hcontents : ∀ h : Heap, (f h.contents).contents = (f h).contents) :
    IsStep K any fun σ => (modifyHeap f : Eval σ Unit) := by
  refine isStep_modifyGet (fun r _ => ((), { r with heap := f r.heap })) (fun _ _ => rfl)
    (fun _ _ => rfl) (fun _ _ => .refl _) (fun r _ => .refl r.scopes) (fun r _ hr => hf r.heap hr)
    ⟨fun _ _ _ => rfl, fun _ _ => rfl, fun r _ => ?_, fun _ _ => rfl⟩
  exact congrArg (fun heap => ({ r with heap, tellsBranches := false } : Runtime))
    (hcontents r.heap)

theorem isStep_modifyObject (id : ObjectId) (f : Object → Object)
    (hf : ∀ o, (f o).callable? = o.callable?) :
    IsStep K any fun σ => (modifyHeap (·.modify id f) : Eval σ Unit) :=
  isStep_modifyHeap _ (fun _ hh => hh.modify hf) fun _ => rfl

theorem isStep_allocate (o : Object)
    (ho : ∀ c, o.callable? = some (.script c) → K c) :
    IsStep K any fun σ => (allocate o : Eval σ Value) := by
  refine isStep_modifyGet
    (fun r _ => (Value.object (r.heap.allocate o).1, { r with heap := (r.heap.allocate o).2 }))
    (fun _ _ => rfl) (fun _ _ => rfl) (fun _ _ => .refl _) (fun r _ => .refl r.scopes)
    (fun _ _ hr => hr.allocate ho)
    ⟨fun _ _ _ => rfl, fun _ _ => rfl, fun r _ => ?_, fun _ _ => rfl⟩
  have hsame : (r.heap.contents.allocate o).2.contents = (r.heap.allocate o).2.contents :=
    Heap.contents_eq_iff.mpr (by
      rw [Heap.objects_allocate, Heap.objects_allocate, Heap.objects_contents])
  exact congrArg (fun heap => ({ r with heap, tellsBranches := false } : Runtime)) hsame

theorem isStep_maybeCollect :
    IsStep K any fun σ => (modifyHeap fun h => h.maybeCollect.2 : Eval σ Unit) := by
  refine isStep_modifyHeap _ (fun h hh => ?_) fun h => ?_
  · unfold Heap.maybeCollect
    split <;> exact hh
  · unfold Heap.maybeCollect
    split <;> split <;> rfl

theorem isStep_assignLocal (scope : Option ScopeId) (name : String) (v : Value) :
    IsStep K any fun σ => (assignLocal scope name v : Eval σ Assigned) := by
  cases scope with
  | none => exact isStep_pure _ trivial
  | some id =>
    exact isStep_aside
      (fun r _ => ((r.scopes.assign id name v).1,
        { r with scopes := (r.scopes.assign id name v).2 }))
      (fun _ _ => rfl) (fun _ _ => rfl) (fun _ _ => .refl _)
      (fun r _ => r.scopes.extends_assign id name v) (fun _ _ => rfl) (fun _ _ _ => rfl)
      fun _ _ => rfl

theorem isStep_assignGlobal (name : String) (v : Value) :
    IsStep K any fun σ => (assignGlobal name v : Eval σ Assigned) :=
  isStep_aside
    (fun r _ => ((r.globals.assign name v).1, { r with globals := (r.globals.assign name v).2 }))
    (fun _ _ => rfl) (fun _ _ => rfl)
    (fun _ _ => (Globals.LeadsTo.refl _).write (.assign name v)) (fun r _ => .refl r.scopes)
    (fun _ _ => rfl) (fun _ _ _ => rfl) fun _ _ => rfl

def lineStep (line : Nat) : Runtime → Frame → Unit × Runtime × Frame :=
  fun r fr => ((), r, { fr with line })

theorem keeping_lineStep (line : Nat) : Keeping K any (lineStep line) :=
  ⟨fun _ _ => rfl, fun _ _ => rfl, fun _ _ => rfl, fun _ _ => rfl, fun _ _ => rfl,
    fun _ _ => .refl _, fun _ _ hr => hr, fun _ _ _ => trivial⟩

theorem nameless_lineStep (line : Nat) : Nameless (lineStep line) :=
  .of_scopes fun _ _ => rfl

theorem blind_lineStep (line : Nat) : Blind (lineStep line) :=
  ⟨fun _ _ _ => rfl, fun _ _ => rfl, fun _ _ => rfl, fun _ _ => rfl⟩

end Evaluation

end ScriptShell
