import ScriptShell.Scope

namespace ScriptShell

/-- A layer of global variables. -/
structure Layer where
  bindings : Dict Binding
  isSealed : Bool

namespace Layer

def find? (layers : List Layer) (name : String) : Option Binding :=
  layers.findSome? (·.bindings.get? name)

def onTop (f : Dict Binding → Dict Binding) : List Layer → List Layer
  | [] => []
  | top :: rest => { top with bindings := f top.bindings } :: rest

/-- Assigns in the newest layer that binds a name. -/
def assign (name : String) (v : Value) : List Layer → Assigned × List Layer
  | [] => (.notFound, [])
  | layer :: rest =>
    match layer.bindings.get? name with
    | some b =>
      if layer.isSealed then (.sealedOff, layer :: rest)
      else if b.isMutable then
        (.done, { layer with bindings := layer.bindings.insert name { b with value := v } } :: rest)
      else (.constant, layer :: rest)
    | none =>
      let (r, rest) := assign name v rest
      (r, layer :: rest)

def isAnySealed (layers : List Layer) : Bool :=
  layers.any (·.isSealed)

/-- Seals the newest layer and puts a fresh one on it, unless something is sealed. -/
def close (layers : List Layer) : Bool × List Layer :=
  if isAnySealed layers then (false, layers)
  else
    match layers with
    | [] => (true, [⟨.empty, false⟩])
    | top :: rest => (true, ⟨.empty, false⟩ :: { top with isSealed := true } :: rest)

end Layer

namespace Globals

/-- The globals as a stack of layers, the newest first. -/
def layers (g : Globals) : List Layer :=
  ⟨g.top, false⟩ :: (g.below.map (⟨·, true⟩)).toList

/-- Something that writes to global variables. -/
inductive Write where
  | define (name : String) (v : Value) (isMutable : Bool)
  | hoist (name : String)
  | assign (name : String) (v : Value)

inductive Operation where
  | write (w : Write)
  | close

def Write.binds (name : String) : Write → Bool
  | .define name' _ _ | .hoist name' => name' = name
  | .assign _ _ => false

def Operation.binds (name : String) : Operation → Bool
  | .write w => w.binds name
  | .close => false

def written (g : Globals) : Write → Globals
  | .define name v isMutable => g.define name v isMutable
  | .hoist name => g.hoist name
  | .assign name v => (g.assign name v).2

def perform (g : Globals) : Operation → Globals
  | .write w => g.written w
  | .close => g.close.2

/-- The globals after some operations, the latest first. -/
def after (g : Globals) (history : List Operation) : Globals :=
  history.foldr (fun op g => g.perform op) g

/-- Whether an operation is a seal, not necessarily the first. -/
def Operation.isClose : Operation → Bool
  | .close => true
  | .write _ => false

/-- An operation on a stack of layers. -/
def Operation.onLayers (layers : List Layer) : Operation → List Layer
  | .write (.define name v isMutable) => Layer.onTop (·.insert name ⟨v, isMutable⟩) layers
  | .write (.hoist name) => Layer.onTop (ScriptShell.hoist · name) layers
  | .write (.assign name v) => (Layer.assign name v layers).2
  | .close => (Layer.close layers).2

/-- The layers after some operations on a single fresh one, the latest first. -/
def layersAfter (history : List Operation) : List Layer :=
  history.foldr (fun op layers => op.onLayers layers) [⟨.empty, false⟩]

section Layers

variable (g : Globals) (name : String)

theorem find?_layers :
    Layer.find? g.layers name = (g.top.get? name).or (g.belowBinding? name) := by
  obtain ⟨top, below⟩ := g
  cases below <;> cases htop : top.get? name <;> simp [layers, Layer.find?, belowBinding?, htop]

theorem get?_eq : g.get? name = (Layer.find? g.layers name).map (·.value) := by
  rw [find?_layers]
  unfold get?
  cases g.top.get? name <;> rfl

theorem contains_eq : g.contains name = g.layers.any (·.bindings.contains name) := by
  obtain ⟨top, below⟩ := g
  cases below <;> simp [layers, contains, belowBinding?, Dict.contains_eq_isSome_get?]

theorem contains_eq_isSome_get? : g.contains name = (g.get? name).isSome := by
  rw [get?_eq, find?_layers]
  unfold contains
  rw [Dict.contains_eq_isSome_get?]
  cases g.top.get? name <;> simp

theorem assign_layers (v : Value) :
    Layer.assign name v g.layers = ((g.assign name v).1, (g.assign name v).2.layers) := by
  obtain ⟨top, below⟩ := g
  cases htop : top.get? name with
  | some b =>
    cases hb : b.isMutable <;> simp [layers, Layer.assign, assign, define, htop, hb]
  | none =>
    cases below with
    | none => simp [layers, Layer.assign, assign, belowBinding?, htop]
    | some below =>
      cases hbelow : below.get? name <;>
        simp [layers, Layer.assign, assign, belowBinding?, htop, hbelow]

theorem close_layers : Layer.close g.layers = (g.close.1, g.close.2.layers) := by
  obtain ⟨top, below⟩ := g
  cases below <;> rfl

theorem layers_perform (op : Operation) : (g.perform op).layers = op.onLayers g.layers := by
  cases op with
  | write w =>
    cases w with
    | define | hoist => rfl
    | assign name v =>
      rw [Operation.onLayers, assign_layers]
      rfl
  | close =>
    rw [Operation.onLayers, close_layers]
    rfl

theorem layersAfter_eq (history : List Operation) :
    layersAfter history = (empty.after history).layers := by
  induction history with
  | nil => rfl
  | cons op history ih => exact (congrArg op.onLayers ih).trans (layers_perform _ op).symm

theorem isSealed_layers :
    g.layers.map (·.isSealed) = if g.isSealed then [false, true] else [false] := by
  obtain ⟨top, below⟩ := g
  cases below <;> rfl

end Layers

section Sealed

variable {g : Globals} {name : String}

theorem below_written (g : Globals) (w : Write) : (g.written w).below = g.below := by
  cases w with
  | define | hoist => rfl
  | assign name v =>
    change (g.assign name v).2.below = g.below
    unfold assign
    split
    · split <;> rfl
    · rfl

theorem below_perform {below : Dict Binding} (h : g.below = some below) (op : Operation) :
    (g.perform op).below = some below := by
  cases op with
  | write w => exact (below_written g w).trans h
  | close =>
    unfold perform close isSealed
    rw [h]
    exact h

theorem below_after {below : Dict Binding} (h : g.below = some below) (later : List Operation) :
    (g.after later).below = some below := by
  induction later with
  | nil => exact h
  | cons op later ih => exact below_perform ih op

theorem get?_hoist (bindings : Dict Binding) (name name' : String) :
    (ScriptShell.hoist bindings name).get? name' =
      if name = name' then (bindings.get? name').or (some ⟨.undefined, true⟩)
      else bindings.get? name' := by
  unfold ScriptShell.hoist
  rw [Dict.contains_eq_isSome_get?]
  split
  case isTrue h =>
    split
    case isTrue hname =>
      subst hname
      obtain ⟨b, hb⟩ := Option.isSome_iff_exists.mp h
      rw [hb, Option.some_or]
    case isFalse => rfl
  case isFalse h =>
    rw [Dict.get?_insert]
    split
    case isTrue hname =>
      subst hname
      rw [Option.not_isSome_iff_eq_none.mp h, Option.none_or]
    case isFalse => rfl

theorem get?_assign (g : Globals) (name name' : String) (v : Value) :
    ((g.assign name v).2.top.get? name').isSome = (g.top.get? name').isSome := by
  unfold assign
  split
  case h_1 b hb =>
    split
    · rw [define, Dict.get?_insert]
      split
      case isTrue hname =>
        rw [← hname, hb]
        rfl
      case isFalse => rfl
    · rfl
  case h_2 => rfl

/-- A name gets bound at the top by what binds it there, and by nothing else. -/
theorem isSome_top_perform (hsealed : g.isSealed = true) (op : Operation) :
    ((g.perform op).top.get? name).isSome = (op.binds name || (g.top.get? name).isSome) := by
  cases op with
  | write w =>
    cases w with
    | define name' v isMutable =>
      change ((g.top.insert name' ⟨v, isMutable⟩).get? name).isSome = _
      rw [Dict.get?_insert]
      by_cases hname : name' = name <;> simp [hname, Operation.binds, Write.binds]
    | hoist name' =>
      change ((ScriptShell.hoist g.top name').get? name).isSome = _
      rw [get?_hoist]
      by_cases hname : name' = name <;> simp [hname, Operation.binds, Write.binds]
    | assign name' v => exact g.get?_assign name' name v
  | close =>
    unfold perform close
    rw [if_pos hsealed]
    rfl

theorem isSome_top_after (hsealed : g.isSealed = true) (later : List Operation) :
    ((g.after later).top.get? name).isSome =
      (later.any (·.binds name) || (g.top.get? name).isSome) := by
  obtain ⟨below, hbelow⟩ := Option.isSome_iff_exists.mp hsealed
  induction later with
  | nil => rfl
  | cons op later ih =>
    have hsealed' : (g.after later).isSealed = true := by
      unfold isSealed
      rw [below_after hbelow]
      rfl
    exact (isSome_top_perform hsealed' op).trans (by rw [ih, List.any_cons, Bool.or_assoc])

theorem isSealed_after (history : List Operation) :
    (empty.after history).isSealed = history.any (·.isClose) := by
  induction history with
  | nil => rfl
  | cons op history ih =>
    rw [List.any_cons, ← ih]
    change ((empty.after history).perform op).isSealed = _
    cases op with
    | write w => exact congrArg Option.isSome (below_written _ w)
    | close =>
      change (empty.after history).close.2.isSealed = true
      unfold close
      split
      case isTrue h => exact h
      case isFalse => rfl

theorem close_of_first (hfirst : g.close.1 = true) : g.close.2 = ⟨.empty, some g.top⟩ := by
  unfold close at hfirst ⊢
  split at hfirst
  case isTrue => cases hfirst
  case isFalse hopen => rw [if_neg hopen]

theorem below_close (g : Globals) : g.close.2.below = some (g.below.getD g.top) := by
  obtain ⟨top, below⟩ := g
  cases below <;> rfl

theorem after_append (g : Globals) (later earlier : List Operation) :
    g.after (later ++ earlier) = (g.after earlier).after later :=
  List.foldr_append

/-- What there is for good once globals are sealed, whatever is done later: the sealed bindings
are what they were, only what binds a name at the top gets it bound there, and until then a name
that was sealed has the value that it was sealed with. -/
structure SealedSince (start : Globals) (bindings : Dict Binding) (later : List Operation)
    (now : Globals) : Prop where
  eq_after : now = start.after later
  below : now.below = some bindings
  top : ∀ name, (now.top.get? name).isSome =
    (later.any (·.binds name) || (start.top.get? name).isSome)
  reads : ∀ name b, bindings.get? name = some b → start.top.get? name = none →
    later.any (·.binds name) = false → now.get? name = some b.value

theorem sealedSince {bindings : Dict Binding} (hbelow : g.below = some bindings)
    (later : List Operation) : g.SealedSince bindings later (g.after later) := by
  have htops (name : String) : ((g.after later).top.get? name).isSome =
      (later.any (·.binds name) || (g.top.get? name).isSome) :=
    isSome_top_after (Option.isSome_iff_exists.mpr ⟨bindings, hbelow⟩) later
  exact {
    eq_after := rfl
    below := below_after hbelow later
    top := htops
    reads := fun name b hb htop hlater => by
      have hfree := htops name
      rw [hlater, htop] at hfree
      unfold get? belowBinding?
      rw [Option.not_isSome_iff_eq_none.mp (Bool.eq_false_iff.mp hfree), below_after hbelow]
      exact congrArg (Option.map (·.value)) hb }

end Sealed

section Assigned

variable {g : Globals} {name : String} {v : Value}

theorem assign_sealedOff_iff : (g.assign name v).1 = .sealedOff ↔
    g.top.contains name = false ∧ ∃ below, g.below = some below ∧ below.contains name = true := by
  obtain ⟨top, below⟩ := g
  cases htop : top.get? name with
  | some b =>
    cases hb : b.isMutable <;> simp [assign, htop, hb, Dict.contains_eq_isSome_get?]
  | none =>
    cases below with
    | none => simp [assign, htop, belowBinding?]
    | some below =>
      cases hbelow : below.get? name <;>
        simp [assign, htop, belowBinding?, hbelow, Dict.contains_eq_isSome_get?]

theorem assign_notFound_iff : (g.assign name v).1 = .notFound ↔ g.contains name = false := by
  obtain ⟨top, below⟩ := g
  cases htop : top.get? name with
  | some b =>
    cases hb : b.isMutable <;> simp [assign, contains, htop, hb, Dict.contains_eq_isSome_get?]
  | none =>
    cases below with
    | none => simp [assign, contains, htop, belowBinding?, Dict.contains_eq_isSome_get?]
    | some below =>
      cases hbelow : below.get? name <;>
        simp [assign, contains, htop, belowBinding?, hbelow, Dict.contains_eq_isSome_get?]

theorem assign_eq_of_ne_done (h : (g.assign name v).1 ≠ .done) : (g.assign name v).2 = g := by
  unfold assign at h ⊢
  split at h
  case h_1 b hb =>
    split at h
    case isTrue => exact absurd rfl h
    case isFalse hb => rw [if_neg hb]
  case h_2 => rfl

end Assigned

def LeadsTo (g g' : Globals) : Prop :=
  ∃ writes : List Write, g' = g.after (writes.map .write)

namespace LeadsTo

theorem refl (g : Globals) : g.LeadsTo g :=
  ⟨[], rfl⟩

theorem write {g g' : Globals} (h : g.LeadsTo g') (w : Write) : g.LeadsTo (g'.written w) := by
  obtain ⟨writes, rfl⟩ := h
  exact ⟨w :: writes, rfl⟩

theorem trans {g g' g'' : Globals} (h : g.LeadsTo g') (h' : g'.LeadsTo g'') : g.LeadsTo g'' := by
  obtain ⟨writes, rfl⟩ := h'
  induction writes with
  | nil => exact h
  | cons w writes ih => exact ih.write w

theorem hoists (g : Globals) (names : List String) : g.LeadsTo (names.foldl hoist g) := by
  induction names generalizing g with
  | nil => exact .refl g
  | cons name names ih => exact ((LeadsTo.refl g).write (.hoist name)).trans (ih _)

end LeadsTo

end Globals

end ScriptShell
