import Mathlib.Data.Fin.Pigeonhole
import Mathlib.Tactic.Choose
import ScriptShell.Proofs.Globals
import ScriptShell.Proofs.Scopes

namespace ScriptShell

namespace Scopes

variable {s s' : Scopes} {id owner : ScopeId} {name : String}

section Search

theorem nearest?_mono {p : Scope → Bool} {links more : Nat} (hle : links ≤ more)
    (hfound : s.nearest? p links id = some owner) : s.nearest? p more id = some owner := by
  induction links generalizing more id with
  | zero => cases hfound
  | succ links ih =>
    obtain ⟨more, rfl⟩ := Nat.exists_eq_add_of_le' (Nat.le_trans (Nat.le_add_left 1 links) hle)
    rw [nearest?_succ] at hfound ⊢
    split at hfound
    case isTrue hp => rw [if_pos hp, hfound]
    case isFalse hp =>
      obtain ⟨parent, hparent, hfound⟩ := Option.bind_eq_some_iff.mp hfound
      rw [if_neg hp, hparent, Option.bind_some]
      exact ih (Nat.le_of_succ_le_succ hle) hfound

/-- On the way to a scope that is found so many links away there is one for each smaller distance. -/
theorem exists_nearest?_at {p : Scope → Bool} {links : Nat}
    (hfound : s.nearest? p (links + 1) id = some owner) (hnone : s.nearest? p links id = none)
    {fewer : Nat} (hle : fewer ≤ links) :
    ∃ i < s.scopes.size, s.nearest? p (fewer + 1) i = some owner ∧
      s.nearest? p fewer i = none := by
  induction links generalizing id with
  | zero =>
    obtain rfl := Nat.le_zero.mp hle
    refine ⟨id, Nat.lt_of_not_le fun hsize => ?_, hfound, rfl⟩
    rw [nearest?, Array.getElem?_eq_none hsize] at hfound
    cases hfound
  | succ links ih =>
    rcases Nat.le_succ_iff.mp hle with hle | rfl
    · rw [nearest?_succ] at hfound hnone
      split at hfound
      case isTrue hp => rw [if_pos hp] at hnone; cases hnone
      case isFalse hp =>
        obtain ⟨parent, hparent, hfound⟩ := Option.bind_eq_some_iff.mp hfound
        rw [if_neg hp, hparent, Option.bind_some] at hnone
        exact ih hfound hnone hle
    · refine ⟨id, Nat.lt_of_not_le fun hsize => ?_, hfound, hnone⟩
      rw [nearest?, Array.getElem?_eq_none hsize] at hfound
      cases hfound

/-- What is found is no more links away than there are scopes: each of the scopes on the way is at
another distance from it. -/
theorem nearest?_of_size_le (s : Scopes) (p : Scope → Bool) {links : Nat}
    (hlinks : s.scopes.size ≤ links) (id : ScopeId) :
    s.nearest? p links id = s.nearest? p s.scopes.size id := by
  induction links, hlinks using Nat.le_induction with
  | base => rfl
  | succ links hlinks ih =>
    rw [← ih]
    cases hless : s.nearest? p links id with
    | some owner => exact nearest?_mono (Nat.le_succ links) hless
    | none =>
      refine Option.eq_none_iff_forall_ne_some.mpr fun owner hfound => ?_
      choose i hi hat hbefore using fun m : Fin (links + 1) =>
        exists_nearest?_at hfound hless (Nat.le_of_lt_succ m.isLt)
      have hdistance {m m' : Fin (links + 1)} (hsame : i m = i m') : m' ≤ m := by
        refine Fin.not_lt.mp fun hlt => ?_
        have hearlier := nearest?_mono (Nat.succ_le_of_lt hlt) (hat m)
        rw [hsame, hbefore m'] at hearlier
        cases hearlier
      have hinjective : Function.Injective fun m => (⟨i m, hi m⟩ : Fin s.scopes.size) := by
        intro m m' hsame
        have hsame : i m = i m' := Fin.mk.inj hsame
        exact Fin.le_antisymm (hdistance hsame.symm) (hdistance hsame)
      exact Nat.lt_irrefl _ (Nat.lt_of_lt_of_le (Fin.le_of_injective _ hinjective) hlinks)

theorem nearest?_size (s : Scopes) (p : Scope → Bool) (id : ScopeId) :
    s.nearest? p s.scopes.size id =
      if s.scopes[id]?.any p then some id
      else (s.parent? id).bind (s.nearest? p s.scopes.size) := by
  rw [← s.nearest?_of_size_le p (Nat.le_succ _), nearest?_succ]

end Search

section Inside

variable {scope call : Option ScopeId} {P Q : ScopeId → Prop}

/-- From a scope block scopes lead to the function scope of a call, or to the top level; all of them
have a property. -/
inductive Inside (s : Scopes) (P : ScopeId → Prop) : Option ScopeId → Option ScopeId → Prop where
  | top : Inside s P none none
  | call {id : ScopeId} (hid : P id) (hfunction : s.isFunctionScope id = true) :
      Inside s P (some id) (some id)
  | block {id : ScopeId} {call : Option ScopeId} (hid : P id)
      (hblock : s.isFunctionScope id = false) (rest : Inside s P (s.parent? id) call) :
      Inside s P (some id) call

theorem Inside.imp (h : s.Inside P scope call)
    (hP : ∀ id, P id → Q id ∧ s'.parent? id = s.parent? id ∧
      s'.isFunctionScope id = s.isFunctionScope id) : s'.Inside Q scope call := by
  induction h with
  | top => exact .top
  | call hid hfunction =>
    obtain ⟨hid, -, hkind⟩ := hP _ hid
    exact .call hid (hkind.trans hfunction)
  | block hid hblock _ ih =>
    obtain ⟨hid, hparent, hkind⟩ := hP _ hid
    exact .block hid (hkind.trans hblock) (hparent ▸ ih)

theorem Inside.of_scope (h : s.Inside P (some id) call) : P id := by
  cases h with
  | call hid | block hid => exact hid

theorem nearest?_isFunction (s : Scopes) (id : ScopeId) :
    s.nearest? (·.isFunction) s.scopes.size id =
      if s.isFunctionScope id then some id
      else (s.parent? id).bind (s.nearest? (·.isFunction) s.scopes.size) :=
  s.nearest?_size (·.isFunction) id

theorem nearest?_inside (h : s.Inside P (some id) call) :
    s.nearest? (·.isFunction) s.scopes.size id = call := by
  generalize hscope : some id = scope at h
  induction h generalizing id with
  | top => cases hscope
  | call _ hfunction =>
    cases hscope
    rw [nearest?_isFunction, if_pos hfunction]
  | @block id' call _ hblock rest ih =>
    cases hscope
    rw [nearest?_isFunction, hblock, if_neg Bool.false_ne_true]
    cases hparent : s.parent? id' with
    | none =>
      rw [hparent] at rest
      cases rest
      rfl
    | some parent => exact ih hparent.symm

theorem outermost_inside (h : s.Inside P (some id) none) (links : Nat) :
    s.isFunctionScope (s.outermost links id) = false := by
  induction links generalizing id with
  | zero =>
    cases h with
    | block _ hblock => exact hblock
  | succ links ih =>
    cases h with
    | block _ hblock rest =>
      cases hparent : s.parent? id with
      | none =>
        rw [outermost, show s.scopes[id]?.bind (·.parent) = none from hparent]
        exact hblock
      | some parent =>
        rw [outermost, show s.scopes[id]?.bind (·.parent) = some parent from hparent]
        rw [hparent] at rest
        exact ih rest

theorem Inside.eq_of_functionScope (h : s.Inside P scope call) {k : ScopeId}
    (hfunction : s.isFunctionScope k = true) (hk : scope.map s.functionScope = some k) :
    call = some k := by
  obtain ⟨id, rfl, hscope⟩ := Option.map_eq_some_iff.mp hk
  rw [functionScope, nearest?_inside h] at hscope
  cases call with
  | some k' => exact congrArg some hscope
  | none =>
    have houter := outermost_inside h s.scopes.size
    rw [show s.outermost s.scopes.size id = k from hscope, hfunction] at houter
    cases houter

theorem find?_of_not_bound (hnone : s.binding? id name = none) :
    s.find? id name = (s.parent? id).bind fun parent => s.find? parent name := by
  unfold find?
  rw [nearest?_size, any_contains_eq, hnone]
  cases s.parent? id <;> rfl

theorem Inside.find?_eq (h : s.Inside P scope (some id))
    (hnone : ∀ id, P id → s.binding? id name = none) :
    (scope.bind fun id => s.find? id name) =
      (s.parent? id).bind fun parent => s.find? parent name := by
  generalize hcall : some id = call at h
  induction h with
  | top => cases hcall
  | call hid =>
    cases hcall
    exact find?_of_not_bound (hnone id hid)
  | block hid _ _ ih => exact (find?_of_not_bound (hnone _ hid)).trans (ih hcall)

end Inside

section Named

variable {names more : String → Prop} {s'' : Scopes}

/-- One scope has got names, and nothing else has changed. -/
structure Named (s s' : Scopes) (id : ScopeId) (names : String → Prop) : Prop where
  size : s'.scopes.size = s.scopes.size
  others : ∀ id', id' ≠ id → s'.scopes[id']? = s.scopes[id']?
  parent? : s'.parent? id = s.parent? id
  isFunctionScope : s'.isFunctionScope id = s.isFunctionScope id
  bound : ∀ name, (s'.binding? id name).isSome = true ↔
    (s.binding? id name).isSome = true ∨ names name

theorem Named.refl (s : Scopes) (id : ScopeId) : s.Named s id fun _ => False :=
  ⟨rfl, fun _ _ => rfl, rfl, rfl, fun _ => (or_false _).symm.to_iff⟩

theorem Named.trans (h : s.Named s' id names) (h' : s'.Named s'' id more) :
    s.Named s'' id fun name => names name ∨ more name where
  size := h'.size.trans h.size
  others id' hid := (h'.others id' hid).trans (h.others id' hid)
  parent? := h'.parent?.trans h.parent?
  isFunctionScope := h'.isFunctionScope.trans h.isFunctionScope
  bound name := by rw [h'.bound, h.bound, or_assoc]

theorem Named.congr (h : s.Named s' id names) (hnames : ∀ name, names name ↔ more name) :
    s.Named s' id more :=
  ⟨h.size, h.others, h.parent?, h.isFunctionScope, fun name => by rw [h.bound, hnames]⟩

theorem named_modify (s : Scopes) (id : ScopeId) {f : Scope → Scope}
    (hparent : ∀ scope, (f scope).parent = scope.parent)
    (hkind : ∀ scope, (f scope).isFunction = scope.isFunction)
    (hbound : ∀ name, ((s.modify id f).binding? id name).isSome = true ↔
      (s.binding? id name).isSome = true ∨ names name) : s.Named (s.modify id f) id names where
  size := s.size_modify id f
  others id' hid := by rw [getElem?_modify, if_neg (Ne.symm hid)]
  parent? := s.parent?_modify id id hparent
  isFunctionScope := by
    unfold Scopes.isFunctionScope
    rw [getElem?_modify, if_pos rfl]
    cases s.scopes[id]? with
    | none => rfl
    | some scope => exact hkind scope
  bound := hbound

theorem named_declare (hid : id < s.scopes.size) (name : String) (v : Value) (isMutable : Bool) :
    s.Named (s.declare id name v isMutable) id (· = name) := by
  refine s.named_modify id (fun _ => rfl) (fun _ => rfl) fun name' => ?_
  change ((s.declare id name v isMutable).binding? id name').isSome = true ↔ _
  rw [binding?_declare hid]
  by_cases hname : name' = name <;> simp [hname]

theorem named_hoist (hid : id < s.scopes.size) (name : String) :
    s.Named (s.hoist id name) id (· = name) := by
  refine s.named_modify id (fun _ => rfl) (fun _ => rfl) fun name' => ?_
  change ((s.hoist id name).scopes[id]?.bind (·.bindings.get? name')).isSome = true ↔ _
  rw [hoist, getElem?_modify, if_pos rfl, binding?, Array.getElem?_eq_getElem hid]
  change ((ScriptShell.hoist s.scopes[id].bindings name).get? name').isSome = true ↔
    (s.scopes[id].bindings.get? name').isSome = true ∨ _
  rw [Globals.get?_hoist]
  by_cases hname : name = name' <;>
    cases s.scopes[id].bindings.get? name' <;> simp [hname, eq_comm]

theorem named_hoists (hid : id < s.scopes.size) (names : List String) :
    s.Named (names.foldl (fun s name => s.hoist id name) s) id (· ∈ names) := by
  induction names generalizing s with
  | nil => exact (Named.refl s id).congr fun _ => by simp
  | cons name names ih =>
    have hoisted := named_hoist hid name
    exact (hoisted.trans (ih (hoisted.size ▸ hid))).congr fun _ => by simp

theorem Named.extends (h : s.Named s' id names) :
    s.Extends (fun id' name => id' = id ∧ names name) s' where
  size := Nat.le_of_eq h.size.symm
  parent? id' _ := by
    by_cases hid : id' = id
    · rw [hid, h.parent?]
    · rw [Scopes.parent?, Scopes.parent?, h.others id' hid]
  isFunctionScope id' _ := by
    by_cases hid : id' = id
    · rw [hid, h.isFunctionScope]
    · rw [Scopes.isFunctionScope, Scopes.isFunctionScope, h.others id' hid]
  bound id' _ name hname := by
    by_cases hid : id' = id
    · subst hid
      exact Bool.eq_iff_iff.mpr ((h.bound name).trans (or_iff_left fun h => hname ⟨rfl, h⟩))
    · rw [binding?, binding?, h.others id' hid]

end Named

end Scopes

end ScriptShell
