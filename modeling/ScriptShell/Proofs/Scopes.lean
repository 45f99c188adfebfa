import Mathlib.Logic.Relation
import ScriptShell.Scope

namespace ScriptShell

namespace Scopes

variable {s s' : Scopes} {id owner : ScopeId} {ids : List ScopeId} {name : String} {v : Value}
  {b : Binding}

section Observing

def binding? (s : Scopes) (id : ScopeId) (name : String) : Option Binding :=
  s.scopes[id]?.bind (·.bindings.get? name)

def parent? (s : Scopes) (id : ScopeId) : Option ScopeId :=
  s.scopes[id]?.bind (·.parent)

def isFunctionScope (s : Scopes) (id : ScopeId) : Bool :=
  s.scopes[id]?.any (·.isFunction)

theorem getElem?_modify (s : Scopes) (id id' : ScopeId) (f : Scope → Scope) :
    (s.modify id f).scopes[id']? = if id = id' then s.scopes[id']?.map f else s.scopes[id']? :=
  Array.getElem?_modify

theorem getElem?_open_ (s : Scopes) (parent : Option ScopeId) (isFunction : Bool) (id : ScopeId) :
    (s.open_ parent isFunction).2.scopes[id]? =
      if id = s.scopes.size then some ⟨.empty, parent, isFunction⟩ else s.scopes[id]? :=
  Array.getElem?_push

theorem size_modify (s : Scopes) (id : ScopeId) (f : Scope → Scope) :
    (s.modify id f).scopes.size = s.scopes.size :=
  Array.size_modify

theorem size_open_ (s : Scopes) (parent : Option ScopeId) (isFunction : Bool) :
    (s.open_ parent isFunction).2.scopes.size = s.scopes.size + 1 :=
  Array.size_push _

theorem size_hoists (s : Scopes) (id : ScopeId) (names : List String) :
    s.scopes.size ≤ (names.foldl (fun s name => s.hoist id name) s).scopes.size := by
  induction names generalizing s with
  | nil => exact Nat.le_refl _
  | cons name names ih => exact Nat.le_trans (Nat.le_of_eq (s.size_modify id _).symm) (ih _)

theorem parent?_open_ (s : Scopes) (parent : Option ScopeId) (isFunction : Bool) (id : ScopeId) :
    (s.open_ parent isFunction).2.parent? id =
      if id = s.scopes.size then parent else s.parent? id := by
  unfold parent?
  rw [getElem?_open_]
  split <;> rfl

theorem parent?_modify (s : Scopes) (id id' : ScopeId) {f : Scope → Scope}
    (hf : ∀ scope, (f scope).parent = scope.parent) :
    (s.modify id f).parent? id' = s.parent? id' := by
  unfold parent?
  rw [getElem?_modify]
  split
  · cases s.scopes[id']? with
    | none => rfl
    | some scope => exact hf scope
  · rfl

theorem parent?_clear (s : Scopes) (id id' : ScopeId) :
    (s.clear id).parent? id' = if id = id' then none else s.parent? id' := by
  unfold parent? clear
  rw [getElem?_modify]
  split
  · cases s.scopes[id']? <;> rfl
  · rfl

theorem lt_size_of_binding? (hb : s.binding? id name = some b) : id < s.scopes.size := by
  refine Nat.lt_of_not_le fun hsize => ?_
  rw [binding?, Array.getElem?_eq_none hsize] at hb
  cases hb

theorem binding?_declare (hid : id < s.scopes.size) (name : String) (v : Value) (isMutable : Bool)
    (id' : ScopeId) (name' : String) : (s.declare id name v isMutable).binding? id' name' =
      if id' = id ∧ name' = name then some ⟨v, isMutable⟩ else s.binding? id' name' := by
  unfold binding? declare
  rw [getElem?_modify]
  by_cases hsame : id = id'
  · subst hsame
    rw [if_pos rfl, Array.getElem?_eq_getElem hid]
    change (s.scopes[id].bindings.insert name ⟨v, isMutable⟩).get? name' = _
    rw [Dict.get?_insert]
    by_cases hname : name = name' <;> simp [hname, Ne.symm]
  · simp [hsame, Ne.symm hsame]

theorem any_contains_eq (s : Scopes) (id : ScopeId) (name : String) :
    (s.scopes[id]?.any fun scope => scope.bindings.contains name) = (s.binding? id name).isSome := by
  unfold binding?
  cases s.scopes[id]? with
  | none => rfl
  | some scope => exact scope.bindings.contains_eq_isSome_get? name

theorem nearest?_succ (s : Scopes) (p : Scope → Bool) (links : Nat) (id : ScopeId) :
    s.nearest? p (links + 1) id =
      if s.scopes[id]?.any p then some id else (s.parent? id).bind (s.nearest? p links) := by
  unfold parent?
  rw [nearest?]
  cases s.scopes[id]? <;> rfl

theorem nearest?_congr {p : Scope → Bool} (hparent : ∀ id, s'.parent? id = s.parent? id)
    (hp : ∀ id : ScopeId, s'.scopes[id]?.any p = s.scopes[id]?.any p) (links : Nat)
    (id : ScopeId) : s'.nearest? p links id = s.nearest? p links id := by
  induction links generalizing id with
  | zero => rfl
  | succ links ih => rw [nearest?_succ, nearest?_succ, hp, hparent, funext ih]

end Observing

section Made

/-- Scopes that were opened below others, or for themselves, and have been used since. -/
inductive Made : Scopes → Prop where
  | empty : Made empty
  | open_ {s : Scopes} (parent : Option ScopeId) (isFunction : Bool) (made : Made s)
      (hparent : ∀ id ∈ parent, id < s.scopes.size) : Made (s.open_ parent isFunction).2
  | declare {s : Scopes} (id : ScopeId) (name : String) (v : Value) (isMutable : Bool)
      (made : Made s) : Made (s.declare id name v isMutable)
  | hoist {s : Scopes} (id : ScopeId) (name : String) (made : Made s) : Made (s.hoist id name)
  | assign {s : Scopes} (id : ScopeId) (name : String) (v : Value) (made : Made s) :
      Made (s.assign id name v).2
  | clear {s : Scopes} (id : ScopeId) (made : Made s) : Made (s.clear id)

def Ordered (s : Scopes) : Prop :=
  ∀ id parent, s.parent? id = some parent → parent < id

theorem Ordered.modify (hs : s.Ordered) (id : ScopeId) {f : Scope → Scope}
    (hf : ∀ scope, (f scope).parent = scope.parent) : (s.modify id f).Ordered := by
  intro id' parent hparent
  rw [s.parent?_modify id id' hf] at hparent
  exact hs id' parent hparent

theorem Ordered.open_ (hs : s.Ordered) {parent : Option ScopeId} (isFunction : Bool)
    (hparent : ∀ id ∈ parent, id < s.scopes.size) : (s.open_ parent isFunction).2.Ordered := by
  intro id parent' hparent'
  rw [parent?_open_] at hparent'
  split at hparent'
  case isTrue hid => exact hid ▸ hparent parent' hparent'
  case isFalse => exact hs id parent' hparent'

theorem Ordered.clear (hs : s.Ordered) (id : ScopeId) : (s.clear id).Ordered := by
  intro id' parent hparent
  rw [parent?_clear] at hparent
  split at hparent
  case isTrue => cases hparent
  case isFalse => exact hs id' parent hparent

theorem Ordered.assign (hs : s.Ordered) (id : ScopeId) (name : String) (v : Value) :
    (s.assign id name v).2.Ordered := by
  unfold Scopes.assign
  split
  · exact hs
  · split
    · exact hs.modify _ fun _ => rfl
    · exact hs

theorem Made.ordered (made : s.Made) : s.Ordered := by
  induction made with
  | empty => nofun
  | open_ parent isFunction _ hparent ih => exact ih.open_ isFunction hparent
  | declare id _ _ _ _ ih => exact ih.modify id fun _ => rfl
  | hoist id _ _ ih => exact ih.modify id fun _ => rfl
  | assign id name v _ ih => exact ih.assign id name v
  | clear id _ ih => exact ih.clear id

theorem Ordered.acyclic (hs : s.Ordered) (id : ScopeId) :
    ¬ Relation.TransGen (fun i j => s.parent? i = some j) id id := by
  have older {i j : ScopeId} (hij : Relation.TransGen (fun i j => s.parent? i = some j) i j) :
      j < i := by
    induction hij with
    | single hparent => exact hs _ _ hparent
    | tail _ hparent ih => exact Nat.lt_trans (hs _ _ hparent) ih
  exact fun hcycle => Nat.lt_irrefl id (older hcycle)

end Made

section Chain

/-- The scopes from one on to the last of its parents. -/
inductive Chain (s : Scopes) : ScopeId → List ScopeId → Prop where
  | last {id : ScopeId} (hparent : s.parent? id = none) : Chain s id [id]
  | link {id parent : ScopeId} {ids : List ScopeId} (hparent : s.parent? id = some parent)
      (rest : Chain s parent ids) : Chain s id (id :: ids)

theorem Chain.unique (hids : s.Chain id ids) {ids' : List ScopeId} (hids' : s.Chain id ids') :
    ids' = ids := by
  induction hids generalizing ids' with
  | last hparent =>
    cases hids' with
    | last => rfl
    | link hparent' => cases hparent.symm.trans hparent'
  | link hparent _ ih =>
    cases hids' with
    | last hparent' => cases hparent.symm.trans hparent'
    | link hparent' rest =>
      cases hparent.symm.trans hparent'
      rw [ih rest]

theorem Ordered.exists_chain (hs : s.Ordered) (id : ScopeId) :
    ∃ ids, s.Chain id ids ∧ ids.length ≤ id + 1 := by
  induction id using Nat.strongRecOn with
  | ind id ih =>
    cases hparent : s.parent? id with
    | none => exact ⟨[id], .last hparent, Nat.le_add_left 1 id⟩
    | some parent =>
      have hlt := hs id parent hparent
      obtain ⟨ids, hids, hlength⟩ := ih parent hlt
      exact ⟨id :: ids, .link hparent hids, Nat.succ_le_succ (Nat.le_trans hlength hlt)⟩

theorem Chain.nearest?_eq (hids : s.Chain id ids) (p : Scope → Bool) {links : Nat}
    (hlinks : ids.length ≤ links) :
    s.nearest? p links id = ids.find? fun i => s.scopes[i]?.any p := by
  induction hids generalizing links with
  | @last id hparent =>
    obtain ⟨links, rfl⟩ := Nat.exists_eq_add_of_le' hlinks
    rw [List.length_singleton, nearest?_succ, hparent, List.find?_cons]
    cases s.scopes[id]?.any p <;> rfl
  | @link id parent ids hparent rest ih =>
    obtain ⟨links, rfl⟩ := Nat.exists_eq_add_of_le' (Nat.le_trans (Nat.le_add_left 1 _) hlinks)
    rw [nearest?_succ, hparent, List.find?_cons]
    cases s.scopes[id]?.any p with
    | true => rfl
    | false => exact ih (Nat.le_of_succ_le_succ hlinks)

theorem Chain.getLast?_eq (hids : s.Chain id ids) {links : Nat} (hlinks : ids.length ≤ links + 1) :
    ids.getLast? = some (s.outermost links id) := by
  induction hids generalizing links with
  | @last id hparent =>
    cases links with
    | zero => rfl
    | succ links => rw [outermost, show s.scopes[id]?.bind (·.parent) = none from hparent]; rfl
  | @link id parent ids hparent rest ih =>
    cases rest with
    | last hlast | link hnext tail =>
      obtain ⟨links, rfl⟩ := Nat.exists_eq_add_of_le' (Nat.le_trans (Nat.le_add_left 1 _)
        (Nat.le_of_succ_le_succ hlinks))
      rw [List.getLast?_cons_cons, ih (Nat.le_of_succ_le_succ hlinks), outermost,
        show s.scopes[id]?.bind (·.parent) = some parent from hparent]

/-- The nearest binding of a name on a chain: the first one, of the scope that has it. -/
structure Nearest (s : Scopes) (ids : List ScopeId) (name : String) (owner : ScopeId)
    (b : Binding) : Prop where
  binding : s.binding? owner name = some b
  first : ∃ inner outer, ids = inner ++ owner :: outer ∧ ∀ id ∈ inner, s.binding? id name = none

variable (hids : s.Chain id ids) (hlength : ids.length ≤ s.scopes.size)
include hids hlength

theorem Chain.find?_eq (name : String) :
    s.find? id name = (ids.find? fun i => (s.binding? i name).isSome).bind fun owner =>
      (s.binding? owner name).map fun b => (owner, b) := by
  unfold find?
  rw [hids.nearest?_eq _ hlength]
  simp only [any_contains_eq]
  rfl

theorem Chain.find?_eq_some_iff : s.find? id name = some (owner, b) ↔ s.Nearest ids name owner b := by
  rw [hids.find?_eq hlength, Option.bind_eq_some_iff]
  constructor
  · rintro ⟨i, hi, hb⟩
    obtain ⟨b', hb', heq⟩ := Option.map_eq_some_iff.mp hb
    cases heq
    obtain ⟨-, inner, outer, hsplit, hinner⟩ := List.find?_eq_some_iff_append.mp hi
    exact ⟨hb', inner, outer, hsplit, fun j hj => by simpa using hinner j hj⟩
  · rintro ⟨hb, inner, outer, hsplit, hinner⟩
    refine ⟨owner, List.find?_eq_some_iff_append.mpr ⟨?_, inner, outer, hsplit, ?_⟩, ?_⟩
    · rw [hb]
      rfl
    · exact fun j hj => by rw [hinner j hj]; rfl
    · rw [hb]
      rfl

theorem Chain.binding?_eq_none_of_find? (hnone : s.find? id name = none) :
    ∀ i ∈ ids, s.binding? i name = none := by
  rw [hids.find?_eq hlength] at hnone
  cases howner : ids.find? fun i => (s.binding? i name).isSome with
  | none =>
    intro i hi
    simpa using List.find?_eq_none.mp howner i hi
  | some owner =>
    rw [howner, Option.bind_some, Option.map_eq_none_iff] at hnone
    have hsome := List.find?_some howner
    rw [hnone] at hsome
    cases hsome

theorem Chain.functionScope_eq :
    some (s.functionScope id) = (ids.find? s.isFunctionScope).or ids.getLast? := by
  unfold functionScope
  rw [hids.nearest?_eq _ hlength, hids.getLast?_eq (Nat.le_succ_of_le hlength)]
  change _ = Option.or (ids.find? fun i => s.scopes[i]?.any (·.isFunction)) _
  cases ids.find? _ <;> rfl

/-- What is found along a chain: for any bound on the links that is no shorter than the chain, its
first scope of a kind, and so the nearest binding of a name and the innermost function scope. -/
structure Searched (s : Scopes) (id : ScopeId) (ids : List ScopeId) : Prop where
  chain : s.Chain id ids
  unique : ∀ ids', s.Chain id ids' → ids' = ids
  length : ids.length ≤ s.scopes.size
  nearest? : ∀ p links, ids.length ≤ links →
    s.nearest? p links id = ids.find? fun i => s.scopes[i]?.any p
  find? : ∀ name owner b, s.find? id name = some (owner, b) ↔ s.Nearest ids name owner b
  functionScope : some (s.functionScope id) = (ids.find? s.isFunctionScope).or ids.getLast?

theorem Chain.searched : s.Searched id ids where
  chain := hids
  unique _ := hids.unique
  length := hlength
  nearest? p _ := hids.nearest?_eq p
  find? _ _ _ := hids.find?_eq_some_iff hlength
  functionScope := hids.functionScope_eq hlength

end Chain

section Assigned

/-- One store of scopes differs from another in one cell at most, which has got a value. -/
structure Rebound (s s' : Scopes) (owner : ScopeId) (name : String) (v : Value) : Prop where
  size : s'.scopes.size = s.scopes.size
  parent? : ∀ id, s'.parent? id = s.parent? id
  isFunctionScope : ∀ id, s'.isFunctionScope id = s.isFunctionScope id
  binding? : ∀ id name', s'.binding? id name' =
    if id = owner ∧ name' = name then some ⟨v, true⟩ else s.binding? id name'

theorem rebound_declare (howner : owner < s.scopes.size) (name : String) (v : Value) :
    s.Rebound (s.declare owner name v true) owner name v where
  size := s.size_modify owner _
  parent? id := s.parent?_modify owner id fun _ => rfl
  isFunctionScope id := by
    rw [Scopes.isFunctionScope, declare, getElem?_modify]
    split <;> cases h : s.scopes[id]? <;> simp [Scopes.isFunctionScope, h]
  binding? := binding?_declare howner name v true

/-- A new value for a name that is bound is found wherever the old one was. -/
theorem Rebound.find?_eq (h : s.Rebound s' owner name v) (hb : s.binding? owner name = some b)
    (id : ScopeId) (name' : String) : s'.find? id name' = (s.find? id name').map fun found =>
      if found.1 = owner ∧ name' = name then (owner, ⟨v, true⟩) else found := by
  have hbound (i : ScopeId) : (s'.binding? i name').isSome = (s.binding? i name').isSome := by
    rw [h.binding?]
    split
    case isTrue heq => rw [heq.1, heq.2, hb]; rfl
    case isFalse => rfl
  unfold find?
  rw [h.size, nearest?_congr h.parent? fun i => by rw [any_contains_eq, any_contains_eq, hbound]]
  cases s.nearest? _ _ id with
  | none => rfl
  | some i =>
    change (s'.binding? i name').map _ = ((s.binding? i name').map _).map _
    rw [h.binding?]
    split
    case isTrue heq => simp [heq, hb]
    case isFalse hne => cases s.binding? i name' <;> simp [hne]

theorem Rebound.lookup?_eq (h : s.Rebound s' owner name v) (hb : s.binding? owner name = some b)
    (id : ScopeId) (name' : String) : s'.lookup? id name' =
      if (s.find? id name').map (·.1) = some owner ∧ name' = name then some v
      else s.lookup? id name' := by
  unfold lookup?
  rw [h.find?_eq hb]
  cases s.find? id name' with
  | none => simp
  | some found => by_cases heq : found.1 = owner ∧ name' = name <;> simp [heq]

theorem binding?_of_find? (hfound : s.find? id name = some (owner, b)) :
    s.binding? owner name = some b := by
  obtain ⟨i, -, hi⟩ := Option.bind_eq_some_iff.mp hfound
  obtain ⟨b', hb', heq⟩ := Option.map_eq_some_iff.mp hi
  cases heq
  exact hb'

/-- What becomes of an assignment along a chain. -/
inductive Assigns (s : Scopes) (ids : List ScopeId) (name : String) (v : Value) :
    Assigned × Scopes → Prop where
  | notFound (hnone : ∀ id ∈ ids, s.binding? id name = none) : Assigns s ids name v (.notFound, s)
  | constant {owner : ScopeId} {b : Binding} (hb : s.Nearest ids name owner b)
      (hmutable : b.isMutable = false) : Assigns s ids name v (.constant, s)
  | done {owner : ScopeId} {b : Binding} {s' : Scopes} (hb : s.Nearest ids name owner b)
      (hmutable : b.isMutable = true) (rebound : s.Rebound s' owner name v)
      (reads : ∀ id name', s'.lookup? id name' =
        if (s.find? id name').map (·.1) = some owner ∧ name' = name then some v
        else s.lookup? id name') : Assigns s ids name v (.done, s')

theorem Chain.assigns (hids : s.Chain id ids) (hlength : ids.length ≤ s.scopes.size)
    (name : String) (v : Value) : s.Assigns ids name v (s.assign id name v) := by
  unfold assign
  cases hfound : s.find? id name with
  | none => exact .notFound (hids.binding?_eq_none_of_find? hlength hfound)
  | some found =>
    obtain ⟨owner, b⟩ := found
    have hb := (hids.find?_eq_some_iff hlength).mp hfound
    cases hmutable : b.isMutable with
    | true =>
      simp only [hmutable, if_pos]
      have rebound := rebound_declare (lt_size_of_binding? hb.binding) name v
      exact .done hb hmutable rebound (rebound.lookup?_eq hb.binding)
    | false =>
      simp only [hmutable]
      exact .constant hb hmutable

end Assigned

section Extended

/-- What becomes of scopes: none is lost, and those that there were keep their parent and their kind
and bind the same names, but for what may be bound anew. -/
structure Extends (anew : ScopeId → String → Prop) (s s' : Scopes) : Prop where
  size : s.scopes.size ≤ s'.scopes.size
  parent? : ∀ id < s.scopes.size, s'.parent? id = s.parent? id
  isFunctionScope : ∀ id < s.scopes.size, s'.isFunctionScope id = s.isFunctionScope id
  bound : ∀ id < s.scopes.size, ∀ name, ¬ anew id name →
    (s'.binding? id name).isSome = (s.binding? id name).isSome

variable {anew anew' : ScopeId → String → Prop} {s'' : Scopes}

theorem Extends.refl (s : Scopes) : s.Extends anew s :=
  ⟨Nat.le_refl _, fun _ _ => rfl, fun _ _ => rfl, fun _ _ _ _ => rfl⟩

theorem Extends.trans (h : s.Extends anew s') (h' : s'.Extends anew s'') : s.Extends anew s'' where
  size := Nat.le_trans h.size h'.size
  parent? id hid := (h'.parent? id (Nat.lt_of_lt_of_le hid h.size)).trans (h.parent? id hid)
  isFunctionScope id hid :=
    (h'.isFunctionScope id (Nat.lt_of_lt_of_le hid h.size)).trans (h.isFunctionScope id hid)
  bound id hid name hname :=
    (h'.bound id (Nat.lt_of_lt_of_le hid h.size) name hname).trans (h.bound id hid name hname)

theorem Extends.mono (h : s.Extends anew s')
    (hanew : ∀ id < s.scopes.size, ∀ name, anew id name → anew' id name) :
    s.Extends anew' s' where
  size := h.size
  parent? := h.parent?
  isFunctionScope := h.isFunctionScope
  bound id hid name hname := h.bound id hid name fun h => hname (hanew id hid name h)

theorem extends_of_getElem? (hsize : s.scopes.size ≤ s'.scopes.size)
    (hsame : ∀ id < s.scopes.size, s'.scopes[id]? = s.scopes[id]?) : s.Extends anew s' where
  size := hsize
  parent? id hid := by rw [Scopes.parent?, Scopes.parent?, hsame id hid]
  isFunctionScope id hid := by rw [Scopes.isFunctionScope, Scopes.isFunctionScope, hsame id hid]
  bound id hid name _ := by rw [binding?, binding?, hsame id hid]

theorem extends_open_ (s : Scopes) (parent : Option ScopeId) (isFunction : Bool) :
    s.Extends anew (s.open_ parent isFunction).2 := by
  refine extends_of_getElem? ?_ fun id hid => ?_
  · rw [size_open_]
    exact Nat.le_add_right _ 1
  · rw [getElem?_open_, if_neg (Nat.ne_of_lt hid)]

theorem Rebound.extends (h : s.Rebound s' owner name v) (hb : s.binding? owner name = some b) :
    s.Extends anew s' where
  size := Nat.le_of_eq h.size.symm
  parent? id _ := h.parent? id
  isFunctionScope id _ := h.isFunctionScope id
  bound id _ name' _ := by
    rw [h.binding?]
    split
    case isTrue heq => rw [heq.1, heq.2, hb]; rfl
    case isFalse => rfl

theorem extends_assign (s : Scopes) (id : ScopeId) (name : String) (v : Value) :
    s.Extends anew (s.assign id name v).2 := by
  unfold assign
  split
  case h_1 => exact .refl s
  case h_2 owner b hfound =>
    have hb := binding?_of_find? hfound
    split
    case isTrue => exact (rebound_declare (lt_size_of_binding? hb) name v).extends hb
    case isFalse => exact .refl s

end Extended

end Scopes

end ScriptShell
