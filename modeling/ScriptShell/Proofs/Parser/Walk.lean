import ScriptShell.Proofs.Parser.Uniform

namespace ScriptShell

/-- What stands at a position: a token, or the end of the source. -/
structure Slot where
  /-- Nothing at the end. -/
  kind : Option TokenKind
  place : Location
  newlineBefore : Bool

def Slot.ofToken (t : Token) : Slot :=
  ⟨some t.kind, t.place, t.newlineBefore⟩

def Slot.behind (p : Nat) (slot : Slot) : Nat :=
  if slot.kind.isSome then p + 1 else p

theorem Slot.le_behind (p : Nat) (slot : Slot) : p ≤ slot.behind p := by
  unfold behind
  split <;> omega

/-- The tokens by position, and behind them the only end. -/
def Tokens.slots (ts : Tokens) : List Slot :=
  ts.items.map .ofToken ++ [⟨none, ts.finish, ts.newlineAtEnd⟩]

namespace Parser

variable {α β : Type}

/-- What a parser keeps track of besides the tokens. -/
structure Notes where
  warnings : List ParseWarning
  varScopes : List (List String)
  functionDepth : Nat
  loopDepth : Nat

def Notes.initial : Notes :=
  ⟨[], [[]], 0, 0⟩

def State.notes (s : State) : Notes :=
  ⟨s.warnings, s.varScopes, s.functionDepth, s.loopDepth⟩

namespace Notes

def facing (notes : Notes) (rest : List Token) : State :=
  ⟨rest, notes.warnings, notes.varScopes, notes.functionDepth, notes.loopDepth⟩

def warn (remark : Remark) (place : Location) (strict : Bool) (notes : Notes) : Notes :=
  if !remark.isStrict || strict then { notes with warnings := ⟨remark, place⟩ :: notes.warnings }
  else notes

def declareVar (name : String) (place : Location) (strict : Bool) (notes : Notes) : Notes :=
  match notes.varScopes with
  | names :: outer =>
    if names.contains name then notes.warn (.redeclared name) place strict
    else { notes with varScopes := (name :: names) :: outer }
  | [] => notes

def enterLoop (notes : Notes) : Notes :=
  { notes with loopDepth := notes.loopDepth + 1 }

def leaveLoop (notes : Notes) : Notes :=
  { notes with loopDepth := notes.loopDepth - 1 }

def enterFunction (notes : Notes) : Notes :=
  { notes with
    varScopes := [] :: notes.varScopes
    functionDepth := notes.functionDepth + 1
    loopDepth := 0 }

def leaveFunction (loopDepth : Nat) (notes : Notes) : Notes :=
  { notes with
    varScopes := notes.varScopes.tail
    functionDepth := notes.functionDepth - 1
    loopDepth }

end Notes

theorem State.warn_eq_notes (c : Context) (s : State) (remark : Remark) (place : Location) :
    s.warn c remark place = (s.notes.warn remark place c.strict).facing s.rest := by
  unfold State.warn Notes.warn
  split <;> rfl

theorem State.declareVar_eq_notes (c : Context) (s : State) (name : String) (place : Location) :
    s.declareVar c name place = (s.notes.declareVar name place c.strict).facing s.rest := by
  have hscopes : s.notes.varScopes = s.varScopes := rfl
  unfold State.declareVar Notes.declareVar
  rw [hscopes]
  cases s.varScopes with
  | nil => rfl
  | cons names outer =>
    dsimp only
    split
    · exact State.warn_eq_notes c s _ _
    · rfl

def State.slot (c : Context) (s : State) : Slot :=
  ⟨s.next, s.here c, s.newlineBefore c⟩

theorem State.slot_kind_isNone (c : Context) (s : State) :
    (s.slot c).kind.isNone = s.rest.isEmpty := by
  unfold State.slot State.next
  cases s.rest <;> rfl

/-- A parser as a tree of steps. -/
inductive Walk (α : Type) where
  | done (a : α)
  | fail (e : ParseError)
  /-- Looks at what stands here. -/
  | look (next : Slot → Walk α)
  /-- Goes past the token that stands here; at the end it stays. -/
  | skip (next : Walk α)
  /-- Goes on with the notes so far, and changes them; strict checking may make a difference. -/
  | note (change : Bool → Notes → Notes) (next : Notes → Walk α)

namespace Walk

protected def bind : Walk α → (α → Walk β) → Walk β
  | done a, f => f a
  | fail e, _ => fail e
  | look next, f => look fun slot => (next slot).bind f
  | skip next, f => skip (next.bind f)
  | note change next, f => note change fun notes => (next notes).bind f

/-- The walk as a parser. -/
def parser : Walk α → Parser α
  | done a => fun _ s => .ok a s
  | fail e => fun _ s => .error e s
  | look next => fun c s => (next (s.slot c)).parser c s
  | skip next => fun c s => next.parser c s.skip
  | note change next => fun c s =>
    (next s.notes).parser c ((change c.strict s.notes).facing s.rest)

theorem parser_bind (walk : Walk α) (f : α → Walk β) :
    (walk.bind f).parser = walk.parser >>= fun a => (f a).parser := by
  funext c s
  change (walk.bind f).parser c s = EStateM.bind (walk.parser c) (fun a => (f a).parser c) s
  induction walk generalizing s with
  | done a => rfl
  | fail e => rfl
  | look next ih => exact ih _ s
  | skip next ih => exact ih s.skip
  | note change next ih => exact ih _ _

end Walk

def Walks (P : α → Prop) (x : Parser α) : Prop :=
  ∃ walk : Walk { a // P a }, x = Subtype.val <$> walk.parser

namespace Walks

variable {P : α → Prop} {Q : β → Prop} {x : Parser α} {f : α → Parser β}

theorem exists_walk (h : Walks P x) : ∃ walk : Walk α, x = walk.parser := by
  obtain ⟨walk, rfl⟩ := h
  refine ⟨walk.bind fun a => .done a.1, ?_⟩
  rw [Walk.parser_bind, map_eq_pure_bind]
  rfl

protected theorem pure {a : α} (ha : P a) : Walks P (pure a) :=
  ⟨.done ⟨a, ha⟩, rfl⟩

protected theorem bind (hx : Walks P x) (hf : ∀ a, P a → Walks Q (f a)) : Walks Q (x >>= f) := by
  obtain ⟨walk, rfl⟩ := hx
  have rest (a : { a // P a }) := Classical.indefiniteDescription _ (hf a.1 a.2)
  refine ⟨walk.bind fun a => (rest a).1, ?_⟩
  calc Subtype.val <$> walk.parser >>= f
      = walk.parser >>= fun a => f a.1 := by rw [bind_map_left]
    _ = walk.parser >>= fun a => Subtype.val <$> (rest a).1.parser := by
      congr 1
      funext a
      exact (rest a).2
    _ = Subtype.val <$> (walk.bind fun a => (rest a).1).parser := by
      rw [Walk.parser_bind, map_bind]

theorem look (v : Slot → α) (hx : ∀ c s, x c s = .ok (v (s.slot c)) s) : Walks any x :=
  ⟨.look fun slot => .done ⟨v slot, trivial⟩, funext fun c => funext fun s => hx c s⟩

theorem fail (e : Slot → ParseError) (hx : ∀ c s, x c s = .error (e (s.slot c)) s) :
    Walks P x :=
  ⟨.look fun slot => .fail (e slot), funext fun c => funext fun s => hx c s⟩

theorem note {x : Parser Unit} (change : Bool → Notes → Notes)
    (hx : ∀ c s, x c s = .ok () ((change c.strict s.notes).facing s.rest)) : Walks any x :=
  ⟨.note change fun _ => .done ⟨(), trivial⟩, funext fun c => funext fun s => hx c s⟩

theorem get_bind {f : Notes → Parser α} (hf : ∀ notes, Walks P (f notes)) :
    Walks P (do
      let s ← get
      f s.notes) := by
  have rest (notes : Notes) := Classical.indefiniteDescription _ (hf notes)
  refine ⟨.note (fun _ => id) fun notes => (rest notes).1, ?_⟩
  funext c s
  exact congrFun (congrFun (rest s.notes).2 c) s

theorem inLoop (hx : Walks P x) : Walks P (inLoop x) := by
  refine (note (fun _ => Notes.enterLoop) fun _ _ => rfl).bind fun _ _ => hx.bind fun a ha => ?_
  exact (note (fun _ => Notes.leaveLoop) fun _ _ => rfl).bind fun _ _ => .pure ha

theorem leaveFunction (loopDepth : Nat) {a : α} (ha : P a) :
    Walks (fun r => P r.1) (do
      let s ← get
      modify (State.leaveFunction loopDepth)
      return (a, (s.varScopes.headD []).reverse)) := by
  apply get_bind (f := fun notes => do
    modify (State.leaveFunction loopDepth)
    return (a, (notes.varScopes.headD []).reverse))
  intro notes
  exact (note (fun _ => Notes.leaveFunction loopDepth) fun _ _ => rfl).bind fun _ _ => .pure ha

theorem inFunction (hx : Walks P x) : Walks (fun r => P r.1) (inFunction x) := by
  apply get_bind (f := fun notes => do
    modify State.enterFunction
    let a ← x
    let s ← get
    modify (State.leaveFunction notes.loopDepth)
    return (a, (s.varScopes.headD []).reverse))
  intro notes
  refine (note (fun _ => Notes.enterFunction) fun _ _ => rfl).bind fun _ _ => ?_
  exact hx.bind fun a ha => leaveFunction notes.loopDepth ha

theorem uniform : Uniform (fun _ => True) Walks where
  pure := Walks.pure
  bind := Walks.bind
  peek := look Slot.kind peek_eq
  here := look Slot.place here_eq
  newlineBefore := look Slot.newlineBefore newlineBefore_eq
  atEnd := look (fun slot => slot.kind.isNone) fun c s => by
    rw [atEnd_eq, State.slot_kind_isNone]
  skip := ⟨.skip (.done ⟨(), trivial⟩), rfl⟩
  failAt fault place _ := fail (fun _ => ⟨fault, place, false⟩) (failAt_eq · · fault place)
  failHere fault := fail (fun slot => ⟨fault, slot.place, slot.kind.isNone⟩) fun c s => by
    rw [failHere_eq, State.slot_kind_isNone]
    rfl
  warn remark place _ := note (Notes.warn remark place) fun c s => by
    rw [warn_eq, State.warn_eq_notes]
  declareVar name place _ := note (Notes.declareVar name place) fun c s => by
    rw [declareVar_eq, State.declareVar_eq_notes]
  depths f hf := get_bind fun notes => hf notes.loopDepth notes.functionDepth
  inLoop := inLoop
  inFunction := inFunction

end Walks

/-- Where a walk stops and with what. -/
structure Stop (α : Type) where
  result : Except ParseError α
  position : Nat
  notes : Notes

/-- In front of what stands at a position. -/
def Notes.at (notes : Notes) (ts : Tokens) (p : Nat) : State :=
  notes.facing (ts.items.drop p)

/-- The same stop told by the tokens that are left. -/
def Stop.on (ts : Tokens) (stop : Stop α) : EStateM.Result ParseError State α :=
  match stop.result with
  | .ok a => .ok a (stop.notes.at ts stop.position)
  | .error e => .error e (stop.notes.at ts stop.position)

/-- The walk taken by position. It leads nowhere once it is at a position where nothing stands, not
even the end. -/
def Walk.runAt (slots : List Slot) (strict : Bool) : Walk α → Nat → Notes → Option (Stop α)
  | done a, p, notes => some ⟨.ok a, p, notes⟩
  | fail e, p, notes => some ⟨.error e, p, notes⟩
  | look next, p, notes => do
    let slot ← slots[p]?
    (next slot).runAt slots strict p notes
  | skip next, p, notes => do
    let slot ← slots[p]?
    next.runAt slots strict (slot.behind p) notes
  | note change next, p, notes => (next notes).runAt slots strict p (change strict notes)

section Positions

variable {strict : Bool} {ts : Tokens} {p : Nat} {notes : Notes} {stop : Stop α}

theorem slots_at (h : p ≤ ts.items.length) :
    ts.slots[p]? = some ((notes.at ts p).slot (Program.contextOf strict ts)) := by
  have hrest : (notes.at ts p).rest = ts.items.drop p := rfl
  rcases Nat.lt_or_eq_of_le h with h | rfl
  · rw [List.drop_eq_getElem_cons h] at hrest
    simp [State.slot, State.next, State.here, State.newlineBefore, hrest, Tokens.slots,
      Slot.ofToken, List.getElem?_append_left, h]
  · rw [List.drop_length] at hrest
    simp [State.slot, State.next, State.here, State.newlineBefore, hrest, Tokens.slots,
      Program.contextOf]

/-- A parser that goes past what stands at a position is at the one behind it. -/
theorem skip_at (c : Context) (notes : Notes) (h : p ≤ ts.items.length) :
    ((notes.at ts p).slot c).behind p ≤ ts.items.length ∧
      (notes.at ts p).skip = notes.at ts (((notes.at ts p).slot c).behind p) := by
  have hrest : (notes.at ts p).rest = ts.items.drop p := rfl
  have hskip : (notes.at ts p).skip = notes.at ts (p + 1) :=
    congrArg notes.facing List.tail_drop
  rcases Nat.lt_or_eq_of_le h with h | rfl
  · have hbehind : ((notes.at ts p).slot c).behind p = p + 1 := by
      rw [List.drop_eq_getElem_cons h] at hrest
      simp [Slot.behind, State.slot, State.next, hrest, h]
    rw [hbehind]
    exact ⟨h, hskip⟩
  · have hbehind : ((notes.at ts ts.items.length).slot c).behind ts.items.length =
        ts.items.length := by
      rw [List.drop_length] at hrest
      simp [Slot.behind, State.slot, State.next, hrest]
    rw [hbehind, hskip, Notes.at, Notes.at, List.drop_eq_nil_of_le (Nat.le_succ _),
      List.drop_length]
    exact ⟨Nat.le_refl _, rfl⟩

theorem Walk.le_position {walk : Walk α} {slots : List Slot}
    (h : walk.runAt slots strict p notes = some stop) : p ≤ stop.position := by
  induction walk generalizing p notes with
  | done a =>
    cases h
    exact Nat.le_refl p
  | fail e =>
    cases h
    exact Nat.le_refl p
  | look next ih =>
    obtain ⟨slot, -, hrun⟩ := Option.bind_eq_some_iff.mp h
    exact ih slot hrun
  | skip next ih =>
    obtain ⟨slot, -, hrun⟩ := Option.bind_eq_some_iff.mp h
    exact Nat.le_trans (slot.le_behind p) (ih hrun)
  | note change next ih => exact ih notes h

theorem Walk.exists_runAt (walk : Walk α) (strict : Bool) (notes : Notes)
    (h : p ≤ ts.items.length) :
    ∃ stop, walk.runAt ts.slots strict p notes = some stop ∧ stop.position ≤ ts.items.length ∧
      walk.parser (Program.contextOf strict ts) (notes.at ts p) = stop.on ts := by
  induction walk generalizing p notes with
  | done a => exact ⟨_, rfl, h, rfl⟩
  | fail e => exact ⟨_, rfl, h, rfl⟩
  | look next ih =>
    obtain ⟨stop, hrun, hstop⟩ := ih _ notes h
    exact ⟨stop, Option.bind_eq_some_iff.mpr ⟨_, slots_at h, hrun⟩, hstop⟩
  | skip next ih =>
    obtain ⟨hle, hskip⟩ := skip_at (Program.contextOf strict ts) notes h
    obtain ⟨stop, hrun, hposition, hparser⟩ := ih notes hle
    refine ⟨stop, Option.bind_eq_some_iff.mpr ⟨_, slots_at h, hrun⟩, hposition, ?_⟩
    rw [← hparser, ← hskip]
    rfl
  | note change next ih => exact ih notes (change strict notes) h

theorem Walk.runAt_congr {walk : Walk α} {slots slots' : List Slot}
    (h : walk.runAt slots strict p notes = some stop)
    (hsame : ∀ i ≤ stop.position, slots'[i]? = slots[i]?) :
    walk.runAt slots' strict p notes = some stop := by
  have hhere := hsame p (le_position h)
  induction walk generalizing p notes with
  | done a => exact h
  | fail e => exact h
  | look next ih =>
    obtain ⟨slot, hslot, hrun⟩ := Option.bind_eq_some_iff.mp h
    exact Option.bind_eq_some_iff.mpr ⟨slot, hhere.trans hslot, ih slot hrun hhere⟩
  | skip next ih =>
    obtain ⟨slot, hslot, hrun⟩ := Option.bind_eq_some_iff.mp h
    have hnext := ih hrun (hsame _ (le_position hrun))
    exact Option.bind_eq_some_iff.mpr ⟨slot, hhere.trans hslot, hnext⟩
  | note change next ih => exact ih notes h hhere

end Positions

end Parser

end ScriptShell
