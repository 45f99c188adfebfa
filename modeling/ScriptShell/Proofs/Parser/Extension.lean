import ScriptShell.Proofs.Parser.Depth

namespace ScriptShell.Parser

variable {α β : Type}

namespace State

def add (more : List Token) (s : State) : State :=
  { s with rest := s.rest ++ more }

section Add

variable (more : List Token) {s : State}

theorem next_add (h : 1 ≤ s.rest.length) : (s.add more).next = s.next := by
  cases hrest : s.rest with
  | nil => simp [hrest] at h
  | cons => simp [next, add, hrest]

theorem nextIs_add (m : Mark) (h : 1 ≤ s.rest.length) : (s.add more).nextIs m = s.nextIs m := by
  rw [nextIs, nextIs, next_add more h]

theorem nextIsKeyword_add (k : Keyword) (h : 1 ≤ s.rest.length) :
    (s.add more).nextIsKeyword k = s.nextIsKeyword k := by
  rw [nextIsKeyword, nextIsKeyword, next_add more h]

theorem skip_add (h : 1 ≤ s.rest.length) : (s.add more).skip = s.skip.add more := by
  cases hrest : s.rest with
  | nil => simp [hrest] at h
  | cons => simp [skip, add, hrest]

theorem here_add (c c' : Context) (h : 1 ≤ s.rest.length) :
    (s.add more).here c' = s.here c := by
  cases hrest : s.rest with
  | nil => simp [hrest] at h
  | cons => simp [here, add, hrest]

theorem newlineBefore_add (c c' : Context) (h : 1 ≤ s.rest.length) :
    (s.add more).newlineBefore c' = s.newlineBefore c := by
  cases hrest : s.rest with
  | nil => simp [hrest] at h
  | cons => simp [newlineBefore, add, hrest]

theorem isEmpty_add (h : 1 ≤ s.rest.length) :
    (s.add more).rest.isEmpty = s.rest.isEmpty := by
  cases hrest : s.rest with
  | nil => simp [hrest] at h
  | cons => simp [add, hrest]

variable {c c' : Context} (s)

theorem warn_add (hc : c'.strict = c.strict) (remark : Remark) (place : Location) :
    (s.add more).warn c' remark place = (s.warn c remark place).add more := by
  unfold warn
  rw [hc]
  split <;> rfl

theorem declareVar_add (hc : c'.strict = c.strict) (name : String) (place : Location) :
    (s.add more).declareVar c' name place = (s.declareVar c name place).add more := by
  have hscopes : (s.add more).varScopes = s.varScopes := rfl
  unfold declareVar
  rw [hscopes]
  cases s.varScopes with
  | nil => rfl
  | cons names outer =>
    dsimp only
    split
    · exact warn_add more s hc _ _
    · rfl

theorem warnUnreachable_add (hc : c'.strict = c.strict) (body : List Stmt) :
    (s.add more).warnUnreachable c' body = (s.warnUnreachable c body).add more := by
  unfold warnUnreachable
  split
  · exact warn_add more s hc _ _
  · rfl

theorem warnCondition_add (hc : c'.strict = c.strict) (e : Expr) :
    (s.add more).warnCondition c' e = (s.warnCondition c e).add more := by
  unfold warnCondition
  split
  · exact warn_add more s hc _ _
  · rfl

end Add

end State

def isPrefixOp (k : TokenKind) : Bool :=
  (unaryOp? k).isSome || (updateOp? k).isSome

/-- An update operator stands in front of an operand that was read to the end of the tokens and
is no target, but could become one if it went on. -/
def OpenUpdate (c : Context) (s : State) (e : ParseError) : Prop :=
  ∃ token n s' target t, token :: s'.rest <:+ s.rest ∧ (updateOp? token.kind).isSome ∧
    s'.next.any isPrefixOp = false ∧ unary n c s' = .ok target t ∧ t.rest = [] ∧
    target.isTarget = false ∧ e = ⟨.invalidOperand, target.place, false⟩

/-- What `x` does in a state, `y` does as well, and also if more tokens follow, unless `x` came to
the end of them. It can come to the end without an error only if `open_`. -/
def SettledAt (c : Context) (s : State) (open_ : Prop) (x y : Parser α) : Prop :=
  Run x c s
    (fun a t => t.rest <:+ s.rest ∧ y c s = .ok a t ∧
      ((t.rest = [] ∧ open_) ∨
        ∀ c' more, c'.strict = c.strict → y c' (s.add more) = .ok a (t.add more)))
    fun e t => e.fault = .exhausted ∨ y c s = .error e t ∧
      (e.atEnd = true ∨ OpenUpdate c s e ∨
        ∀ c' more, c'.strict = c.strict → ∃ e' t', y c' (s.add more) = .error e' t')

def Settled (lo : Nat) (open_ : Prop) (x y : Parser α) : Prop :=
  ∀ c s, lo ≤ s.rest.length → SettledAt c s open_ x y

def AtEnd (open_ : Prop) (x y : Parser α) : Prop :=
  ∀ c s, s.rest = [] → Run x c s (fun a t => t.rest = [] ∧ open_ ∧ y c s = .ok a t)
    fun e t => e.fault = .exhausted ∨ e.atEnd = true ∧ y c s = .error e t

theorem OpenUpdate.of_suffix {c : Context} {s t : State} {e : ParseError}
    (h : OpenUpdate c t e) (hsuffix : t.rest <:+ s.rest) : OpenUpdate c s e := by
  obtain ⟨token, n, s', target, u, hrest, h⟩ := h
  exact ⟨token, n, s', target, u, hrest.trans hsuffix, h⟩

namespace AtEnd

variable {p q : Prop} {x y : Parser α} {g g' : α → Parser β}

protected theorem bind (hx : AtEnd p x y) (hg : p → ∀ a, AtEnd q (g a) (g' a)) :
    AtEnd q (x >>= g) (y >>= g') := by
  intro c s hs
  refine Run.bind_iff.mpr ((hx c s hs).imp (fun a t ⟨ht, hp, hy⟩ => ?_) fun e t he => ?_)
  · rw [bind_ok hy]
    exact hg hp a c t ht
  · exact he.imp_right fun ⟨he, hy⟩ => ⟨he, bind_error hy⟩

theorem look_bind {v : Context → State → α} (hx : ∀ c s, x c s = .ok (v c s) s)
    (hg : ∀ c s, s.rest = [] → AtEnd q (g (v c s)) (g' (v c s))) :
    AtEnd q (x >>= g) (x >>= g') := by
  intro c s hs
  rw [Run.bind_iff, Run.iff_ok (hx c s), bind_ok (hx c s)]
  exact hg c s hs c s hs

protected theorem pure (hq : q) (a : α) : AtEnd q (pure a) (pure a) :=
  fun _ _ hs => ⟨hs, hq, rfl⟩

theorem exhausted (y : Parser α) : AtEnd q exhausted y :=
  fun _ _ _ => .inl rfl

theorem failHere (fault : ParseFault) :
    AtEnd q (failHere fault : Parser α) (Parser.failHere fault) :=
  fun _ _ hs => .inr ⟨List.isEmpty_iff.mpr hs, rfl⟩

theorem next_eq_none {s : State} (hs : s.rest = []) : s.next = none := by
  rw [State.next, hs]
  rfl

theorem nextIs_eq_false {s : State} (m : Mark) (hs : s.rest = []) : s.nextIs m = false := by
  rw [State.nextIs, next_eq_none hs]

theorem nextIsKeyword_eq_false {s : State} (k : Keyword) (hs : s.rest = []) :
    s.nextIsKeyword k = false := by
  rw [State.nextIsKeyword, next_eq_none hs]

theorem here_bind {g g' : Location → Parser β} (hg : ∀ place, AtEnd q (g place) (g' place)) :
    AtEnd q (here >>= g) (here >>= g') :=
  look_bind here_eq fun _ _ _ => hg _

theorem newlineBefore_bind {g g' : Bool → Parser β} (hg : ∀ b, AtEnd q (g b) (g' b)) :
    AtEnd q (newlineBefore >>= g) (newlineBefore >>= g') :=
  look_bind newlineBefore_eq fun _ _ _ => hg _

theorem atEnd_bind {g g' : Bool → Parser β} (hg : AtEnd q (g true) (g' true)) :
    AtEnd q (atEnd >>= g) (atEnd >>= g') :=
  look_bind atEnd_eq fun _ s hs => (List.isEmpty_iff.mpr hs : s.rest.isEmpty = true) ▸ hg

theorem atMark_bind {m : Mark} {g g' : Bool → Parser β} (hg : AtEnd q (g false) (g' false)) :
    AtEnd q (atMark m >>= g) (atMark m >>= g') :=
  look_bind (fun c s => atMark_eq c s m) fun _ _ hs => nextIs_eq_false m hs ▸ hg

theorem peek_bind {g g' : Option TokenKind → Parser β} (hg : AtEnd q (g none) (g' none)) :
    AtEnd q (peek >>= g) (peek >>= g') :=
  look_bind peek_eq fun _ _ hs => next_eq_none hs ▸ hg

theorem peekAs_bind {γ : Type} {reading : TokenKind → Option γ} {g g' : Option γ → Parser β}
    (hg : AtEnd q (g none) (g' none)) :
    AtEnd q (peekAs reading >>= g) (peekAs reading >>= g') :=
  look_bind (fun c s => peekAs_eq c s reading) fun _ _ hs => by rwa [next_eq_none hs]

theorem eatMark_bind {m : Mark} {g g' : Bool → Parser β} (hg : AtEnd q (g false) (g' false)) :
    AtEnd q (eatMark m >>= g) (eatMark m >>= g') := by
  intro c s hs
  have heat : eatMark m c s = .ok false s :=
    (eatMark_eq c s m).trans (if_neg (by simp [nextIs_eq_false m hs]))
  rw [Run.bind_iff, Run.iff_ok heat, bind_ok heat]
  exact hg c s hs

theorem eatKeyword_bind {k : Keyword} {g g' : Bool → Parser β}
    (hg : AtEnd q (g false) (g' false)) : AtEnd q (eatKeyword k >>= g) (eatKeyword k >>= g') := by
  intro c s hs
  have heat : eatKeyword k c s = .ok false s :=
    (eatKeyword_eq c s k).trans (if_neg (by simp [nextIsKeyword_eq_false k hs]))
  rw [Run.bind_iff, Run.iff_ok heat, bind_ok heat]
  exact hg c s hs

theorem expectMark (m : Mark) (what : String) :
    AtEnd q (expectMark m what) (Parser.expectMark m what) := by
  intro c s hs
  have hfail := (expectMark_eq c s m what).trans (if_neg (by simp [nextIs_eq_false m hs]))
  exact (Run.iff_error hfail).mpr (.inr ⟨List.isEmpty_iff.mpr hs, hfail⟩)

theorem expectName (what : String) : AtEnd q (expectName what) (Parser.expectName what) := by
  intro c s hs
  have hfail : Parser.expectName what c s = .error ⟨.missing what, s.here c, s.rest.isEmpty⟩ s := by
    rw [expectName_eq, next_eq_none hs]
  exact (Run.iff_error hfail).mpr (.inr ⟨List.isEmpty_iff.mpr hs, hfail⟩)

theorem fails_bind (hx : AtEnd False x y) : AtEnd q (x >>= g) (y >>= g') :=
  hx.bind fun h => h.elim

theorem endStatement (hq : q) : AtEnd q endStatement Parser.endStatement := by
  intro c s hs
  have hend : Parser.endStatement c s = .ok () s := by
    rw [endStatement_eq, nextIs_eq_false _ hs, hs]
    simp
  exact (Run.iff_ok hend).mpr ⟨hs, hq, hend⟩

theorem change {h : Context → State → State} {x : Parser Unit} (hx : ∀ c s, x c s = .ok () (h c s))
    (hrest : ∀ c s, (h c s).rest = s.rest) (hq : q) : AtEnd q x x :=
  fun c s hs => (Run.iff_ok (hx c s)).mpr ⟨(hrest c s).trans hs, hq, hx c s⟩

theorem declareVar (name : String) (place : Location) (hq : q) :
    AtEnd q (declareVar name place) (Parser.declareVar name place) :=
  change (declareVar_eq · · name place) (State.rest_declareVar · · name place) hq

theorem warnCondition (e : Expr) (hq : q) : AtEnd q (warnCondition e) (Parser.warnCondition e) :=
  change (warnCondition_eq · · e) (State.rest_warnCondition · · e) hq

theorem modify {h : State → State} (hrest : ∀ s, (h s).rest = s.rest) (hq : q) :
    AtEnd q (modify h) (modify h) :=
  change (fun _ _ => rfl) (fun _ => hrest) hq

theorem inLoop (hx : AtEnd False x y) : AtEnd False (inLoop x) (Parser.inLoop y) :=
  (modify (h := State.enterLoop) (fun _ => rfl) trivial).bind fun _ _ => hx.fails_bind

theorem weaken (hx : AtEnd p x y) (h : p → q) : AtEnd q x y :=
  fun c s hs => (hx c s hs).imp (fun _ _ ⟨ht, hp, hy⟩ => ⟨ht, h hp, hy⟩) fun _ _ he => he

end AtEnd

namespace Settled

variable {lo : Nat} {p q : Prop} {x y : Parser α} {g g' : α → Parser β}

theorem zero (hx : Settled 1 p x y) (hend : AtEnd p x y) : Settled lo p x y := by
  intro c s _
  by_cases hs : s.rest = []
  · refine (hend c s hs).imp (fun a t ⟨ht, hp, hy⟩ => ?_) fun e t he => ?_
    · exact ⟨ht ▸ List.nil_suffix, hy, .inl ⟨ht, hp⟩⟩
    · exact he.imp_right fun ⟨he, hy⟩ => ⟨hy, .inl he⟩
  · exact hx c s (List.length_pos_iff.mpr hs)

theorem weaken (hx : Settled 0 p x y) (h : p → q) : Settled lo q x y := by
  refine fun c s _ => (hx c s (Nat.zero_le _)).imp (fun a t ⟨hrest, hy, h'⟩ => ⟨hrest, hy, ?_⟩)
    fun _ _ he => he
  exact h'.imp_left fun ⟨ht, hp⟩ => ⟨ht, h hp⟩

protected theorem bind (hx : Settled lo p x y) (hg : ∀ a, Settled 0 q (g a) (g' a))
    (hend : p → ∀ a, AtEnd q (g a) (g' a)) : Settled lo q (x >>= g) (y >>= g') := by
  intro c s hlo
  refine Run.bind_iff.mpr ((hx c s hlo).imp (fun a t ⟨hrest, hy, hmore⟩ => ?_) fun e t he => ?_)
  · rcases hmore with ⟨ht, hp⟩ | hmore
    · refine (hend hp a c t ht).imp (fun b u ⟨hu, hq, hy'⟩ => ?_) fun e u he => ?_
      · exact ⟨hu ▸ List.nil_suffix, (bind_ok hy).trans hy', .inl ⟨hu, hq⟩⟩
      · exact he.imp_right fun ⟨he, hy'⟩ => ⟨(bind_ok hy).trans hy', .inl he⟩
    · refine (hg a c t (Nat.zero_le _)).imp (fun b u ⟨hrest', hy', hmore'⟩ => ?_) fun e u he => ?_
      · refine ⟨hrest'.trans hrest, (bind_ok hy).trans hy', hmore'.imp_right fun h c' more hc => ?_⟩
        exact (bind_ok (hmore c' more hc)).trans (h c' more hc)
      · refine he.imp_right fun ⟨hy', he⟩ => ⟨(bind_ok hy).trans hy', he.imp_right fun he => ?_⟩
        refine he.imp (fun he => he.of_suffix hrest) fun he c' more hc => ?_
        rw [bind_ok (hmore c' more hc)]
        exact he c' more hc
  · refine he.imp_right fun ⟨hy, he⟩ => ⟨bind_error hy, he.imp_right (.imp_right ?_)⟩
    intro he c' more hc
    obtain ⟨e', t', he'⟩ := he c' more hc
    exact ⟨e', t', bind_error he'⟩

theorem closed_bind (hx : Settled lo False x y) (hg : ∀ a, Settled 0 q (g a) (g' a)) :
    Settled lo q (x >>= g) (y >>= g') :=
  hx.bind hg fun h => h.elim

protected theorem pure (a : α) : Settled lo q (pure a) (pure a) :=
  fun _ _ _ => ⟨List.suffix_rfl, rfl, .inr fun _ _ _ => rfl⟩

protected theorem ite {r : Prop} [Decidable r] {x x' y y' : Parser α} (hx : Settled lo q x x')
    (hy : Settled lo q y y') : Settled lo q (if r then x else y) (if r then x' else y') := by
  split <;> assumption

theorem exhausted (y : Parser α) : Settled lo q exhausted y :=
  fun _ _ _ => .inl rfl

theorem failAt (fault : ParseFault) (place : Location) :
    Settled lo q (failAt fault place : Parser α) (Parser.failAt fault place) :=
  fun _ _ _ => .inr ⟨rfl, .inr (.inr fun _ _ _ => ⟨_, _, rfl⟩)⟩

theorem failHere (fault : ParseFault) :
    Settled lo q (failHere fault : Parser α) (Parser.failHere fault) :=
  fun _ _ _ => .inr ⟨rfl, .inr (.inr fun _ _ _ => ⟨_, _, rfl⟩)⟩

theorem failAt_bind (fault : ParseFault) (place : Location) :
    Settled lo q (Parser.failAt fault place >>= g) (Parser.failAt fault place >>= g') :=
  fun _ _ _ => Run.bind_iff.mpr (.inr ⟨rfl, .inr (.inr fun _ _ _ => ⟨_, _, rfl⟩)⟩)

theorem failHere_bind (fault : ParseFault) :
    Settled lo q (Parser.failHere fault >>= g) (Parser.failHere fault >>= g') :=
  fun _ _ _ => Run.bind_iff.mpr (.inr ⟨rfl, .inr (.inr fun _ _ _ => ⟨_, _, rfl⟩)⟩)

theorem congr {x' y' : Parser α} {c : Context} {s : State} (h : SettledAt c s q x' y')
    (hx : x c s = x' c s) (hy : y c s = y' c s)
    (hmore : ∀ c' more, y c' (s.add more) = y' c' (s.add more)) : SettledAt c s q x y := by
  unfold SettledAt Run at *
  simpa only [hx, hy, hmore] using h

theorem look {v : Context → State → α} (hx : ∀ c s, x c s = .ok (v c s) s)
    (hv : ∀ c c' s more, 1 ≤ s.rest.length → v c' (s.add more) = v c s) {c : Context} {s : State}
    (hlo : 1 ≤ s.rest.length) (h : SettledAt c s q (g (v c s)) (g' (v c s))) :
    SettledAt c s q (x >>= g) (x >>= g') :=
  congr h (bind_ok (hx c s)) (bind_ok (hx c s)) fun c' more =>
    bind_ok ((hx c' _).trans (by rw [hv c c' s more hlo]))

theorem look_bind {v : Context → State → α} (hx : ∀ c s, x c s = .ok (v c s) s)
    (hv : ∀ c c' s more, 1 ≤ s.rest.length → v c' (s.add more) = v c s)
    (hg : ∀ a, Settled 1 q (g a) (g' a)) : Settled 1 q (x >>= g) (x >>= g') :=
  fun c s hlo => look hx hv hlo (hg _ c s hlo)

theorem here_bind {g g' : Location → Parser β} (hg : ∀ place, Settled 1 q (g place) (g' place)) :
    Settled 1 q (here >>= g) (here >>= g') :=
  look_bind here_eq (fun c c' _ more h => State.here_add more c c' h) hg

theorem newlineBefore_bind {g g' : Bool → Parser β} (hg : ∀ b, Settled 1 q (g b) (g' b)) :
    Settled 1 q (newlineBefore >>= g) (newlineBefore >>= g') :=
  look_bind newlineBefore_eq (fun c c' _ more h => State.newlineBefore_add more c c' h) hg

theorem atEnd_bind {g g' : Bool → Parser β} (hg : ∀ b, Settled 1 q (g b) (g' b)) :
    Settled 1 q (atEnd >>= g) (atEnd >>= g') :=
  look_bind atEnd_eq (fun _ _ _ more h => State.isEmpty_add more h) hg

theorem atMark_bind {m : Mark} {g g' : Bool → Parser β} (hg : ∀ b, Settled 1 q (g b) (g' b)) :
    Settled 1 q (atMark m >>= g) (atMark m >>= g') :=
  look_bind (fun c s => atMark_eq c s m) (fun _ _ _ more h => State.nextIs_add more m h) hg

theorem peek_bind {g g' : Option TokenKind → Parser β} (hg : ∀ k, Settled 1 q (g k) (g' k)) :
    Settled 1 q (peek >>= g) (peek >>= g') :=
  look_bind peek_eq (fun _ _ _ more h => State.next_add more h) hg

theorem peekAs_look {γ : Type} {reading : TokenKind → Option γ} {g g' : Option γ → Parser β}
    {c : Context} {s : State} (hlo : 1 ≤ s.rest.length)
    (h : SettledAt c s q (g (s.next.bind reading)) (g' (s.next.bind reading))) :
    SettledAt c s q (peekAs reading >>= g) (peekAs reading >>= g') :=
  look (v := fun _ s => s.next.bind reading) (peekAs_eq · · reading)
    (fun _ _ _ more h => by rw [State.next_add more h]) hlo h

theorem peekAs_bind {γ : Type} {reading : TokenKind → Option γ} {g g' : Option γ → Parser β}
    (hg : ∀ a, Settled 1 q (g a) (g' a)) :
    Settled 1 q (peekAs reading >>= g) (peekAs reading >>= g') :=
  fun c s hlo => peekAs_look hlo (hg _ c s hlo)

theorem get_bind {g g' : State → Parser β} (hg : ∀ s, Settled lo q (g s) (g' s))
    (hadd : ∀ s more, g' (s.add more) = g' s) : Settled lo q (get >>= g) (get >>= g') := by
  refine fun c s hlo => congr (hg s c s hlo) (bind_ok (get_eq c s)) (bind_ok (get_eq c s)) ?_
  exact fun c' more => (bind_ok (get_eq c' _)).trans (by rw [hadd])

theorem suffix_skip (s : State) : s.skip.rest <:+ s.rest :=
  List.tail_suffix _

theorem skip : Settled 1 q skip skip := by
  refine fun c s hlo => (Run.iff_ok (skip_eq c s)).mpr ⟨suffix_skip s, rfl, .inr fun c' more _ => ?_⟩
  rw [skip_eq, State.skip_add more hlo]

theorem skip_bind {g g' : Unit → Parser β} (hg : Settled 0 q (g ()) (g' ())) :
    Settled 1 q (Parser.skip >>= g) (Parser.skip >>= g') :=
  skip.closed_bind fun _ => hg

/-- A parser that takes the next token or leaves it. -/
theorem eat_bind {x : Parser Bool} {eats : State → Bool}
    (hx : ∀ c s, x c s = if eats s then .ok true s.skip else .ok false s)
    (hadd : ∀ s more, 1 ≤ s.rest.length → eats (s.add more) = eats s) {g g' : Bool → Parser β}
    (ht : Settled 0 q (g true) (g' true)) (hf : Settled 1 q (g false) (g' false)) :
    Settled 1 q (x >>= g) (x >>= g') := by
  intro c s hlo
  cases h : eats s with
  | true =>
    have htake (g : Bool → Parser β) {c' s'} (h : eats s' = true) :
        (x >>= g) c' s' = (Parser.skip >>= fun _ => g true) c' s' :=
      bind_ok ((hx c' s').trans (if_pos h))
    exact congr (skip_bind ht c s hlo) (htake g h) (htake g' h) fun c' more =>
      htake g' ((hadd s more hlo).trans h)
  | false =>
    have hleave (g : Bool → Parser β) {c' s'} (h : eats s' = false) :
        (x >>= g) c' s' = g false c' s' :=
      bind_ok ((hx c' s').trans (if_neg (by simp [h])))
    exact congr (hf c s hlo) (hleave g h) (hleave g' h) fun c' more =>
      hleave g' ((hadd s more hlo).trans h)

theorem eatMark_bind {m : Mark} {g g' : Bool → Parser β} (ht : Settled 0 q (g true) (g' true))
    (hf : Settled 1 q (g false) (g' false)) :
    Settled 1 q (eatMark m >>= g) (eatMark m >>= g') :=
  eat_bind (eatMark_eq · · m) (fun _ more h => State.nextIs_add more m h) ht hf

theorem eatKeyword_bind {k : Keyword} {g g' : Bool → Parser β}
    (ht : Settled 0 q (g true) (g' true)) (hf : Settled 1 q (g false) (g' false)) :
    Settled 1 q (eatKeyword k >>= g) (eatKeyword k >>= g') :=
  eat_bind (eatKeyword_eq · · k) (fun _ more h => State.nextIsKeyword_add more k h) ht hf

theorem expectMark (m : Mark) (what : String) :
    Settled lo False (expectMark m what) (Parser.expectMark m what) := by
  refine zero ?_ (AtEnd.expectMark m what)
  refine eatMark_bind (.pure ()) ?_
  exact failHere _

theorem expectName (what : String) :
    Settled lo False (expectName what) (Parser.expectName what) := by
  refine zero (peek_bind fun k => ?_) (AtEnd.expectName what)
  split
  · exact skip_bind (.pure _)
  · exact failHere _

theorem endStatement : Settled lo True endStatement Parser.endStatement := by
  refine zero (eatMark_bind (.pure ()) ?_) (AtEnd.endStatement trivial)
  refine newlineBefore_bind fun _ => atEnd_bind fun _ => atMark_bind fun _ => ?_
  exact .ite (.pure ()) (failHere _)

theorem change {h : Context → State → State} {x : Parser Unit} (hx : ∀ c s, x c s = .ok () (h c s))
    (hrest : ∀ c s, (h c s).rest = s.rest)
    (hadd : ∀ c c' s more, c'.strict = c.strict → h c' (s.add more) = (h c s).add more) :
    Settled lo False x x := by
  refine fun c s _ => (Run.iff_ok (hx c s)).mpr ⟨?_, hx c s, .inr fun c' more hc => ?_⟩
  · exact hrest c s ▸ List.suffix_rfl
  · rw [hx, hadd c c' s more hc]

theorem declareVar (name : String) (place : Location) :
    Settled lo False (declareVar name place) (Parser.declareVar name place) :=
  change (declareVar_eq · · name place) (State.rest_declareVar · · name place)
    fun _ _ s more hc => State.declareVar_add more s hc name place

theorem warnUnreachable (body : List Stmt) :
    Settled lo False (warnUnreachable body) (Parser.warnUnreachable body) :=
  change (warnUnreachable_eq · · body) (State.rest_warnUnreachable · · body)
    fun _ _ s more hc => State.warnUnreachable_add more s hc body

theorem warnCondition (e : Expr) :
    Settled lo False (warnCondition e) (Parser.warnCondition e) :=
  change (warnCondition_eq · · e) (State.rest_warnCondition · · e)
    fun _ _ s more hc => State.warnCondition_add more s hc e

theorem modify {h : State → State} (hrest : ∀ s, (h s).rest = s.rest)
    (hadd : ∀ s more, h (s.add more) = (h s).add more) :
    Settled lo False (modify h) (modify h) :=
  change (fun _ _ => rfl) (fun _ => hrest) fun _ _ s more _ => hadd s more

theorem inLoop (hx : Settled 0 q x y) : Settled lo q (inLoop x) (Parser.inLoop y) := by
  refine (modify (h := State.enterLoop) (fun _ => rfl) fun _ _ => rfl).closed_bind fun _ => ?_
  refine hx.bind (fun a => ?_) fun hq a => ?_
  · exact (modify (h := State.leaveLoop) (fun _ => rfl) fun _ _ => rfl).closed_bind fun _ => .pure a
  · exact (AtEnd.modify (h := State.leaveLoop) (fun _ => rfl) hq).bind fun _ _ => .pure hq a

theorem inFunction (hx : Settled 0 False x y) :
    Settled lo False (inFunction x) (Parser.inFunction y) := by
  refine get_bind (fun s => ?_) fun _ _ => rfl
  refine (modify (h := State.enterFunction) (fun _ => rfl) fun _ _ => rfl).closed_bind fun _ => ?_
  refine hx.closed_bind fun a => get_bind (fun t => ?_) fun _ _ => rfl
  exact (modify (h := State.leaveFunction s.loopDepth) (fun _ => rfl) fun _ _ => rfl).closed_bind
    fun _ => .pure _

end Settled

/-- Parsers that are settled, and what they do at the end of the tokens. -/
structure Follows (open_ openAtEnd : Prop) (x y : Parser α) : Prop where
  settled : Settled 0 open_ x y
  atEnd : AtEnd openAtEnd x y
  closes : openAtEnd → open_

namespace Follows

variable {p q r : Prop} {x y : Parser α} {g g' : α → Parser β}

theorem of (hx : Settled 1 q x y) (hend : AtEnd r x y) (h : r → q) : Follows q r x y :=
  ⟨hx.zero (hend.weaken h), hend, h⟩

protected theorem bind (hx : Follows p False x y) (hg : ∀ a, Follows q r (g a) (g' a)) :
    Follows q False (x >>= g) (y >>= g') :=
  ⟨hx.settled.bind (fun a => (hg a).settled) fun _ a => (hg a).atEnd.weaken (hg a).closes,
    hx.atEnd.fails_bind, False.elim⟩

theorem open_bind (hx : Follows p True x y) (hg : ∀ a, Follows True r (g a) (g' a)) :
    Follows True r (x >>= g) (y >>= g') :=
  ⟨hx.settled.bind (fun a => (hg a).settled) fun _ a => (hg a).atEnd.weaken (hg a).closes,
    hx.atEnd.bind fun _ a => (hg a).atEnd, fun _ => trivial⟩

protected theorem pure (a : α) : Follows True True (pure a) (pure a) :=
  ⟨.pure a, .pure trivial a, id⟩

protected theorem ite {d : Prop} [Decidable d] {x x' y y' : Parser α} (hx : Follows q r x x')
    (hy : Follows q r y y') : Follows q r (if d then x else y) (if d then x' else y') := by
  split <;> assumption

theorem closed_bind (hx : Follows False False x y) (hg : ∀ a, Settled 0 q (g a) (g' a)) :
    Follows q False (x >>= g) (y >>= g') :=
  ⟨hx.settled.closed_bind hg, hx.atEnd.fails_bind, False.elim⟩

theorem exhausted (h : r → q) (y : Parser α) : Follows q r exhausted y :=
  ⟨.exhausted y, .exhausted y, h⟩

theorem failHere (fault : ParseFault) (h : r → q) :
    Follows q r (failHere fault : Parser α) (Parser.failHere fault) :=
  ⟨.failHere fault, .failHere fault, h⟩

theorem failHere_bind (fault : ParseFault) (h : r → q) :
    Follows q r (Parser.failHere fault >>= g) (Parser.failHere fault >>= g') :=
  ⟨.failHere_bind fault, (AtEnd.failHere fault (q := False)).fails_bind, h⟩

theorem here_bind {g g' : Location → Parser β} (hg : ∀ place, Follows q r (g place) (g' place)) :
    Follows q r (here >>= g) (here >>= g') :=
  of (.here_bind fun place => (hg place).settled.weaken id) (.here_bind fun place => (hg place).atEnd)
    (hg default).closes

theorem newlineBefore_bind {g g' : Bool → Parser β} (hg : ∀ b, Follows q r (g b) (g' b)) :
    Follows q r (newlineBefore >>= g) (newlineBefore >>= g') :=
  of (.newlineBefore_bind fun b => (hg b).settled.weaken id)
    (.newlineBefore_bind fun b => (hg b).atEnd) (hg true).closes

theorem atEnd_bind {g g' : Bool → Parser β} (hs : Settled 1 q (g false) (g' false))
    (hn : Follows q r (g true) (g' true)) :
    Follows q r (Parser.atEnd >>= g) (Parser.atEnd >>= g') := by
  refine of (.atEnd_bind fun b => ?_) (.atEnd_bind hn.atEnd) hn.closes
  cases b
  · exact hs
  · exact hn.settled.weaken id

theorem atMark_bind {m : Mark} {g g' : Bool → Parser β} (ht : Settled 1 q (g true) (g' true))
    (hf : Follows q r (g false) (g' false)) :
    Follows q r (atMark m >>= g) (atMark m >>= g') := by
  refine of (.atMark_bind fun b => ?_) (.atMark_bind hf.atEnd) hf.closes
  cases b
  · exact hf.settled.weaken id
  · exact ht

theorem peek_bind {g g' : Option TokenKind → Parser β}
    (hs : ∀ k, Settled 1 q (g (some k)) (g' (some k))) (hn : Follows q r (g none) (g' none)) :
    Follows q r (peek >>= g) (peek >>= g') := by
  refine of (.peek_bind fun k => ?_) (.peek_bind hn.atEnd) hn.closes
  cases k
  · exact hn.settled.weaken id
  · exact hs _

theorem peekAs_bind {γ : Type} {reading : TokenKind → Option γ} {g g' : Option γ → Parser β}
    (hs : ∀ a, Settled 1 q (g (some a)) (g' (some a))) (hn : Follows q r (g none) (g' none)) :
    Follows q r (peekAs reading >>= g) (peekAs reading >>= g') := by
  refine of (.peekAs_bind fun a => ?_) (.peekAs_bind hn.atEnd) hn.closes
  cases a
  · exact hn.settled.weaken id
  · exact hs _

theorem eatMark_bind {m : Mark} {g g' : Bool → Parser β} (ht : Settled 0 q (g true) (g' true))
    (hf : Follows q r (g false) (g' false)) :
    Follows q r (eatMark m >>= g) (eatMark m >>= g') :=
  of (.eatMark_bind ht (hf.settled.weaken id)) (.eatMark_bind hf.atEnd) hf.closes

theorem eatKeyword_bind {k : Keyword} {g g' : Bool → Parser β}
    (ht : Settled 0 q (g true) (g' true)) (hf : Follows q r (g false) (g' false)) :
    Follows q r (eatKeyword k >>= g) (eatKeyword k >>= g') :=
  of (.eatKeyword_bind ht (hf.settled.weaken id)) (.eatKeyword_bind hf.atEnd) hf.closes

theorem expectMark_bind {m : Mark} {what : String} {g g' : Unit → Parser β}
    (hg : Settled 0 q (g ()) (g' ())) :
    Follows q False (expectMark m what >>= g) (expectMark m what >>= g') :=
  ⟨(Settled.expectMark m what).closed_bind fun _ => hg, (AtEnd.expectMark m what).fails_bind,
    False.elim⟩

theorem expectName_bind {what : String} {g g' : String → Parser β}
    (hg : ∀ name, Settled 0 q (g name) (g' name)) :
    Follows q False (expectName what >>= g) (expectName what >>= g') :=
  ⟨(Settled.expectName what).closed_bind hg, (AtEnd.expectName what).fails_bind, False.elim⟩

theorem endStatement : Follows True True endStatement Parser.endStatement :=
  ⟨.endStatement, .endStatement trivial, id⟩

theorem declareVar_bind {name : String} {place : Location} {g g' : Unit → Parser β}
    (hg : Follows q r (g ()) (g' ())) :
    Follows q r (declareVar name place >>= g) (declareVar name place >>= g') :=
  ⟨(Settled.declareVar name place).closed_bind fun _ => hg.settled,
    (AtEnd.declareVar name place trivial).bind fun _ _ => hg.atEnd, hg.closes⟩

theorem warnCondition_bind {e : Expr} {g g' : Unit → Parser β} (hg : Follows q r (g ()) (g' ())) :
    Follows q r (warnCondition e >>= g) (warnCondition e >>= g') :=
  ⟨(Settled.warnCondition e).closed_bind fun _ => hg.settled,
    (AtEnd.warnCondition e trivial).bind fun _ _ => hg.atEnd, hg.closes⟩

theorem inLoop (hx : Follows p False x y) : Follows p False (inLoop x) (Parser.inLoop y) :=
  ⟨.inLoop hx.settled, .inLoop hx.atEnd, False.elim⟩

end Follows

/-- With bounds `n` and `m`, of which `m` is the larger one, the functions of the parser do the
same. -/
structure Steady (n m : Nat) : Prop where
  expression : Follows True False (expression n) (expression m)
  sequenceRest : Follows True True (sequenceRest n) (sequenceRest m)
  assignment : Follows True False (assignment n) (assignment m)
  conditional : Follows True False (conditional n) (conditional m)
  disjunction : Follows True False (disjunction n) (disjunction m)
  disjunctionRest : ∀ left, Follows True True (disjunctionRest n left) (disjunctionRest m left)
  conjunction : Follows True False (conjunction n) (conjunction m)
  conjunctionRest : ∀ left, Follows True True (conjunctionRest n left) (conjunctionRest m left)
  binary : ∀ least, Follows True False (binary n least) (binary m least)
  binaryRest : ∀ least left,
    Follows True True (binaryRest n least left) (binaryRest m least left)
  unary : Follows True False (unary n) (unary m)
  postfixed : Follows True False (postfixed n) (postfixed m)
  access : Follows True False (access n) (access m)
  accessRest : ∀ e, Follows True True (accessRest n e) (accessRest m e)
  arguments : Follows False False (arguments n) (arguments m)
  argumentList : Follows True False (argumentList n) (argumentList m)
  primary : Follows False False (primary n) (primary m)
  elements : Follows True False (elements n) (elements m)
  properties : Follows True False (properties n) (properties m)
  function : ∀ named place, Follows False False (function n named place) (function m named place)
  block : ∀ what, Follows False False (block n what) (block m what)
  blockRest : ∀ what, Follows False False (blockRest n what) (blockRest m what)
  declarators : ∀ kind, Follows True False (declarators n kind) (declarators m kind)
  condition : Follows False False (condition n) (condition m)
  statement : Follows True False (statement n) (statement m)
  ifStatement : ∀ place, Follows True False (ifStatement n place) (ifStatement m place)
  doStatement : ∀ place, Follows True False (doStatement n place) (doStatement m place)
  forInit : Follows True False (forInit n) (forInit m)
  optional : ∀ stop, Follows True False (optional n stop) (optional m stop)
  forStatement : ∀ place, Follows True False (forStatement n place) (forStatement m place)
  returnStatement : ∀ place, Settled 0 True (returnStatement n place) (returnStatement m place)
  tryStatement : ∀ place, Follows True False (tryStatement n place) (tryStatement m place)
  catchClause : Follows True True (catchClause n) (catchClause m)
  finallyClause : Follows True True (finallyClause n) (finallyClause m)

theorem parameters_follow {n m : Nat} (h : n ≤ m) :
    Follows True False (parameters n) (parameters m) := by
  induction n generalizing m with
  | zero => exact .exhausted False.elim _
  | succ n ih =>
    obtain ⟨m, rfl⟩ : ∃ k, m = k + 1 := ⟨m - 1, by omega⟩
    refine .expectName_bind fun name => Follows.settled (.eatMark_bind ?_ (.pure _))
    exact ((ih (by omega)).bind fun names => .pure _).settled

theorem update_ok {op : UpdateOp} {before : Bool} {e : Expr} {place : Location}
    (h : e.isTarget = true) (c : Context) (s : State) :
    update op before e place c s = .ok (.update op before e place) s := by
  rw [update, if_pos h]
  rfl

theorem update_error {op : UpdateOp} {before : Bool} {e : Expr} {place : Location}
    (h : e.isTarget = false) (c : Context) (s : State) :
    update op before e place c s = .error ⟨.invalidOperand, e.place, false⟩ s := by
  rw [update, if_neg (Bool.not_eq_true _ ▸ h)]
  rfl

theorem update_settled {lo : Nat} (op : UpdateOp) (before : Bool) (e : Expr) (place : Location) :
    Settled lo True (update op before e place) (update op before e place) := by
  unfold update
  split
  · exact .pure _
  · exact .failAt _ _

section Expressions

variable {n m : Nat} (ih : Steady n m)
include ih

theorem expression_follows : Follows True False (expression (n + 1)) (expression (m + 1)) := by
  refine ih.assignment.bind fun first => .atMark_bind ?_ (.pure _)
  exact (ih.sequenceRest.open_bind fun others => .pure _).settled.weaken id

theorem sequenceRest_follows :
    Follows True True (sequenceRest (n + 1)) (sequenceRest (m + 1)) := by
  refine .eatMark_bind ?_ (.pure _)
  exact (ih.assignment.bind fun e => ih.sequenceRest.open_bind fun es => .pure _).settled

theorem assignment_follows : Follows True False (assignment (n + 1)) (assignment (m + 1)) := by
  refine ih.conditional.bind fun target => .peekAs_bind (fun op => ?_) (.pure _)
  refine .here_bind fun place => .ite (.skip_bind ?_) (.failAt _ _)
  exact (ih.assignment.bind fun value => .pure _).settled

theorem conditional_follows : Follows True False (conditional (n + 1)) (conditional (m + 1)) := by
  refine ih.disjunction.bind fun condition => .eatMark_bind ?_ (.pure _)
  refine (ih.assignment.bind fun yes => Follows.expectMark_bind ?_).settled
  exact (ih.assignment.bind fun no => .pure _).settled

theorem disjunction_follows : Follows True False (disjunction (n + 1)) (disjunction (m + 1)) :=
  ih.conjunction.bind fun left => ih.disjunctionRest left

theorem disjunctionRest_follows (left : Expr) :
    Follows True True (disjunctionRest (n + 1) left) (disjunctionRest (m + 1) left) := by
  refine .here_bind fun place => .eatMark_bind ?_ (.pure _)
  exact (ih.conjunction.bind fun right => ih.disjunctionRest _).settled

theorem conjunction_follows : Follows True False (conjunction (n + 1)) (conjunction (m + 1)) :=
  (ih.binary 1).bind fun left => ih.conjunctionRest left

theorem conjunctionRest_follows (left : Expr) :
    Follows True True (conjunctionRest (n + 1) left) (conjunctionRest (m + 1) left) := by
  refine .here_bind fun place => .eatMark_bind ?_ (.pure _)
  exact ((ih.binary 1).bind fun right => ih.conjunctionRest _).settled

theorem binary_follows (least : Nat) :
    Follows True False (binary (n + 1) least) (binary (m + 1) least) :=
  ih.unary.bind fun left => ih.binaryRest least left

theorem binaryRest_follows (least : Nat) (left : Expr) :
    Follows True True (binaryRest (n + 1) least left) (binaryRest (m + 1) least left) := by
  refine .peekAs_bind (fun op => .ite (.pure _) (.here_bind fun place => .skip_bind ?_)) (.pure _)
  exact ((ih.binary _).bind fun right => ih.binaryRest _ _).settled

theorem postfixed_follows : Follows True False (postfixed (n + 1)) (postfixed (m + 1)) := by
  refine ih.access.bind fun e => .newlineBefore_bind fun b => .ite (.pure _) ?_
  exact .peekAs_bind (fun op => .here_bind fun place => .skip_bind (update_settled _ _ _ _))
    (.pure _)

theorem access_follows : Follows True False (access (n + 1)) (access (m + 1)) :=
  ih.primary.bind fun e => ih.accessRest e

theorem accessRest_follows (e : Expr) :
    Follows True True (accessRest (n + 1) e) (accessRest (m + 1) e) := by
  refine .here_bind fun place => .eatMark_bind ?_ (.eatMark_bind ?_ (.eatMark_bind ?_ (.pure _)))
  · exact (Follows.expectName_bind fun property => (ih.accessRest _).settled).settled
  · exact (ih.expression.bind fun index => .expectMark_bind (ih.accessRest _).settled).settled
  · exact (ih.arguments.bind fun args => ih.accessRest _).settled

theorem arguments_follow : Follows False False (arguments (n + 1)) (arguments (m + 1)) :=
  .eatMark_bind (.pure _) (ih.argumentList.bind fun _ => .expectMark_bind (.pure _))

theorem argumentList_follows :
    Follows True False (argumentList (n + 1)) (argumentList (m + 1)) := by
  refine ih.assignment.bind fun e => .eatMark_bind ?_ (.pure _)
  exact (ih.argumentList.bind fun es => .pure _).settled

theorem elements_follow : Follows True False (elements (n + 1)) (elements (m + 1)) := by
  refine .atMark_bind (.pure _) (ih.assignment.bind fun e => .eatMark_bind ?_ (.pure _))
  exact (ih.elements.bind fun es => .pure _).settled

theorem properties_follow : Follows True False (properties (n + 1)) (properties (m + 1)) := by
  refine .atMark_bind (.pure _) (.peekAs_bind (fun key => .skip_bind ?_) (.failHere _ False.elim))
  have entries (key : String) (e : Expr) : Follows True True (do
      if ← eatMark .comma then
        let es ← properties n
        return (key, e) :: es
      else return [(key, e)]) (do
      if ← eatMark .comma then
        let es ← properties m
        return (key, e) :: es
      else return [(key, e)]) :=
    .eatMark_bind (ih.properties.bind fun es => .pure _).settled (.pure _)
  exact Follows.settled
    (.expectMark_bind (Follows.settled (ih.assignment.bind fun e => entries key e)))

theorem primary_follows : Follows False False (primary (n + 1)) (primary (m + 1)) := by
  refine .here_bind fun place => .peekAs_bind (fun e => .skip_bind (.pure _)) ?_
  refine .peek_bind (fun k => ?_) (.failHere _ False.elim)
  split
  · exact .skip_bind (Follows.settled (ih.expression.bind fun e => .expectMark_bind (.pure _)))
  · exact .skip_bind (Follows.settled (ih.elements.bind fun es => .expectMark_bind (.pure _)))
  · exact .skip_bind (Follows.settled (ih.properties.bind fun es => .expectMark_bind (.pure _)))
  · exact .skip_bind ((ih.function false place).settled.closed_bind fun f => .pure _)
  · exact .failHere _

end Expressions

/-- An operator in front of an expression makes no target of it. -/
theorem isTarget_of_prefix {n : Nat} {c : Context} {s : State} {k : TokenKind}
    (hnext : s.next = some k) (hk : isPrefixOp k = true) :
    Run (unary n) c s (fun e _ => e.isTarget = false) fun _ _ => True := by
  cases n with
  | zero => trivial
  | succ n =>
    refine Run.bind_iff.mpr ((Run.iff_ok (here_eq c s)).mpr ?_)
    refine Run.bind_iff.mpr ((Run.iff_ok (peekAs_eq c s _)).mpr ?_)
    rw [hnext, Option.bind_some]
    cases hunary : unaryOp? k with
    | some op =>
      refine Run.bind_iff.mpr ((Run.iff_ok (skip_eq c s)).mpr (Run.bind_iff.mpr ?_))
      exact Run.of_forall (fun _ _ => rfl) fun _ _ => trivial
    | none =>
      refine Run.bind_iff.mpr ((Run.iff_ok (peekAs_eq c s _)).mpr ?_)
      obtain ⟨op, hop⟩ := Option.isSome_iff_exists.mp (by simpa [isPrefixOp, hunary] using hk)
      rw [hnext, Option.bind_some, hop]
      refine Run.bind_iff.mpr ((Run.iff_ok (skip_eq c s)).mpr (Run.bind_iff.mpr ?_))
      refine Run.of_forall (fun target t => ?_) fun _ _ => trivial
      unfold update
      split
      · exact rfl
      · trivial

def updateBefore (n : Nat) (op : UpdateOp) (place : Location) : Parser Expr := do
  skip
  let target ← unary n
  update op true target place

/-- At the end of the tokens it cannot be told whether the operand of an update will become a
target, unless it has an operator in front itself. -/
theorem updateBefore_settled {n m : Nat} (hunary : Follows True False (unary n) (unary m))
    {c : Context} {s : State} {op : UpdateOp} (place : Location)
    (hop : s.next.bind updateOp? = some op) :
    SettledAt c s True (updateBefore n op place) (updateBefore m op place) := by
  obtain ⟨k, hk, hupdate⟩ := Option.bind_eq_some_iff.mp hop
  obtain ⟨token, rest, hrest, rfl⟩ := State.rest_of_next hk
  have hlo : 1 ≤ s.rest.length := by simp [hrest]
  have hafter {c' s'} {target t'} (h : unary m c' s'.skip = .ok target t') :
      updateBefore m op place c' s' = update op true target place c' t' :=
    (bind_ok (skip_eq c' s')).trans (bind_ok h)
  have hbroken {c' s'} {e t'} (h : unary m c' s'.skip = .error e t') :
      updateBefore m op place c' s' = .error e t' :=
    (bind_ok (skip_eq c' s')).trans (bind_error h)
  have hunary := hunary.settled c s.skip (Nat.zero_le _)
  refine Run.bind_iff.mpr ((Run.iff_ok (skip_eq c s)).mpr (Run.bind_iff.mpr ?_))
  cases hx : unary n c s.skip with
  | error e t =>
    refine (Run.iff_error hx).mpr (((Run.iff_error hx).mp hunary).imp_right fun h => ?_)
    refine ⟨hbroken h.1, h.2.imp_right (.imp (·.of_suffix (Settled.suffix_skip s)) ?_)⟩
    intro he c' more hc
    obtain ⟨e', t', he'⟩ := he c' more hc
    exact ⟨e', t', hbroken (State.skip_add more hlo ▸ he')⟩
  | ok target t =>
    obtain ⟨ht, hy, hmore⟩ := (Run.iff_ok hx).mp hunary
    refine (Run.iff_ok hx).mpr ?_
    cases htarget : target.isTarget with
    | true =>
      refine (Run.iff_ok (update_ok htarget c t)).mpr ⟨ht.trans (Settled.suffix_skip s), ?_, ?_⟩
      · exact (hafter hy).trans (update_ok htarget c t)
      · refine hmore.imp_right fun h c' more hc => ?_
        rw [hafter (State.skip_add more hlo ▸ h c' more hc), update_ok htarget]
    | false =>
      refine (Run.iff_error (update_error htarget c t)).mpr (.inr ⟨?_, .inr ?_⟩)
      · exact (hafter hy).trans (update_error htarget c t)
      cases hprefix : s.skip.next.any isPrefixOp with
      | true =>
        -- Nothing that follows can make a target of the operand.
        obtain ⟨k, hnext, hk⟩ : ∃ k, s.skip.next = some k ∧ isPrefixOp k = true := by
          cases hnext : s.skip.next with
          | none => simp [hnext] at hprefix
          | some k => exact ⟨k, rfl, by simpa [hnext] using hprefix⟩
        refine .inr fun c' more _ => ?_
        have hmore : (s.add more).skip.next = some k := by
          rw [State.skip_add more hlo, State.next_add more (Within.length_of_next hnext), hnext]
        have hnone := isTarget_of_prefix (n := m) (c := c') hmore hk
        cases hy' : unary m c' (s.add more).skip with
        | ok target' t' =>
          exact ⟨_, _, (hafter hy').trans (update_error ((Run.iff_ok hy').mp hnone) c' t')⟩
        | error e' t' => exact ⟨e', t', hbroken hy'⟩
      | false =>
        rcases hmore with ⟨ht', -⟩ | hmore
        · refine .inl ⟨token, n, s.skip, target, t, ?_, ?_, hprefix, hx, ht', htarget, rfl⟩
          · simp [hrest]
          · simp [hupdate]
        · have hskip {c' more} (hc : c'.strict = c.strict) :
              unary m c' (s.add more).skip = .ok target (t.add more) :=
            State.skip_add more hlo ▸ hmore c' more hc
          exact .inr fun c' more hc => ⟨_, _, (hafter (hskip hc)).trans (update_error htarget c' _)⟩

theorem unary_follows {n m : Nat} (ih : Steady n m) :
    Follows True False (unary (n + 1)) (unary (m + 1)) := by
  refine .here_bind fun place => .of (fun c s hlo => Settled.peekAs_look hlo ?_)
    (.peekAs_bind (.peekAs_bind ih.postfixed.atEnd)) False.elim
  cases s.next.bind unaryOp? with
  | some op => exact Settled.skip_bind (ih.unary.bind fun operand => .pure _).settled c s hlo
  | none =>
    refine Settled.peekAs_look hlo ?_
    cases hop : s.next.bind updateOp? with
    | some op => exact updateBefore_settled ih.unary place hop
    | none => exact ih.postfixed.settled.weaken id c s hlo

theorem loopJump_settled (fault : ParseFault) (place : Location) (s : Stmt) :
    Settled 0 True (loopJump fault place s) (loopJump fault place s) := by
  refine .get_bind (fun _ => .ite (.failAt_bind _ _) ?_) fun _ _ => rfl
  exact (Follows.endStatement.open_bind fun _ => .pure _).settled

section Statements

variable {n m : Nat} (ih : Steady n m)
include ih

theorem functionBody_settled (place : Location) (name : Option String) (params : List String) :
    Follows False False (functionBody n place name params) (functionBody m place name params) := by
  refine .expectMark_bind (Follows.settled (.expectMark_bind ?_))
  exact (Settled.inFunction (ih.block _).settled).closed_bind fun r => .pure _

theorem functionRest_settled (h : n ≤ m) (place : Location) (name : Option String) :
    Follows False False (functionRest n place name) (functionRest m place name) := by
  refine .expectMark_bind (Follows.settled (.atMark_bind (r := False) ?_ ?_))
  · exact (functionBody_settled ih place name []).settled.weaken id
  · exact (parameters_follow h).bind fun params => functionBody_settled ih place name params

theorem function_follows (h : n ≤ m) (named : Bool) (place : Location) :
    Follows False False (function (n + 1) named place) (function (m + 1) named place) := by
  rw [function_succ, function_succ]
  have unnamed : Follows False False
      (if named then
        (do
          let name ← failHere (.missing "name after function")
          functionRest n place name)
        else functionRest n place none)
      (if named then
        (do
          let name ← failHere (.missing "name after function")
          functionRest m place name)
        else functionRest m place none) :=
    .ite (.failHere_bind _ False.elim) (functionRest_settled ih h place none)
  refine .peek_bind (fun k => ?_) unnamed
  split
  · exact .skip_bind (functionRest_settled ih h place _).settled
  · exact unnamed.settled.weaken id

theorem block_follows (what : String) :
    Follows False False (block (n + 1) what) (block (m + 1) what) :=
  (ih.blockRest what).closed_bind fun body =>
    (Settled.warnUnreachable body).closed_bind fun _ => .pure _

theorem blockRest_follows (what : String) :
    Follows False False (blockRest (n + 1) what) (blockRest (m + 1) what) := by
  refine .eatMark_bind (.pure _) (.atEnd_bind ?_ (.failHere _ False.elim))
  have hbody : Follows False False
      (do
        let s ← statement n
        let ss ← blockRest n what
        return s :: ss)
      (do
        let s ← statement m
        let ss ← blockRest m what
        return s :: ss) :=
    ih.statement.bind fun s => (ih.blockRest what).closed_bind fun ss => .pure _
  exact hbody.settled.weaken id

theorem declaratorsAfter_follows (kind : DeclKind) (place : Location) (name : String)
    (init : Option Expr) : Follows True True (declaratorsAfter n place kind name init)
      (declaratorsAfter m place kind name init) :=
  .eatMark_bind ((ih.declarators kind).bind fun _ => .pure _).settled (.pure _)

theorem declaratorsFrom_follows (kind : DeclKind) (place : Location) (name : String)
    (init : Option Expr) : Follows True True (declaratorsFrom n place kind name init)
      (declaratorsFrom m place kind name init) := by
  refine .ite ?_ (declaratorsAfter_follows ih kind place name init)
  exact .declareVar_bind (declaratorsAfter_follows ih kind place name init)

theorem declarators_follow (kind : DeclKind) :
    Follows True False (declarators (n + 1) kind) (declarators (m + 1) kind) := by
  rw [declarators_succ, declarators_succ]
  refine .here_bind fun place => .expectName_bind fun name => Follows.settled
    (.eatMark_bind (r := True) ?_ ?_)
  · exact (ih.assignment.bind fun e => declaratorsFrom_follows ih kind place name _).settled
  · change Follows _ _ (if kind = .const then _ else _) (if kind = .const then _ else _)
    exact .ite (.failHere_bind _ id) (declaratorsFrom_follows ih kind place name none)

theorem condition_follows : Follows False False (condition (n + 1)) (condition (m + 1)) := by
  refine .expectMark_bind (Follows.settled (ih.expression.bind (r := False) fun e => ?_))
  exact .warnCondition_bind (.expectMark_bind (.pure _))

theorem ifStatement_follows (place : Location) :
    Follows True False (ifStatement (n + 1) place) (ifStatement (m + 1) place) := by
  refine ih.condition.bind fun e => ih.statement.bind fun yes => .eatKeyword_bind ?_ (.pure _)
  exact (ih.statement.bind fun no => .pure _).settled

theorem whileStatement_follows (place : Location) :
    Follows True False (whileStatement n place) (whileStatement m place) :=
  ih.condition.bind fun _ => ih.statement.inLoop.bind fun _ => .pure _

theorem doRest_follows (place : Location) (body : Stmt) :
    Follows True False (doRest n place body) (doRest m place body) := by
  refine .eatKeyword_bind (Follows.settled (ih.condition.bind (r := True) fun e => ?_))
    (.failHere_bind _ False.elim)
  exact .eatMark_bind (.pure _) (.pure _)

theorem doStatement_follows (place : Location) :
    Follows True False (doStatement (n + 1) place) (doStatement (m + 1) place) :=
  ih.statement.inLoop.bind fun body => doRest_follows ih place body

theorem forInit_follows : Follows True False (forInit (n + 1)) (forInit (m + 1)) := by
  refine .here_bind fun place => .peekAs_bind (fun kind => .skip_bind ?_) (.atMark_bind (.pure _) ?_)
  · exact ((ih.declarators kind).bind fun ds => .pure _).settled
  · exact ih.expression.bind fun e => .pure _

theorem optional_follows (stop : Mark) :
    Follows True False (optional (n + 1) stop) (optional (m + 1) stop) :=
  .atMark_bind (.pure _) (ih.expression.bind fun _ => .pure _)

theorem forStatement_follows (place : Location) :
    Follows True False (forStatement (n + 1) place) (forStatement (m + 1) place) := by
  refine .expectMark_bind (Follows.settled (ih.forInit.bind fun init => .expectMark_bind ?_))
  refine Follows.settled ((ih.optional _).bind fun test => .expectMark_bind ?_)
  refine Follows.settled ((ih.optional _).bind fun step => .expectMark_bind ?_)
  exact (ih.statement.inLoop.bind fun body => .pure _).settled

theorem returnStatement_settled (place : Location) :
    Settled 0 True (returnStatement (n + 1) place) (returnStatement (m + 1) place) := by
  rw [returnStatement_succ, returnStatement_succ]
  refine .get_bind (fun s => .ite (.failAt_bind _ _) ?_) fun _ _ => rfl
  have without : Follows True True (returnNothing place) (returnNothing place) :=
    Follows.endStatement.open_bind fun _ => .pure _
  have valued : Follows True False (returnValue n place) (returnValue m place) :=
    ih.expression.bind fun e => Follows.endStatement.open_bind fun _ => .pure _
  refine .zero (.newlineBefore_bind fun _ => .atEnd_bind fun _ => ?_)
    (.newlineBefore_bind fun b => .atEnd_bind (.atMark_bind (.atMark_bind ?_)))
  · refine .atMark_bind fun _ => .atMark_bind fun _ => .ite ?_ ?_
    · exact without.settled.weaken id
    · exact valued.settled.weaken id
  · rw [if_pos (by simp), if_pos (by simp)]
    exact without.atEnd

theorem throwStatement_follows (place : Location) :
    Follows True False (throwStatement n place) (throwStatement m place) := by
  refine .newlineBefore_bind fun _ => .ite (.failHere_bind _ False.elim) ?_
  exact ih.expression.bind fun e => Follows.endStatement.open_bind fun _ => .pure _

theorem catchClause_follows : Follows True True (catchClause (n + 1)) (catchClause (m + 1)) := by
  refine .eatKeyword_bind ?_ (.pure _)
  refine Follows.settled (.expectMark_bind (Follows.settled (.expectName_bind fun param => ?_)))
  refine Follows.settled (.expectMark_bind (Follows.settled (.expectMark_bind ?_)))
  exact (ih.block _).settled.closed_bind fun body => .pure _

theorem finallyClause_follows :
    Follows True True (finallyClause (n + 1)) (finallyClause (m + 1)) := by
  refine .eatKeyword_bind (Follows.settled (.expectMark_bind ?_)) (.pure _)
  exact (ih.block _).settled.closed_bind fun body => .pure _

theorem tryStatement_follows (place : Location) :
    Follows True False (tryStatement (n + 1) place) (tryStatement (m + 1) place) := by
  refine .expectMark_bind ((ih.block _).settled.closed_bind fun body => ?_)
  have clauses : Follows True True (tryRest n place body) (tryRest m place body) :=
    ih.catchClause.open_bind fun handler => ih.finallyClause.open_bind fun finalizer =>
      .ite (.failHere_bind _ id) (.pure _)
  exact clauses.settled

theorem statementAt_settled (place : Location) (k : TokenKind) :
    Settled 1 True (statementAt n place k) (statementAt m place k) := by
  unfold statementAt
  split
  case h_1 => exact .skip_bind ((ih.function _ _).settled.closed_bind fun f => .pure _)
  case h_2 => exact .skip_bind (ih.ifStatement place).settled
  case h_3 => exact .skip_bind (whileStatement_follows ih place).settled
  case h_4 => exact .skip_bind (ih.doStatement place).settled
  case h_5 => exact .skip_bind (ih.forStatement place).settled
  case h_6 => exact .skip_bind (ih.returnStatement place)
  case h_7 => exact .skip_bind (loopJump_settled _ _ _)
  case h_8 => exact .skip_bind (loopJump_settled _ _ _)
  case h_9 => exact .skip_bind (throwStatement_follows ih place).settled
  case h_10 => exact .skip_bind (ih.tryStatement place).settled
  case h_11 => exact .skip_bind ((ih.block _).settled.closed_bind fun body => .pure _)
  case h_12 => exact .skip_bind (.pure _)
  case h_13 =>
    exact (ih.expression.bind fun e => Follows.endStatement.open_bind fun _ =>
      .pure _).settled.weaken id

theorem statement_follows : Follows True False (statement (n + 1)) (statement (m + 1)) := by
  rw [statement_succ, statement_succ]
  refine .here_bind fun place => .peekAs_bind (fun kind => .skip_bind ?_)
    (.peek_bind (fun k => statementAt_settled ih place k) ?_)
  · exact ((ih.declarators kind).bind fun ds => Follows.endStatement.open_bind fun _ =>
      .pure _).settled
  · exact ih.expression.bind fun e => Follows.endStatement.open_bind fun _ => .pure _

end Statements

theorem steady_zero (m : Nat) : Steady 0 m := by
  constructor <;> intros <;> first
  | exact .exhausted False.elim _
  | exact .exhausted id _
  | exact Settled.exhausted _

theorem steady {n m : Nat} (h : n ≤ m) : Steady n m := by
  -- On the smaller depth, for all routines at once.
  induction n generalizing m with
  | zero => exact steady_zero m
  | succ n ih =>
    obtain ⟨m, rfl⟩ : ∃ k, m = k + 1 := ⟨m - 1, by omega⟩
    have hle : n ≤ m := Nat.le_of_succ_le_succ h
    have ih := ih hle
    exact {
      expression := expression_follows ih
      sequenceRest := sequenceRest_follows ih
      assignment := assignment_follows ih
      conditional := conditional_follows ih
      disjunction := disjunction_follows ih
      disjunctionRest := disjunctionRest_follows ih
      conjunction := conjunction_follows ih
      conjunctionRest := conjunctionRest_follows ih
      binary := binary_follows ih
      binaryRest := binaryRest_follows ih
      unary := unary_follows ih
      postfixed := postfixed_follows ih
      access := access_follows ih
      accessRest := accessRest_follows ih
      arguments := arguments_follow ih
      argumentList := argumentList_follows ih
      primary := primary_follows ih
      elements := elements_follow ih
      properties := properties_follow ih
      function := function_follows ih hle
      block := block_follows ih
      blockRest := blockRest_follows ih
      declarators := declarators_follow ih
      condition := condition_follows ih
      statement := statement_follows ih
      ifStatement := ifStatement_follows ih
      doStatement := doStatement_follows ih
      forInit := forInit_follows ih
      optional := optional_follows ih
      forStatement := forStatement_follows ih
      returnStatement := returnStatement_settled ih
      tryStatement := tryStatement_follows ih
      catchClause := catchClause_follows ih
      finallyClause := finallyClause_follows ih }

theorem statements_follow {n m : Nat} (h : n ≤ m) :
    Follows True True (statements n) (statements m) := by
  induction n generalizing m with
  | zero => exact .exhausted id _
  | succ n ih =>
    obtain ⟨m, rfl⟩ : ∃ k, m = k + 1 := ⟨m - 1, by omega⟩
    have hle : n ≤ m := Nat.le_of_succ_le_succ h
    refine .atEnd_bind ?_ (.pure _)
    exact ((steady hle).statement.bind fun s => (ih hle).open_bind fun ss =>
      .pure _).settled.weaken id

end ScriptShell.Parser
