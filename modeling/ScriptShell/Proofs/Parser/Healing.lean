import ScriptShell.Proofs.Parser.Filling

namespace ScriptShell.Parser

variable {α β : Type}

def Fails (f : Nat → Parser α) (c : Context) (s : State) : Prop :=
  ∃ bound, ∀ n, bound ≤ n → ∃ e t, f n c s = .error e t

namespace Fails

variable {c : Context} {s t : State} {a : α} {f : Nat → Parser α} {g : Nat → α → Parser β}

theorem lift {c' : Context} {h : Nat → Parser β} (hf : Fails f c s)
    (hh : ∀ n e u, f n c s = .error e u → ∃ e' u', h n c' t = .error e' u') : Fails h c' t := by
  obtain ⟨bound, hf⟩ := hf
  refine ⟨bound, fun n hn => ?_⟩
  obtain ⟨e, u, he⟩ := hf n hn
  exact hh n e u he

protected theorem bind (h : Fails f c s) : Fails (fun n => f n >>= g n) c s :=
  h.lift fun _ e t he => ⟨e, t, bind_error he⟩

theorem behind (hf : Yields f c s a t) (h : Fails (g · a) c t) :
    Fails (fun n => f n >>= g n) c s := by
  obtain ⟨k, hk⟩ := hf
  obtain ⟨l, hl⟩ := h
  refine ⟨max k l, fun n hn => ?_⟩
  obtain ⟨e, u, he⟩ := hl n (by omega)
  exact ⟨e, u, (bind_ok (hk n (by omega))).trans he⟩

theorem step {g : Nat → Parser α} (hf : ∀ n, f (n + 1) = g n) (h : Fails g c s) :
    Fails f c s := by
  obtain ⟨bound, h⟩ := h
  refine ⟨bound + 1, fun n hn => ?_⟩
  obtain ⟨n, rfl⟩ : ∃ m, n = m + 1 := ⟨n - 1, by omega⟩
  rw [hf]
  exact h n (by omega)

theorem inLoop (h : Fails f c s.enterLoop) : Fails (fun n => inLoop (f n)) c s :=
  h.lift fun n e t he => ⟨e, t, (inLoop_eq c s (f n)).trans (by rw [he])⟩

theorem inFunction (h : Fails f c s.enterFunction) : Fails (fun n => inFunction (f n)) c s :=
  h.lift fun n e t he => ⟨e, t, (inFunction_eq c s (f n)).trans (by rw [he])⟩

end Fails

def Completes (c : Context) (s : State) (ks : List (TokenKind × Bool)) (P : List Token → Prop)
    (Q : α → Prop) (f : Nat → Parser α) : Prop :=
  ∀ c' more v, c'.strict = c.strict → Filling ks more v → P more →
    ∃ a t, Yields f c' (s.add v) a t ∧ Q a ∧ t.rest = more

theorem rest_add_of_nil {s : State} (hs : s.rest = []) (v : List Token) : (s.add v).rest = v := by
  simp [State.add, hs]

theorem Accepts.completes {c : Context} {s : State} {ks : List (TokenKind × Bool)}
    {P : List Token → Prop} {Q : α → Prop} {f : Nat → Parser α} (hf : Accepts P Q ks f)
    (hs : s.rest = []) : Completes c s ks P Q f :=
  fun c' more v _ hfill hmore => hf c' (s.add v) more ((rest_add_of_nil hs v).symm ▸ hfill) hmore

def EndsInThrow (ts : List Token) : Prop :=
  ∃ token ∈ ts.getLast?, token.kind = .keyword .throw

def VainOperand (c : Context) (s : State) (e : ParseError) : Prop :=
  ∃ token n s' t, token :: s'.rest <:+ s.rest ∧ (updateOp? token.kind).isSome ∧
    s'.next.any isPrefixOp = true ∧ unary n c s' = .error e t

/-- What can become of a parser that failed with an error at the end of the tokens. -/
inductive Outlook (c : Context) (s : State) (e : ParseError) (P : List Token → Prop)
    (Q : α → Prop) (f : Nat → Parser α) : Prop where
  | healed (fill : List Filler) (h : Completes c s (onLines fill) P Q f)
  /-- What is thrown has to begin on the same line. -/
  | thrown (fill : List Filler) (hthrow : EndsInThrow s.rest)
      (h : Completes c s ((.name "x", false) :: onLines fill) P Q f)
      (hfails : ∀ c' more, c'.strict = c.strict →
        (∀ token ∈ more.head?, token.newlineBefore = true) → Fails f c' (s.add more))
  | vain (hvain : VainOperand c s e)
      (hfails : ∀ c' more, c'.strict = c.strict → Fails f c' (s.add more))

theorem EndsInThrow.of_suffix {ts ts' : List Token} (h : EndsInThrow ts) (hsuffix : ts <:+ ts') :
    EndsInThrow ts' := by
  obtain ⟨token, htoken, hk⟩ := h
  obtain ⟨front, rfl⟩ := hsuffix
  refine ⟨token, ?_, hk⟩
  rw [List.getLast?_append, htoken]
  rfl

theorem VainOperand.of_suffix {c : Context} {s t : State} {e : ParseError}
    (h : VainOperand c t e) (hsuffix : t.rest <:+ s.rest) : VainOperand c s e := by
  obtain ⟨token, n, s', u, hrest, h⟩ := h
  exact ⟨token, n, s', u, hrest.trans hsuffix, h⟩

section Lift

variable {c : Context} {s t : State} {e : ParseError} {P P' : List Token → Prop} {Q : α → Prop}
  {R : β → Prop} {f : Nat → Parser α} {g : Nat → Parser β}

theorem Outlook.lift (h : Outlook c t e P Q f) (hsuffix : t.rest <:+ s.rest) (fill : List Filler)
    (hcompletes : ∀ ks, Completes c t ks P Q f → Completes c s (ks ++ onLines fill) P' R g)
    (hfails : ∀ c' more, c'.strict = c.strict → Fails f c' (t.add more) → Fails g c' (s.add more)) :
    Outlook c s e P' R g := by
  cases h with
  | healed fill' h =>
    refine .healed (fill' ++ fill) ?_
    rw [onLines_append]
    exact hcompletes _ h
  | thrown fill' hthrow h hbroken =>
    refine .thrown (fill' ++ fill) (hthrow.of_suffix hsuffix) ?_ fun c' more hc hmore =>
      hfails c' more hc (hbroken c' more hc hmore)
    rw [onLines_append]
    exact hcompletes _ h
  | vain hvain hbroken =>
    exact .vain (hvain.of_suffix hsuffix) fun c' more hc => hfails c' more hc (hbroken c' more hc)

theorem Outlook.map (h : Outlook c t e P Q f) (hsuffix : t.rest <:+ s.rest)
    (hcompletes : ∀ ks, Completes c t ks P Q f → Completes c s ks P' R g)
    (hfails : ∀ c' more, c'.strict = c.strict → Fails f c' (t.add more) → Fails g c' (s.add more)) :
    Outlook c s e P' R g := by
  refine h.lift hsuffix [] (fun ks hks => ?_) hfails
  rw [onLines, List.map_nil, List.append_nil]
  exact hcompletes ks hks

end Lift

/-- What `x` does in a state, `f` does as well if more tokens follow, unless `x` came to the end of
them: then it depends on those if `x` has ended in front of them, and on its outlook if it has
failed. -/
def HealsAt (c : Context) (s : State) (P : List Token → Prop) (Q : α → Prop) (x : Parser α)
    (f : Nat → Parser α) : Prop :=
  Run x c s
    (fun a t => t.rest <:+ s.rest ∧ ∀ c' more, c'.strict = c.strict → (t.rest = [] → P more) →
      Yields f c' (s.add more) a (t.add more))
    fun e _ => e.atEnd = true → Outlook c s e P Q f

def Heals (lo : Nat) (P : List Token → Prop) (Q : α → Prop) (x : Parser α)
    (f : Nat → Parser α) : Prop :=
  ∀ c s, lo ≤ s.rest.length → HealsAt c s P Q x f

/-- Errors at the end can be healed, at the very end by tokens of these kinds. -/
structure Filled (P : List Token → Prop) (Q : α → Prop) (fill : List Filler) (x : Parser α)
    (f : Nat → Parser α) : Prop where
  heals : Heals 0 P Q x f
  accepts : Accepts P Q (onLines fill) f

namespace HealsAt

variable {c : Context} {s : State} {P P' : List Token → Prop} {Q : α → Prop} {R : β → Prop}
  {fill : List Filler} {x x' : Parser α} {f f' : Nat → Parser α} {g : α → Parser β}
  {g' : Nat → α → Parser β}

theorem of_error (h : Run x c s (fun _ _ => False) fun e _ => e.atEnd = false) :
    HealsAt c s P Q x f :=
  h.imp (fun _ _ h => h.elim) fun e _ he hend => by simp [he] at hend

theorem transfer (h : HealsAt c s P Q x f')
    (hyields : ∀ c' more a t, Yields f' c' (s.add more) a t → Yields f c' (s.add more) a t)
    (hfails : ∀ c' more, Fails f' c' (s.add more) → Fails f c' (s.add more)) :
    HealsAt c s P Q x f := by
  refine h.imp (fun a t ⟨hrest, h⟩ => ?_) fun e t h he => ?_
  · exact ⟨hrest, fun c' more hc hmore => hyields c' more a _ (h c' more hc hmore)⟩
  · refine (h he).map List.suffix_rfl (fun ks hks c' more v hc hfill hmore => ?_) ?_
    · obtain ⟨a, t, ha, h⟩ := hks c' more v hc hfill hmore
      exact ⟨a, t, hyields c' v a t ha, h⟩
    · exact fun c' more _ hbroken => hfails c' more hbroken

theorem congr (h : HealsAt c s P Q x' f') (hx : x c s = x' c s)
    (hf : ∀ c' more n, f n c' (s.add more) = f' n c' (s.add more)) : HealsAt c s P Q x f := by
  have hx' : HealsAt c s P Q x f' := by
    unfold HealsAt Run at *
    rwa [hx]
  refine hx'.transfer (fun c' more a t h => ?_) fun c' more h => ?_
  · simpa only [Yields, hf] using h
  · simpa only [Fails, hf] using h

theorem weaken {Q' : α → Prop} (h : HealsAt c s P Q x f) (hQ : ∀ a, Q a → Q' a) :
    HealsAt c s P Q' x f := by
  refine h.imp (fun _ _ h => h) fun e t h he => (h he).map List.suffix_rfl ?_ fun _ _ _ => id
  intro ks hks c' more v hc hfill hmore
  obtain ⟨a, t, ha, h, ht⟩ := hks c' more v hc hfill hmore
  exact ⟨a, t, ha, hQ a h, ht⟩

theorem step {g : Nat → Parser α} (hf : ∀ n, f (n + 1) = g n) (h : HealsAt c s P Q x g) :
    HealsAt c s P Q x f :=
  h.transfer (fun _ _ _ _ => .step hf) fun _ _ => .step hf

theorem stop {a : α} (hx : x c s = .ok a s)
    (hf : ∀ c' more, c'.strict = c.strict → P more → Yields f c' (s.add more) a (s.add more))
    (hs : s.rest = []) : HealsAt c s P Q x f :=
  (Run.iff_ok hx).mpr ⟨List.suffix_rfl, fun c' more hc hmore => hf c' more hc (hmore hs)⟩

theorem of_accepts (hs : s.rest = []) (h : Run x c s (fun _ _ => False) fun _ _ => True)
    (hf : Accepts P Q (onLines fill) f) : HealsAt c s P Q x f :=
  h.imp (fun _ _ h => h.elim) fun _ _ _ _ => .healed fill (hf.completes hs)

theorem skip_bind {g : Unit → Parser β} {g' : Nat → Unit → Parser β} (hlo : 1 ≤ s.rest.length)
    (h : HealsAt c s.skip P' R (g ()) (g' · ())) :
    HealsAt c s P' R (skip >>= g) (fun n => skip >>= g' n) := by
  have hskip {c' more} : skip c' (s.add more) = .ok () (s.skip.add more) :=
    (skip_eq c' _).trans (by rw [State.skip_add more hlo])
  refine Run.bind_iff.mpr ((Run.iff_ok (skip_eq c s)).mpr (h.imp (fun b u ⟨hu, h⟩ => ?_) ?_))
  · refine ⟨hu.trans (Settled.suffix_skip s), fun c' more hc hmore => ?_⟩
    exact .next hskip (h c' more hc hmore)
  · refine fun e u h he => (h he).map (Settled.suffix_skip s)
      (fun ks hks c' more v hc hfill hmore => ?_) ?_
    · obtain ⟨b, u, hb, hR⟩ := hks c' more v hc hfill hmore
      exact ⟨b, u, .next hskip hb, hR⟩
    · exact fun c' more _ hbroken => .behind (.of_ok hskip) hbroken

/-- The first part of a parser and what follows it. At the end of the tokens it matters whether
the rest can end there, too. -/
theorem bind_of (hx : HealsAt c s P Q x f)
    (hf : ∀ a, Q a → Accepts P' R (onLines fill) (g' · a)) (hjoin : Joins P' (onLines fill) P)
    (hg : ∀ a t, x c s = .ok a t → t.rest ≠ [] → HealsAt c t P' R (g a) (g' · a))
    (hend : ∀ a t, x c s = .ok a t → t.rest = [] → Run (g a) c t
      (fun b u => u.rest = [] ∧ ∀ c' more, c'.strict = c.strict → P' more →
        P more ∧ Yields (g' · a) c' (t.add more) b (u.add more))
      fun e _ => e.atEnd = true → Accepts P' R (onLines fill) (g' · a)) :
    HealsAt c s P' R (x >>= g) (fun n => f n >>= g' n) := by
  unfold HealsAt
  rw [Run.bind_iff]
  unfold HealsAt at hx
  cases hrun : x c s with
  | error e t =>
    rw [Run.iff_error hrun] at hx ⊢
    refine fun he => (hx he).lift List.suffix_rfl fill (fun ks hks c' more v hc hfill hmore => ?_)
      fun c' more hc hbroken => hbroken.bind
    obtain ⟨w, hw, hfill⟩ := hfill.append
    obtain ⟨a, t, ha, hQ, rfl⟩ := hks c' w v hc hw (hjoin more w hfill hmore)
    obtain ⟨b, u, hb, h⟩ := hf a hQ c' t more hfill hmore
    exact ⟨b, u, ha.bind hb, h⟩
  | ok a t =>
    rw [Run.iff_ok hrun] at hx ⊢
    obtain ⟨hsuffix, hmore⟩ := hx
    -- At the end of the tokens the second parser decides with what may follow; before it, it goes
    -- on by itself.
    by_cases ht : t.rest = []
    · refine (hend a t hrun ht).imp (fun b u ⟨hu, h⟩ => ⟨?_, fun c' more hc hP' => ?_⟩) ?_
      · rw [hu]
        exact List.nil_suffix
      · obtain ⟨hP, hb⟩ := h c' more hc (hP' hu)
        exact (hmore c' more hc fun _ => hP).bind hb
      · refine fun e u h he => .healed fill fun c' more v hc hfill hP' => ?_
        obtain ⟨b, u, hb, hR⟩ := (h he).completes ht c' more v hc hfill hP'
        exact ⟨b, u, (hmore c' v hc fun _ => hjoin more v hfill hP').bind hb, hR⟩
    · have hmore {c' more} (hc : c'.strict = c.strict) : Yields f c' (s.add more) a (t.add more) :=
        hmore c' more hc fun h => absurd h ht
      refine (hg a t hrun ht).imp (fun b u ⟨hrest, h⟩ => ⟨hrest.trans hsuffix, ?_⟩)
        fun e u h he => ?_
      · exact fun c' more hc hP' => (hmore hc).bind (h c' more hc hP')
      · refine (h he).map hsuffix (fun ks hks c' more v hc hfill hP' => ?_) ?_
        · obtain ⟨b, u, hb, hR⟩ := hks c' more v hc hfill hP'
          exact ⟨b, u, (hmore hc).bind hb, hR⟩
        · exact fun c' more hc hbroken => .behind (hmore hc) hbroken

theorem look {v : Context → State → α} (hx : ∀ c s, x c s = .ok (v c s) s)
    (hv : ∀ c c' s more, 1 ≤ s.rest.length → v c' (s.add more) = v c s)
    (hlo : 1 ≤ s.rest.length) (h : HealsAt c s P' R (g (v c s)) (g' · (v c s))) :
    HealsAt c s P' R (x >>= g) (fun n => x >>= g' n) :=
  h.congr (bind_ok (hx c s)) fun c' more n =>
    bind_ok ((hx c' _).trans (by rw [hv c c' s more hlo]))

theorem peekAs_look {γ : Type} {reading : TokenKind → Option γ} {g : Option γ → Parser β}
    {g' : Nat → Option γ → Parser β} (hlo : 1 ≤ s.rest.length)
    (h : HealsAt c s P' R (g (s.next.bind reading)) (g' · (s.next.bind reading))) :
    HealsAt c s P' R (peekAs reading >>= g) (fun n => peekAs reading >>= g' n) :=
  look (v := fun _ s => s.next.bind reading) (peekAs_eq · · reading)
    (fun _ _ _ more h => by rw [State.next_add more h]) hlo h

/-- What follows can take nothing and never fails because the tokens end. -/
theorem firm_bind {g : α → Parser β} {g' : Nat → α → Parser β} (hx : HealsAt c s P Q x f)
    (hf : ∀ a, Q a → Accepts P R [] (g' · a)) (hg : ∀ a t, HealsAt c t P R (g a) (g' · a))
    (hfirm : ∀ a t, t.rest = [] → Run (g a) c t (fun _ _ => True) fun e _ => e.atEnd = false) :
    HealsAt c s P R (x >>= g) (fun n => f n >>= g' n) := by
  have hf : ∀ a, Q a → Accepts P R (onLines []) (g' · a) := hf
  refine hx.bind_of hf (.nil fun _ => id) (fun a t _ _ => hg a t) fun a t _ ht => ?_
  have hrun := hfirm a t ht
  have hheals := hg a t
  unfold HealsAt Run at *
  cases h : g a c t with
  | ok b u =>
    rw [h] at hheals
    obtain ⟨hu, hmore⟩ := hheals
    rw [ht, List.suffix_nil] at hu
    exact ⟨hu, fun c' more hc hP => ⟨hP, hmore c' more hc fun _ => hP⟩⟩
  | error e u =>
    rw [h] at hrun
    exact fun he => by simp [he] at hrun

end HealsAt

namespace Heals

variable {lo : Nat} {P P' : List Token → Prop} {Q : α → Prop} {R : β → Prop} {fill : List Filler}
  {x : Parser α} {f : Nat → Parser α} {g : α → Parser β} {g' : Nat → α → Parser β}

theorem one (h : Heals 0 P Q x f) : Heals 1 P Q x f :=
  fun c s _ => h c s (Nat.zero_le _)

theorem zero (h : Heals 1 P Q x f) (hend : ∀ c s, s.rest = [] → HealsAt c s P Q x f) :
    Heals 0 P Q x f := by
  intro c s _
  by_cases hs : s.rest = []
  · exact hend c s hs
  · exact h c s (List.length_pos_iff.mpr hs)

theorem step {g : Nat → Parser α} (hf : ∀ n, f (n + 1) = g n) (h : Heals lo P Q x g) :
    Heals lo P Q x f :=
  fun c s hlo => (h c s hlo).step hf

theorem rest {a : α} (h : Heals 1 P Q x f) (hnil : P [])
    (hx : ∀ c s, P s.rest → x c s = .ok a s)
    (hf : ∀ n c s, P s.rest → f (n + 1) c s = .ok a s) : Heals 0 P Q x f := by
  refine h.zero fun c s hs => .stop (hx c s (hs ▸ hnil)) (fun c' more _ hmore => ?_) hs
  exact .of_succ fun n => hf n c' _ ((rest_add_of_nil hs more).symm ▸ hmore)

protected theorem bind (hx : Heals lo P Q x f) (hg : ∀ a, Filled P' R fill (g a) (g' · a))
    (hjoin : Joins P' (onLines fill) P) (hP : ∀ more, P' more → P more) :
    Heals lo P' R (x >>= g) (fun n => f n >>= g' n) := by
  refine fun c s hlo => (hx c s hlo).bind_of (fun a _ => (hg a).accepts) hjoin
    (fun a t _ _ => (hg a).heals c t (Nat.zero_le _)) fun a t _ ht => ?_
  refine ((hg a).heals c t (Nat.zero_le _)).imp (fun b u ⟨hu, h⟩ => ?_)
    fun _ _ _ _ => (hg a).accepts
  rw [ht, List.suffix_nil] at hu
  exact ⟨hu, fun c' more hc hmore => ⟨hP more hmore, h c' more hc fun _ => hmore⟩⟩

theorem open_bind (hx : Heals lo P Q x f) (hg : ∀ a, Filled P R [] (g a) (g' · a)) :
    Heals lo P R (x >>= g) (fun n => f n >>= g' n) :=
  hx.bind hg (.nil fun _ => id) fun _ => id

theorem any_bind (hx : Heals lo any Q x f) (hg : ∀ a, Filled P R fill (g a) (g' · a)) :
    Heals lo P R (x >>= g) (fun n => f n >>= g' n) :=
  hx.bind hg .any fun _ _ => trivial

theorem closed_bind (hx : Heals lo P Q x f) (hg : ∀ a, Filled P' R fill (g a) (g' · a))
    (hjoin : Joins P' (onLines fill) P) (hend : ∀ a, AtEnd False (g a) (g a)) :
    Heals lo P' R (x >>= g) (fun n => f n >>= g' n) := by
  refine fun c s hlo => (hx c s hlo).bind_of (fun a _ => (hg a).accepts) hjoin
    (fun a t _ _ => (hg a).heals c t (Nat.zero_le _)) fun a t _ ht => ?_
  exact (hend a c t ht).imp (fun _ _ h => h.2.1.elim) fun _ _ _ _ => (hg a).accepts

protected theorem pure (a : α) : Heals lo P Q (pure a) (fun _ => pure a) :=
  fun _ _ _ => ⟨List.suffix_rfl, fun _ _ _ _ => .of_ok rfl⟩

protected theorem ite {r : Prop} [Decidable r] {x x' : Parser α} {f f' : Nat → Parser α}
    (hx : Heals lo P Q x f) (hx' : Heals lo P Q x' f') :
    Heals lo P Q (if r then x else x') (fun n => if r then f n else f' n) := by
  split <;> assumption

theorem exhausted : Heals lo P Q exhausted f :=
  fun _ _ _ => .of_error rfl

theorem failAt (fault : ParseFault) (place : Location) :
    Heals lo P Q (failAt fault place : Parser α) f :=
  fun _ _ _ => .of_error rfl

theorem failHere (fault : ParseFault) : Heals 1 P Q (failHere fault : Parser α) f := by
  refine fun c s hlo => .of_error ((Run.iff_error (failHere_eq c s fault)).mpr ?_)
  simpa [List.isEmpty_eq_false_iff] using List.length_pos_iff.mp hlo

theorem failAt_bind (fault : ParseFault) (place : Location) {f : Nat → Parser β} :
    Heals lo P R (Parser.failAt fault place >>= g) f :=
  fun _ _ _ => .of_error (Run.bind_iff.mpr rfl)

theorem failHere_bind (fault : ParseFault) {f : Nat → Parser β} :
    Heals 1 P R (Parser.failHere fault >>= g) f := by
  refine fun c s hlo => .of_error (Run.bind_iff.mpr
    ((Run.iff_error (failHere_eq c s fault)).mpr ?_))
  simpa [List.isEmpty_eq_false_iff] using List.length_pos_iff.mp hlo

theorem here_bind {g : Location → Parser β} {g' : Nat → Location → Parser β}
    (hg : ∀ place, Heals 1 P R (g place) (g' · place)) :
    Heals 1 P R (here >>= g) (fun n => here >>= g' n) :=
  fun c s hlo => .look here_eq (fun c c' _ more h => State.here_add more c c' h) hlo (hg _ c s hlo)

theorem newlineBefore_bind {g : Bool → Parser β} {g' : Nat → Bool → Parser β}
    (hg : ∀ b, Heals 1 P R (g b) (g' · b)) :
    Heals 1 P R (newlineBefore >>= g) (fun n => newlineBefore >>= g' n) :=
  fun c s hlo => .look newlineBefore_eq
    (fun c c' _ more h => State.newlineBefore_add more c c' h) hlo (hg _ c s hlo)

theorem atEnd_bind {g : Bool → Parser β} {g' : Nat → Bool → Parser β}
    (hg : Heals 1 P R (g false) (g' · false)) :
    Heals 1 P R (atEnd >>= g) (fun n => atEnd >>= g' n) := by
  intro c s hlo
  have hs : s.rest.isEmpty = false := by
    simpa [List.isEmpty_eq_false_iff] using List.length_pos_iff.mp hlo
  refine .look atEnd_eq (fun _ _ _ more h => State.isEmpty_add more h) hlo ?_
  rw [hs]
  exact hg c s hlo

theorem atMark_bind {m : Mark} {g : Bool → Parser β} {g' : Nat → Bool → Parser β}
    (hg : ∀ b, Heals 1 P R (g b) (g' · b)) :
    Heals 1 P R (atMark m >>= g) (fun n => atMark m >>= g' n) :=
  fun c s hlo => .look (fun c s => atMark_eq c s m) (fun _ _ _ more h => State.nextIs_add more m h)
    hlo (hg _ c s hlo)

theorem peek_bind {g : Option TokenKind → Parser β} {g' : Nat → Option TokenKind → Parser β}
    (hg : ∀ k, Heals 1 P R (g k) (g' · k)) :
    Heals 1 P R (peek >>= g) (fun n => peek >>= g' n) :=
  fun c s hlo => .look peek_eq (fun _ _ _ more h => State.next_add more h) hlo (hg _ c s hlo)

theorem peekAs_bind {γ : Type} {reading : TokenKind → Option γ} {g : Option γ → Parser β}
    {g' : Nat → Option γ → Parser β} (hg : ∀ a, Heals 1 P R (g a) (g' · a)) :
    Heals 1 P R (peekAs reading >>= g) (fun n => peekAs reading >>= g' n) :=
  fun c s hlo => HealsAt.peekAs_look hlo (hg _ c s hlo)

theorem get_bind {g : State → Parser β} {g' : Nat → State → Parser β}
    (hg : ∀ s, Heals lo P R (g s) (g' · s)) (hadd : ∀ n s more, g' n (s.add more) = g' n s) :
    Heals lo P R (get >>= g) (fun n => get >>= g' n) := by
  refine fun c s hlo => (hg s c s hlo).congr (bind_ok (get_eq c s)) fun c' more n => ?_
  exact (bind_ok (get_eq c' _)).trans (by rw [hadd])

theorem skip_bind {g : Unit → Parser β} {g' : Nat → Unit → Parser β}
    (hg : Heals 0 P R (g ()) (g' · ())) : Heals 1 P R (skip >>= g) (fun n => skip >>= g' n) :=
  fun c s hlo => .skip_bind hlo (hg c s.skip (Nat.zero_le _))

/-- A parser that takes the next token or leaves it. -/
theorem eat_bind {x : Parser Bool} {eats : State → Bool}
    (hx : ∀ c s, x c s = if eats s then .ok true s.skip else .ok false s)
    (hadd : ∀ s more, 1 ≤ s.rest.length → eats (s.add more) = eats s) {g : Bool → Parser β}
    {g' : Nat → Bool → Parser β} (ht : Heals 0 P R (g true) (g' · true))
    (hf : Heals 1 P R (g false) (g' · false)) :
    Heals 1 P R (x >>= g) (fun n => x >>= g' n) := by
  intro c s hlo
  cases h : eats s with
  | true =>
    have htake (g : Bool → Parser β) {c' s'} (h : eats s' = true) :
        (x >>= g) c' s' = (skip >>= fun _ => g true) c' s' :=
      bind_ok ((hx c' s').trans (if_pos h))
    have hskip : Heals 1 P R (skip >>= fun _ => g true) (fun n => skip >>= fun _ => g' n true) :=
      skip_bind ht
    exact (hskip c s hlo).congr (htake g h) fun c' more n =>
      htake (g' n) ((hadd s more hlo).trans h)
  | false =>
    have hleave (g : Bool → Parser β) {c' s'} (h : eats s' = false) :
        (x >>= g) c' s' = g false c' s' :=
      bind_ok ((hx c' s').trans (if_neg (by simp [h])))
    exact (hf c s hlo).congr (hleave g h) fun c' more n =>
      hleave (g' n) ((hadd s more hlo).trans h)

theorem eatMark_bind {m : Mark} {g : Bool → Parser β} {g' : Nat → Bool → Parser β}
    (ht : Heals 0 P R (g true) (g' · true)) (hf : Heals 1 P R (g false) (g' · false)) :
    Heals 1 P R (eatMark m >>= g) (fun n => eatMark m >>= g' n) :=
  eat_bind (eatMark_eq · · m) (fun _ more h => State.nextIs_add more m h) ht hf

theorem eatKeyword_bind {k : Keyword} {g : Bool → Parser β} {g' : Nat → Bool → Parser β}
    (ht : Heals 0 P R (g true) (g' · true)) (hf : Heals 1 P R (g false) (g' · false)) :
    Heals 1 P R (eatKeyword k >>= g) (fun n => eatKeyword k >>= g' n) :=
  eat_bind (eatKeyword_eq · · k) (fun _ more h => State.nextIsKeyword_add more k h) ht hf

end Heals

namespace Filled

variable {P P' : List Token → Prop} {Q : α → Prop} {R : β → Prop} {fill fill' : List Filler}
  {x : Parser α} {f : Nat → Parser α} {g : α → Parser β} {g' : Nat → α → Parser β}

theorem of (h : Heals 1 P Q x f) (hend : AtEnd False x x) (hf : Accepts P Q (onLines fill) f) :
    Filled P Q fill x f := by
  refine ⟨h.zero fun c s hs => .of_accepts hs ?_ hf, hf⟩
  exact (hend c s hs).imp (fun _ _ h => h.2.1) fun _ _ _ => trivial

protected theorem bind (hx : Filled P Q fill x f) (hg : ∀ a, Filled P' R fill' (g a) (g' · a))
    (hjoin : Joins P' (onLines fill') P) (hP : ∀ more, P' more → P more) :
    Filled P' R (fill ++ fill') (x >>= g) (fun n => f n >>= g' n) := by
  refine ⟨hx.heals.bind hg hjoin hP, ?_⟩
  rw [onLines_append]
  exact hx.accepts.bind (fun a _ => (hg a).accepts) hjoin

theorem open_bind (hx : Filled P Q fill x f) (hg : ∀ a, Filled P R [] (g a) (g' · a)) :
    Filled P R fill (x >>= g) (fun n => f n >>= g' n) := by
  have h := hx.bind hg (.nil fun _ => id) fun _ => id
  rwa [List.append_nil] at h

theorem any_bind (hx : Filled any Q fill x f) (hg : ∀ a, Filled P R fill' (g a) (g' · a)) :
    Filled P R (fill ++ fill') (x >>= g) (fun n => f n >>= g' n) :=
  hx.bind hg .any fun _ _ => trivial

theorem closed_bind (hx : Filled P Q fill x f) (hg : ∀ a, Filled P' R fill' (g a) (g' · a))
    (hjoin : Joins P' (onLines fill') P) (hend : ∀ a, AtEnd False (g a) (g a)) :
    Filled P' R (fill ++ fill') (x >>= g) (fun n => f n >>= g' n) := by
  refine ⟨hx.heals.closed_bind hg hjoin hend, ?_⟩
  rw [onLines_append]
  exact hx.accepts.bind (fun a _ => (hg a).accepts) hjoin

protected theorem pure {a : α} (ha : Q a) : Filled P Q [] (pure a) (fun _ => pure a) :=
  ⟨.pure a, .pure ha⟩

theorem expectMark (m : Mark) (what : String) :
    Filled P any [.mark m] (expectMark m what) (fun _ => expectMark m what) := by
  refine .of ?_ (AtEnd.expectMark m what) (.token (fun _ _ => Accepts.expectMark_take) trivial)
  exact .eatMark_bind (.pure ()) (.failHere _)

theorem expectName (what : String) :
    Filled P any [.name] (expectName what) (fun _ => expectName what) := by
  refine .of (.peek_bind fun k => ?_) (AtEnd.expectName what)
    (.token (fun _ _ => Accepts.expectName_take) trivial)
  split
  · exact .skip_bind (.pure _)
  · exact .failHere _

theorem expectMark_bind {m : Mark} {what : String} {g : Unit → Parser β}
    {g' : Nat → Unit → Parser β} (hg : Filled P R fill (g ()) (g' · ())) :
    Filled P R (.mark m :: fill) (Parser.expectMark m what >>= g)
      (fun n => Parser.expectMark m what >>= g' n) :=
  (expectMark (P := any) m what).bind (fun _ => hg) .any fun _ _ => trivial

theorem expectName_bind {what : String} {g : String → Parser β} {g' : Nat → String → Parser β}
    (hg : ∀ name, Filled P R fill (g name) (g' · name)) :
    Filled P R (.name :: fill) (Parser.expectName what >>= g)
      (fun n => Parser.expectName what >>= g' n) :=
  (expectName (P := any) what).bind hg .any fun _ _ => trivial

theorem before_mark (hx : Filled EndsExpr Q fill x f) {m : Mark} (hm : looseness (.mark m) = 9)
    {what : String} {g : α → Unit → Parser β} {g' : Nat → α → Unit → Parser β}
    (hg : ∀ a, Filled P R fill' (g a ()) (g' · a ())) :
    Filled P R (fill ++ .mark m :: fill') (x >>= fun a => Parser.expectMark m what >>= g a)
      (fun n => f n >>= fun a => Parser.expectMark m what >>= g' n a) :=
  hx.closed_bind (fun a => expectMark_bind (hg a)) (.endsExpr hm) fun _ =>
    (AtEnd.expectMark m what).fails_bind

theorem closed_by (hx : Filled EndsExpr Q fill x f) {m : Mark} (hm : looseness (.mark m) = 9)
    {what : String} {h : α → β} : Filled P any (fill ++ [.mark m])
      (x >>= fun a => Parser.expectMark m what >>= fun _ => pure (h a))
      (fun n => f n >>= fun a => Parser.expectMark m what >>= fun _ => pure (h a)) :=
  hx.before_mark hm (g := fun a _ => pure (h a)) fun _ => .pure trivial

theorem change {h : Context → State → State} {x : Parser Unit} (hx : ∀ c s, x c s = .ok () (h c s))
    (hrest : ∀ c s, (h c s).rest = s.rest)
    (hadd : ∀ c c' s more, c'.strict = c.strict → h c' (s.add more) = (h c s).add more) :
    Filled P any [] x (fun _ => x) := by
  refine ⟨fun c s _ => (Run.iff_ok (hx c s)).mpr ⟨?_, fun c' more hc _ => ?_⟩, .change hx hrest⟩
  · exact hrest c s ▸ List.suffix_rfl
  · exact .of_ok ((hx c' _).trans (by rw [hadd c c' s more hc]))

theorem declareVar (name : String) (place : Location) :
    Filled P any [] (declareVar name place) (fun _ => declareVar name place) :=
  change (declareVar_eq · · name place) (State.rest_declareVar · · name place)
    fun _ _ s more hc => State.declareVar_add more s hc name place

theorem warnUnreachable (body : List Stmt) :
    Filled P any [] (warnUnreachable body) (fun _ => warnUnreachable body) :=
  change (warnUnreachable_eq · · body) (State.rest_warnUnreachable · · body)
    fun _ _ s more hc => State.warnUnreachable_add more s hc body

theorem warnCondition (e : Expr) :
    Filled P any [] (warnCondition e) (fun _ => warnCondition e) :=
  change (warnCondition_eq · · e) (State.rest_warnCondition · · e)
    fun _ _ s more hc => State.warnCondition_add more s hc e

theorem tail {a : α} (hx : ∀ c s, P s.rest → x c s = .ok a s) (hnil : P [])
    (h : Heals 1 P R (x >>= g) (fun n => x >>= g' n)) (hg : Filled P R [] (g a) (g' · a)) :
    Filled P R [] (x >>= g) (fun n => x >>= g' n) := by
  have haccepts : Accepts P R (onLines []) fun n => x >>= g' n := .stay hx hg.accepts
  refine ⟨h.zero fun c s hs => ?_, haccepts⟩
  refine Run.bind_iff.mpr ((Run.iff_ok (hx c s (hs ▸ hnil))).mpr ?_)
  refine (hg.heals c s (Nat.zero_le _)).imp (fun b u ⟨hu, h⟩ => ⟨hu, fun c' more hc hmore => ?_⟩)
    fun e u _ _ => .healed [] (haccepts.completes hs)
  have hP : P (s.add more).rest := by
    rw [hs, List.suffix_nil] at hu
    rw [rest_add_of_nil hs]
    exact hmore hu
  exact .next (hx c' _ hP) (h c' more hc hmore)

theorem eatMark_tail {m : Mark} (hm : looseness (.mark m) < 9) {g : Bool → Parser β}
    {g' : Nat → Bool → Parser β} (ht : Heals 0 EndsExpr R (g true) (g' · true))
    (hf : Filled EndsExpr R [] (g false) (g' · false)) :
    Filled EndsExpr R [] (eatMark m >>= g) (fun n => eatMark m >>= g' n) :=
  .tail (fun _ _ h => h.eatMark hm) .nil (.eatMark_bind ht hf.heals.one) hf

theorem endStatement : Filled EndsStmt any [] endStatement (fun _ => Parser.endStatement) := by
  have hends (c : Context) (s : State) (h : EndsStmt s.rest) :
      Parser.endStatement c s = .ok () s := h.endStatement
  refine ⟨.zero ?_ fun c s hs => ?_, .rest (fun _ => hends) trivial⟩
  · refine .eatMark_bind (.pure ()) (.newlineBefore_bind fun _ => .atEnd_bind ?_)
    exact .atMark_bind fun _ => .ite (.pure ()) (.failHere _)
  · refine .stop (hends c s (hs ▸ .nil)) (fun c' more _ hmore => .of_ok (hends c' _ ?_)) hs
    exact (rest_add_of_nil hs more).symm ▸ hmore

theorem ended (hx : Filled EndsExpr Q fill x f) {h : α → β} : Filled EndsStmt any fill
    (x >>= fun a => Parser.endStatement >>= fun _ => pure (h a))
    (fun n => f n >>= fun a => Parser.endStatement >>= fun _ => pure (h a)) := by
  have hend (a : α) : Filled EndsStmt any [] (Parser.endStatement >>= fun _ => pure (h a))
      (fun _ => Parser.endStatement >>= fun _ => pure (h a)) :=
    endStatement.open_bind fun _ => .pure trivial
  have hall := hx.bind hend (.nil fun _ => EndsStmt.endsExpr) fun _ => EndsStmt.endsExpr
  rwa [List.append_nil] at hall

theorem inLoop (hx : Filled P Q fill x f) :
    Filled P Q fill (inLoop x) (fun n => Parser.inLoop (f n)) := by
  refine ⟨fun c s hlo => ?_, hx.accepts.inLoop⟩
  have h := hx.heals c s.enterLoop hlo
  unfold HealsAt Run at *
  rw [inLoop_eq]
  cases hrun : x c s.enterLoop with
  | ok a t =>
    rw [hrun] at h
    exact ⟨h.1, fun c' more hc hmore => Yields.inLoop (t := t.add more) (h.2 c' more hc hmore)⟩
  | error e t =>
    rw [hrun] at h
    refine fun he => (h he).map List.suffix_rfl (fun ks hks c' more v hc hfill hmore => ?_) ?_
    · obtain ⟨a, t, ha, h⟩ := hks c' more v hc hfill hmore
      exact ⟨a, _, ha.inLoop, h⟩
    · exact fun c' more _ hbroken => hbroken.inLoop

theorem inFunction (hx : Filled P any fill x f) :
    Filled P any fill (inFunction x) (fun n => Parser.inFunction (f n)) := by
  refine ⟨fun c s hlo => ?_, hx.accepts.inFunction⟩
  have h := hx.heals c s.enterFunction hlo
  unfold HealsAt Run at *
  rw [inFunction_eq]
  cases hrun : x c s.enterFunction with
  | ok a t =>
    rw [hrun] at h
    exact ⟨h.1, fun c' more hc hmore => Yields.inFunction (t := t.add more) (h.2 c' more hc hmore)⟩
  | error e t =>
    rw [hrun] at h
    refine fun he => (h he).map List.suffix_rfl (fun ks hks c' more v hc hfill hmore => ?_) ?_
    · obtain ⟨a, t, ha, -, h⟩ := hks c' more v hc hfill hmore
      exact ⟨_, _, ha.inFunction, trivial, h⟩
    · exact fun c' more _ hbroken => hbroken.inFunction

end Filled

end ScriptShell.Parser
