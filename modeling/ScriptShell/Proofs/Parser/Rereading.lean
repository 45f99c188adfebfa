import ScriptShell.Proofs.Parser.Yields

namespace ScriptShell.Parser

variable {α β : Type} {c : Context} {s t u : State} {v : List Token}

def spell (ks : List TokenKind) (v : List Token) : List Token :=
  ks.map TokenKind.token ++ v

@[simp] theorem spell_nil (v : List Token) : spell [] v = v := rfl

@[simp] theorem spell_cons (k : TokenKind) (ks : List TokenKind) (v : List Token) :
    spell (k :: ks) v = k.token :: spell ks v := rfl

@[simp] theorem spell_append (ks ks' : List TokenKind) (v : List Token) :
    spell (ks ++ ks') v = spell ks (spell ks' v) := by
  simp [spell]

namespace Yields

variable {s : State} {k : TokenKind} {f g : Nat → Parser α} {a : α}

theorem skip (h : Yields f c (s.facing v) a t) :
    Yields (fun n => Parser.skip >>= fun _ => f n) c (s.facing (k.token :: v)) a t :=
  .next (skip_eq c _) h

theorem here {f : Nat → Location → Parser α}
    (h : Yields (f · default) c (s.facing (k.token :: v)) a t) :
    Yields (fun n => Parser.here >>= f n) c (s.facing (k.token :: v)) a t :=
  .next (here_eq c _) h

theorem peek {f : Nat → Option TokenKind → Parser α}
    (h : Yields (f · (some k)) c (s.facing (k.token :: v)) a t) :
    Yields (fun n => Parser.peek >>= f n) c (s.facing (k.token :: v)) a t :=
  .next (peek_eq c _) h

theorem peekAs {reading : TokenKind → Option β} {r : Option β}
    {f : Nat → Option β → Parser α} (hk : reading k = r)
    (h : Yields (f · r) c (s.facing (k.token :: v)) a t) :
    Yields (fun n => Parser.peekAs reading >>= f n) c (s.facing (k.token :: v)) a t := by
  subst hk
  exact .next (peekAs_eq c _ reading) h

theorem atMark {m : Mark} {b : Bool} {f : Nat → Bool → Parser α}
    (hk : (s.facing (k.token :: v)).nextIs m = b)
    (h : Yields (f · b) c (s.facing (k.token :: v)) a t) :
    Yields (fun n => Parser.atMark m >>= f n) c (s.facing (k.token :: v)) a t :=
  .next (atMark_eq c _ m) (hk ▸ h)

theorem eatMark {m : Mark} {f : Nat → Bool → Parser α} (h : Yields (f · true) c (s.facing v) a t) :
    Yields (fun n => Parser.eatMark m >>= f n) c (s.facing ((TokenKind.mark m).token :: v)) a t :=
  .next ((eatMark_eq c _ m).trans (if_pos (decide_eq_true rfl))) h

theorem skipMark {m : Mark} {f : Nat → Bool → Parser α} (hs : s.nextIs m = false)
    (h : Yields (f · false) c s a t) : Yields (fun n => Parser.eatMark m >>= f n) c s a t :=
  .next ((eatMark_eq c s m).trans (if_neg (by simp [hs]))) h

theorem eatKeyword {k : Keyword} {f : Nat → Bool → Parser α}
    (h : Yields (f · true) c (s.facing v) a t) :
    Yields (fun n => Parser.eatKeyword k >>= f n) c
      (s.facing ((TokenKind.keyword k).token :: v)) a t :=
  .next ((eatKeyword_eq c _ k).trans (if_pos (decide_eq_true rfl))) h

theorem skipKeyword {k : Keyword} {f : Nat → Bool → Parser α} (hs : s.nextIsKeyword k = false)
    (h : Yields (f · false) c s a t) : Yields (fun n => Parser.eatKeyword k >>= f n) c s a t :=
  .next ((eatKeyword_eq c s k).trans (if_neg (by simp [hs]))) h

theorem expectMark {m : Mark} {what : String} {f : Nat → Unit → Parser α}
    (h : Yields (f · ()) c (s.facing v) a t) :
    Yields (fun n => Parser.expectMark m what >>= f n) c
      (s.facing ((TokenKind.mark m).token :: v)) a t :=
  .next ((expectMark_eq c _ m what).trans (if_pos (decide_eq_true rfl))) h

theorem expectName {x what : String} {f : Nat → String → Parser α}
    (h : Yields (f · x) c (s.facing v) a t) :
    Yields (fun n => Parser.expectName what >>= f n) c
      (s.facing ((TokenKind.name x).token :: v)) a t :=
  .next (expectName_eq c _ what) h

theorem endStatement {f : Nat → Unit → Parser α} (h : Yields (f · ()) c (s.facing v) a t) :
    Yields (fun n => Parser.endStatement >>= f n) c
      (s.facing ((TokenKind.mark .semicolon).token :: v)) a t :=
  .next (endStatement_eq c _) h

end Yields

def Again (c : Context) (e : Expr) (s t : State) : Prop :=
  ∀ v, Yields primary c (s.facing (spell e.tokens v)) e.unplaced (t.facing v)

def AgainAll (c : Context) : List Expr → State → State → Prop
  | [], s, t => s = t
  | e :: es, s, t => ∃ m, Again c e s m ∧ AgainAll c es m t

def AgainEntries (c : Context) : List (String × Expr) → State → State → Prop
  | [], s, t => s = t
  | entry :: entries, s, t => ∃ m, Again c entry.2 s m ∧ AgainEntries c entries m t

def AgainFunction (c : Context) (named : Bool) (f : FunctionDef) (s t : State) : Prop :=
  ∀ v, Yields (function · named default) c (s.facing (spell f.tokens v)) f.unplaced
    (t.facing v)

theorem yields_parenthesized {ks : List TokenKind} {e : Expr}
    (h : Yields expression c (s.facing (spell ks (spell [.mark .rightParen] v))) e
      (t.facing (spell [.mark .rightParen] v))) :
    Yields primary c (s.facing (spell (parenthesized ks) v)) e (t.facing v) := by
  rw [parenthesized, spell_cons, spell_append]
  refine .step (fun _ => rfl) (.here (.peekAs rfl (.peek (.skip (h.bind ?_)))))
  exact .expectMark (.of_ok rfl)

namespace Again

variable {e : Expr} {k : TokenKind}

theorem next_eq (e : Expr) (s : State) (v : List Token) :
    (s.facing (spell e.tokens v)).next = some (.mark .leftParen) := by
  obtain ⟨ks, hks⟩ := e.tokens_eq_parenthesized
  rw [hks]
  rfl

variable (h : Again c e s t)
include h

theorem access (hk : 1 < looseness k) :
    Yields access c (s.facing (spell e.tokens (k.token :: v))) e.unplaced
      (t.facing (k.token :: v)) :=
  (h _).access hk

theorem unary (hk : 2 < looseness k) :
    Yields unary c (s.facing (spell e.tokens (k.token :: v))) e.unplaced
      (t.facing (k.token :: v)) := by
  refine ((h.access (by omega)).postfixed hk).unary ?_
  rw [next_eq]
  rfl

theorem binary (least : Nat) (hk : 3 < looseness k) :
    Yields (binary · least) c (s.facing (spell e.tokens (k.token :: v))) e.unplaced
      (t.facing (k.token :: v)) :=
  (h.unary (by omega)).binary least hk

theorem conjunction (hk : 4 < looseness k) :
    Yields conjunction c (s.facing (spell e.tokens (k.token :: v))) e.unplaced
      (t.facing (k.token :: v)) :=
  (h.binary 1 (by omega)).conjunction hk

theorem disjunction (hk : 5 < looseness k) :
    Yields disjunction c (s.facing (spell e.tokens (k.token :: v))) e.unplaced
      (t.facing (k.token :: v)) :=
  (h.conjunction (by omega)).disjunction hk

theorem conditional (hk : 6 < looseness k) :
    Yields conditional c (s.facing (spell e.tokens (k.token :: v))) e.unplaced
      (t.facing (k.token :: v)) :=
  (h.disjunction (by omega)).conditional hk

theorem assignment (hk : 7 < looseness k) :
    Yields assignment c (s.facing (spell e.tokens (k.token :: v))) e.unplaced
      (t.facing (k.token :: v)) :=
  (h.conditional (by omega)).assignment hk

theorem expression (hk : 8 < looseness k) :
    Yields expression c (s.facing (spell e.tokens (k.token :: v))) e.unplaced
      (t.facing (k.token :: v)) :=
  (h.assignment (by omega)).expression hk

end Again

section Expressions

variable {m : State} {place : Location} {e e' e'' : Expr}

theorem isTarget_unplaced (e : Expr) : e.unplaced.isTarget = e.isTarget := by
  cases e <;> rfl

theorem place_unplaced (e : Expr) : e.unplaced.place = default := by
  cases e <;> rfl

theorem update_facing (op : UpdateOp) (before : Bool) (h : e.isTarget = true) :
    update op before e.unplaced default c s =
      .ok (Expr.update op before e place).unplaced s := by
  rw [update, if_pos ((isTarget_unplaced e).trans h)]
  rfl

theorem again_literal {k : TokenKind} (h : literal? place k = some e) (hst : s = t) :
    Again c e s t := by
  intro v
  have hk : e.tokens = parenthesized [k] ∧ literal? default k = some e.unplaced ∧
      isPrefixOp k = false := by
    cases k with
    | keyword k => cases k <;> cases h <;> exact ⟨rfl, rfl, rfl⟩
    | mark => cases h
    | _ => cases h; exact ⟨rfl, rfl, rfl⟩
  rw [hk.1, ← hst]
  refine yields_parenthesized (.expression_of_primary ?_ hk.2.2 (by decide : 8 < 9))
  exact .step (fun _ => rfl) (.here (.peekAs hk.2.1 (.skip (.of_ok rfl))))

theorem again_unary (op : UnaryOp) (h : Again c e s t) : Again c (.unary op e place) s t := by
  intro v
  refine yields_parenthesized (.expression_of_unary ?_ (by decide : 8 < 9))
  have hop : unaryOp? op.kind = some op := by cases op <;> rfl
  refine .step (fun _ => rfl) (.here (.peekAs hop (.skip ?_)))
  exact (h.unary (by decide)).bind (.of_ok rfl)

theorem again_updateBefore (op : UpdateOp) (h : Again c e s t) (htarget : e.isTarget = true) :
    Again c (.update op true e place) s t := by
  intro v
  refine yields_parenthesized (.expression_of_unary ?_ (by decide : 8 < 9))
  have hop : unaryOp? (.mark op.mark) = none ∧ updateOp? (.mark op.mark) = some op := by
    cases op <;> exact ⟨rfl, rfl⟩
  refine .step (fun _ => rfl) (.here (.peekAs hop.1 (.peekAs hop.2 (.skip ?_))))
  exact (h.unary (by decide)).bind (.of_ok (update_facing op true htarget))

theorem again_updateBehind (op : UpdateOp) (h : Again c e s t) (htarget : e.isTarget = true) :
    Again c (.update op false e place) s t := by
  intro v
  have hop : looseness (.mark op.mark) = 2 ∧ updateOp? (.mark op.mark) = some op := by
    cases op <;> exact ⟨rfl, rfl⟩
  refine yields_parenthesized (.expression_of_unary (.unary ?_ ?_) (by decide : 8 < 9))
  · rw [spell_append]
    refine .step (fun _ => rfl) ((h.access (by omega)).bind ?_)
    refine .next (newlineBefore_eq _ _) (.peekAs hop.2 (.here (.skip ?_)))
    exact .of_ok (update_facing op false htarget)
  · rw [spell_append, Again.next_eq]
    rfl

theorem again_binary (op : BinaryOp) (hl : Again c e s m) (hr : Again c e' m t) :
    Again c (.binary op e e' place) s t := by
  intro v
  obtain ⟨level, hlevel, hop⟩ : ∃ level, ¬level < 1 ∧ binaryOp? op.mark = some (level, op) := by
    cases op <;> exact ⟨_, by decide, rfl⟩
  have hloose : looseness (.mark op.mark) = 3 := by cases op <;> rfl
  refine yields_parenthesized (.expression_of_binary ?_ (by decide : 8 < 9))
  rw [spell_append, spell_cons]
  refine .step (fun _ => rfl) ((hl.unary (by omega)).bind ?_)
  refine .step (fun _ => rfl) (.peekAs (r := some (level, op)) hop ?_)
  simp only [if_neg hlevel]
  refine .here (.skip ((hr.binary (level + 1) (by decide)).bind ?_))
  exact .of_succ fun n => binaryRest_stop n _ 1 (by decide : 3 < 9)

theorem again_logical (op : LogicalOp) (hl : Again c e s m) (hr : Again c e' m t) :
    Again c (.logical op e e' place) s t := by
  intro v
  cases op with
  | and =>
    refine yields_parenthesized (.expression_of_conjunction ?_ (by decide : 8 < 9))
    rw [spell_append, spell_cons]
    refine .step (fun _ => rfl) ((hl.binary 1 (by decide)).bind ?_)
    refine .step (fun _ => rfl) (.here (.eatMark ((hr.binary 1 (by decide)).bind ?_)))
    exact .of_succ fun n => conjunctionRest_stop n _ (by decide : 4 < 9)
  | or =>
    refine yields_parenthesized (.expression_of_disjunction ?_ (by decide : 8 < 9))
    rw [spell_append, spell_cons]
    refine .step (fun _ => rfl) ((hl.conjunction (by decide)).bind ?_)
    refine .step (fun _ => rfl) (.here (.eatMark ((hr.conjunction (by decide)).bind ?_)))
    exact .of_succ fun n => disjunctionRest_stop n _ (by decide : 5 < 9)

theorem again_assign {mark : Mark} {op : Option BinaryOp} (hop : assignOp? mark = some op)
    (htarget : e.isTarget = true) (hl : Again c e s m) (hr : Again c e' m t) :
    Again c (.assign op e e' place) s t := by
  intro v
  have hmark : assignOp? (assignMark op) = some op ∧ looseness (.mark (assignMark op)) = 7 := by
    cases mark <;> cases hop <;> exact ⟨rfl, rfl⟩
  refine yields_parenthesized (.expression ?_ (by decide : 8 < 9))
  rw [spell_append, spell_cons]
  refine .step (fun _ => rfl) ((hl.conditional (by omega)).bind ?_)
  refine .peekAs (r := some op) hmark.1 (.here ?_)
  simp only [isTarget_unplaced, htarget, if_true]
  exact .skip ((hr.assignment (by decide)).bind (.of_ok rfl))

theorem again_conditional {m' : State} (hc : Again c e s m) (hy : Again c e' m m')
    (hn : Again c e'' m' t) : Again c (.conditional e e' e'' place) s t := by
  intro v
  refine yields_parenthesized (.expression_of_conditional ?_ (by decide : 8 < 9))
  rw [spell_append, spell_cons, spell_append, spell_cons]
  refine .step (fun _ => rfl) ((hc.disjunction (by decide)).bind (.eatMark ?_))
  refine (hy.assignment (by decide)).bind (.expectMark ?_)
  exact (hn.assignment (by decide)).bind (.of_ok (by rw [place_unplaced]; rfl))

theorem again_access {e' : Expr} {ks : List TokenKind} (h : Again c e s m)
    (htokens : e'.tokens = parenthesized (e.tokens ++ ks))
    (hrest : ∀ v, Yields (accessRest · e.unplaced) c
      (m.facing (spell ks (spell [.mark .rightParen] v))) e'.unplaced
      (t.facing (spell [.mark .rightParen] v))) : Again c e' s t := by
  intro v
  rw [htokens]
  refine yields_parenthesized (.expression_of_access ?_ ?_ (by decide : 8 < 9))
  · rw [spell_append]
    exact .step (fun _ => rfl) ((h _).bind (hrest v))
  · rw [spell_append, Again.next_eq]
    rfl

theorem again_member (x : String) (h : Again c e s t) : Again c (.member e x place) s t := by
  refine again_access h rfl fun v => .step (fun _ => rfl) (.here (.eatMark (.expectName ?_)))
  exact .of_succ fun n => accessRest_stop n _ (by decide : 1 < 9)

theorem again_index (h : Again c e s m) (hi : Again c e' m t) : Again c (.index e e' place) s t := by
  refine again_access h rfl fun v => ?_
  rw [spell_cons, spell_append]
  refine .step (fun _ => rfl) (.here (.skipMark rfl (.eatMark ?_)))
  refine (hi.expression (by decide)).bind (.expectMark ?_)
  exact .of_succ fun n => accessRest_stop n _ (by decide : 1 < 9)

theorem spell_commaSeparated (ks : List TokenKind) (others : List (List TokenKind))
    (v : List Token) :
    spell (commaSeparated (ks :: others)) v =
      spell ks (spell (others.flatMap (.mark .comma :: ·)) v) :=
  spell_append ..

theorem spell_others (ks : List TokenKind) (others : List (List TokenKind)) (v : List Token) :
    spell ((ks :: others).flatMap (.mark .comma :: ·)) v =
      (TokenKind.mark .comma).token :: spell (commaSeparated (ks :: others)) v := by
  simp [commaSeparated]

theorem Again.assignment_item {k : TokenKind} (h : Again c e s t) (others : List (List TokenKind))
    (hk : 7 < looseness k) (v : List Token) :
    Yields Parser.assignment c
      (s.facing (spell e.tokens (spell (others.flatMap (.mark .comma :: ·)) (k.token :: v))))
      e.unplaced (t.facing (spell (others.flatMap (.mark .comma :: ·)) (k.token :: v))) := by
  cases others with
  | nil => exact h.assignment hk
  | cons ks others =>
    rw [spell_others]
    exact h.assignment (by decide)

theorem yields_sequenceRest {es : List Expr} (h : AgainAll c es s t) :
    Yields sequenceRest c
      (s.facing (spell ((tokensOfExprs es).flatMap (.mark .comma :: ·))
        ((TokenKind.mark .rightParen).token :: v)))
      (unplacedExprs es) (t.facing ((TokenKind.mark .rightParen).token :: v)) := by
  induction es generalizing s with
  | nil =>
    have hst : s = t := h
    exact .step (fun _ => rfl) (.skipMark rfl (.of_ok (hst ▸ rfl)))
  | cons e es ih =>
    obtain ⟨m, he, hes⟩ := h
    rw [tokensOfExprs, spell_others, spell_commaSeparated]
    refine .step (fun _ => rfl) (.eatMark ((he.assignment_item _ (by decide) v).bind ?_))
    exact (ih hes).bind (.of_ok rfl)

theorem again_sequence {es : List Expr} (hes : es ≠ []) (h : Again c e s m)
    (hall : AgainAll c es m t) : Again c (.sequence (e :: es) place) s t := by
  intro v
  refine yields_parenthesized (.step (fun _ => rfl) ?_)
  rw [tokensOfExprs, spell_commaSeparated]
  refine (h.assignment_item _ (by decide) v).bind ?_
  obtain ⟨e', es, rfl⟩ := List.exists_cons_of_ne_nil hes
  refine .next (atMark_eq _ _ _) ((yields_sequenceRest hall).bind (.of_ok ?_))
  rw [place_unplaced]
  rfl

theorem yields_argumentList {es : List Expr} (hes : es ≠ []) (h : AgainAll c es s t) :
    Yields argumentList c
      (s.facing (spell (commaSeparated (tokensOfExprs es))
        ((TokenKind.mark .rightParen).token :: v)))
      (unplacedExprs es) (t.facing ((TokenKind.mark .rightParen).token :: v)) := by
  induction es generalizing s with
  | nil => exact absurd rfl hes
  | cons e es ih =>
    obtain ⟨m, he, hall⟩ := h
    rw [tokensOfExprs, spell_commaSeparated]
    refine .step (fun _ => rfl) ((he.assignment_item _ (by decide) v).bind ?_)
    cases es with
    | nil =>
      have hst : m = t := hall
      exact .skipMark rfl (.of_ok (hst ▸ rfl))
    | cons e' es =>
      rw [tokensOfExprs, spell_others]
      exact .eatMark ((ih (List.cons_ne_nil _ _) hall).bind (.of_ok rfl))

theorem next_spell_expressions (e : Expr) (es : List Expr) (s : State) (v : List Token) :
    (s.facing (spell (commaSeparated (tokensOfExprs (e :: es))) v)).next =
      some (.mark .leftParen) := by
  rw [tokensOfExprs, spell_commaSeparated]
  exact Again.next_eq e s _

theorem nextIs_eq_false {m m' : Mark} (h : s.next = some (.mark m')) (hm : m ≠ m') :
    s.nextIs m = false := by
  refine Bool.eq_false_iff.mpr fun hnext => hm ?_
  simpa [h, eq_comm] using State.nextIs_iff.mp hnext

theorem again_call {es : List Expr} (h : Again c e s m) (hall : AgainAll c es m t) :
    Again c (.call e es place) s t := by
  refine again_access h rfl fun v => ?_
  have hargs : Yields arguments c
      (m.facing (spell (commaSeparated (tokensOfExprs es))
        ((TokenKind.mark .rightParen).token :: (TokenKind.mark .rightParen).token :: v)))
      (unplacedExprs es) (t.facing ((TokenKind.mark .rightParen).token :: v)) := by
    cases es with
    | nil =>
      have hst : m = t := hall
      exact .step (fun _ => rfl) (.eatMark (.of_ok (hst ▸ rfl)))
    | cons e' es =>
      have hnext := next_spell_expressions e' es m
      refine .step (fun _ => rfl) (.skipMark (nextIs_eq_false (hnext _) (by decide)) ?_)
      exact (yields_argumentList (List.cons_ne_nil _ _) hall).bind (.expectMark (.of_ok rfl))
  rw [parenthesized, spell_cons, spell_append]
  refine .step (fun _ => rfl) (.here (.skipMark rfl (.skipMark rfl (.eatMark (hargs.bind ?_)))))
  exact .of_succ fun n => accessRest_stop n _ (by decide : 1 < 9)

theorem yields_elements {es : List Expr} (h : AgainAll c es s t) :
    Yields elements c
      (s.facing (spell (commaSeparated (tokensOfExprs es))
        ((TokenKind.mark .rightBracket).token :: v)))
      (unplacedExprs es) (t.facing ((TokenKind.mark .rightBracket).token :: v)) := by
  induction es generalizing s with
  | nil =>
    have hst : s = t := h
    exact .step (fun _ => rfl) (.atMark rfl (.of_ok (hst ▸ rfl)))
  | cons e es ih =>
    obtain ⟨m, he, hall⟩ := h
    have hnext : (s.facing (spell (commaSeparated (tokensOfExprs (e :: es)))
        ((TokenKind.mark .rightBracket).token :: v))).nextIs .rightBracket = false :=
      nextIs_eq_false (next_spell_expressions e es _ _) (by decide)
    refine .step (fun _ => rfl) (.next ((atMark_eq _ _ _).trans (by rw [hnext])) ?_)
    rw [tokensOfExprs, spell_commaSeparated]
    refine (he.assignment_item _ (by decide) v).bind ?_
    cases es with
    | nil =>
      have hst : m = t := hall
      exact .skipMark rfl (.of_ok (hst ▸ rfl))
    | cons e' es =>
      rw [tokensOfExprs, spell_others]
      exact .eatMark ((ih hall).bind (.of_ok rfl))

theorem again_array {es : List Expr} (h : AgainAll c es s t) : Again c (.array es place) s t := by
  intro v
  refine yields_parenthesized (.expression_of_primary ?_ rfl (by decide : 8 < 9))
  rw [spell_cons, spell_append]
  refine .step (fun _ => rfl) (.here (.peekAs rfl (.peek (.skip ?_))))
  exact (yields_elements h).bind (.expectMark (.of_ok rfl))

theorem yields_properties {entries : List (String × Expr)} (h : AgainEntries c entries s t) :
    Yields properties c
      (s.facing (spell (commaSeparated (tokensOfEntries entries))
        ((TokenKind.mark .rightBrace).token :: v)))
      (unplacedEntries entries) (t.facing ((TokenKind.mark .rightBrace).token :: v)) := by
  induction entries generalizing s with
  | nil =>
    have hst : s = t := h
    exact .step (fun _ => rfl) (.atMark rfl (.of_ok (hst ▸ rfl)))
  | cons entry entries ih =>
    obtain ⟨m, he, hall⟩ := h
    rw [tokensOfEntries, spell_commaSeparated]
    refine .step (fun _ => rfl) (.atMark rfl (.peekAs (r := some entry.1) rfl ?_))
    refine .skip (.expectMark ((he.assignment_item _ (by decide) v).bind ?_))
    cases entries with
    | nil =>
      have hst : m = t := hall
      exact .skipMark rfl (.of_ok (hst ▸ rfl))
    | cons entry' entries =>
      rw [tokensOfEntries, spell_others]
      exact .eatMark ((ih hall).bind (.of_ok rfl))

theorem again_object {entries : List (String × Expr)} (h : AgainEntries c entries s t) :
    Again c (.object entries place) s t := by
  intro v
  refine yields_parenthesized (.expression_of_primary ?_ rfl (by decide : 8 < 9))
  rw [spell_cons, spell_append]
  refine .step (fun _ => rfl) (.here (.peekAs rfl (.peek (.skip ?_))))
  exact (yields_properties h).bind (.expectMark (.of_ok rfl))

theorem again_function {f : FunctionDef} (h : AgainFunction c false f s t) :
    Again c (.function f place) s t := by
  intro v
  refine yields_parenthesized (.expression_of_primary ?_ rfl (by decide : 8 < 9))
  rw [spell_cons]
  refine .step (fun _ => rfl) (.here (.peekAs rfl (.peek (.skip ?_))))
  exact (h _).bind (.of_ok rfl)

end Expressions

end ScriptShell.Parser
