import ScriptShell.Proofs.Parser.Extension
import ScriptShell.Proofs.Program.Rendering

namespace ScriptShell.Parser

variable {α β : Type} {c : Context} {s t u : State} {a : α} {b : β}

def Yields (f : Nat → Parser α) (c : Context) (s : State) (a : α) (t : State) : Prop :=
  ∃ bound, ∀ n, bound ≤ n → f n c s = .ok a t

namespace Yields

theorem of_ok {x : Parser α} (h : x c s = .ok a t) : Yields (fun _ => x) c s a t :=
  ⟨0, fun _ _ => h⟩

protected theorem bind {f : Nat → Parser α} {g : Nat → α → Parser β} (hf : Yields f c s a t)
    (hg : Yields (fun n => g n a) c t b u) : Yields (fun n => f n >>= g n) c s b u := by
  obtain ⟨k, hk⟩ := hf
  obtain ⟨l, hl⟩ := hg
  refine ⟨max k l, fun n hn => ?_⟩
  exact (bind_ok (hk n (by omega))).trans (hl n (by omega))

theorem next {x : Parser α} {g : Nat → α → Parser β} (hx : x c s = .ok a t)
    (hg : Yields (fun n => g n a) c t b u) : Yields (fun n => x >>= g n) c s b u :=
  (of_ok hx).bind hg

theorem step {f g : Nat → Parser α} (hf : ∀ n, f (n + 1) = g n) (h : Yields g c s a t) :
    Yields f c s a t := by
  obtain ⟨k, hk⟩ := h
  refine ⟨k + 1, fun n hn => ?_⟩
  obtain ⟨n, rfl⟩ : ∃ m, n = m + 1 := ⟨n - 1, by omega⟩
  rw [hf]
  exact hk n (by omega)

end Yields

/-- By how loose a construct a token is taken that follows an operand: by accesses and calls,
behind them by postfix operators, and so on up to commas. Other tokens end an expression. -/
def looseness : TokenKind → Nat
  | .mark .dot | .mark .leftBracket | .mark .leftParen => 1
  | .mark .plusPlus | .mark .minusMinus => 2
  | .mark .andAnd => 4
  | .mark .orOr => 5
  | .mark .question => 6
  | .mark .comma => 8
  | .mark m => if (binaryOp? m).isSome then 3 else if (assignOp? m).isSome then 7 else 9
  | _ => 9

def State.looseness (s : State) : Nat :=
  (s.next.map Parser.looseness).getD 9

theorem nextIs_eq_false_of_looseness {m : Mark} (h : looseness (.mark m) < s.looseness) :
    s.nextIs m = false := by
  refine Bool.eq_false_iff.mpr fun hnext => ?_
  rw [State.looseness, State.nextIs_iff.mp hnext] at h
  exact Nat.lt_irrefl _ h

theorem bind_binaryOp?_eq_none (h : 3 < s.looseness) : s.next.bind (markAs binaryOp?) = none := by
  unfold State.looseness at h
  cases hnext : s.next with
  | none => rfl
  | some k =>
    cases k with
    | mark m => cases m <;> first | rfl | (rw [hnext] at h; exact absurd h (by decide))
    | _ => rfl

theorem bind_assignOp?_eq_none (h : 7 < s.looseness) : s.next.bind (markAs assignOp?) = none := by
  unfold State.looseness at h
  cases hnext : s.next with
  | none => rfl
  | some k =>
    cases k with
    | mark m => cases m <;> first | rfl | (rw [hnext] at h; exact absurd h (by decide))
    | _ => rfl

theorem bind_updateOp?_eq_none (h : 2 < s.looseness) : s.next.bind updateOp? = none := by
  unfold State.looseness at h
  cases hnext : s.next with
  | none => rfl
  | some k =>
    cases k with
    | mark m => cases m <;> first | rfl | (rw [hnext] at h; exact absurd h (by decide))
    | _ => rfl

theorem eatMark_stop {m : Mark} (h : looseness (.mark m) < s.looseness) :
    eatMark m c s = .ok false s :=
  (eatMark_eq c s m).trans (if_neg (by simp [nextIs_eq_false_of_looseness h]))

section Stops

variable (n : Nat) (e : Expr)

theorem accessRest_stop (h : 1 < s.looseness) : accessRest (n + 1) e c s = .ok e s := by
  rw [accessRest, bind_ok (here_eq c s), bind_ok (eatMark_stop (m := .dot) h)]
  simp only [Bool.false_eq_true, if_false]
  rw [bind_ok (eatMark_stop (m := .leftBracket) h)]
  simp only [Bool.false_eq_true, if_false]
  rw [bind_ok (eatMark_stop (m := .leftParen) h)]
  rfl

theorem binaryRest_stop (least : Nat) (h : 3 < s.looseness) :
    binaryRest (n + 1) least e c s = .ok e s := by
  rw [binaryRest, bind_ok (peekAs_eq c s _), bind_binaryOp?_eq_none h]
  rfl

theorem conjunctionRest_stop (h : 4 < s.looseness) :
    conjunctionRest (n + 1) e c s = .ok e s := by
  rw [conjunctionRest, bind_ok (here_eq c s), bind_ok (eatMark_stop (m := .andAnd) h)]
  rfl

theorem disjunctionRest_stop (h : 5 < s.looseness) :
    disjunctionRest (n + 1) e c s = .ok e s := by
  rw [disjunctionRest, bind_ok (here_eq c s), bind_ok (eatMark_stop (m := .orOr) h)]
  rfl

end Stops

namespace Yields

variable {e : Expr}

theorem of_succ {f : Nat → Parser α} (h : ∀ n, f (n + 1) c s = .ok a t) : Yields f c s a t := by
  refine ⟨1, fun n hn => ?_⟩
  obtain ⟨n, rfl⟩ : ∃ m, n = m + 1 := ⟨n - 1, by omega⟩
  exact h n

theorem access (h : Yields primary c s e t) (ht : 1 < t.looseness) : Yields access c s e t :=
  step (fun _ => rfl) (h.bind (of_succ fun n => accessRest_stop n e ht))

theorem postfixed (h : Yields Parser.access c s e t) (ht : 2 < t.looseness) :
    Yields postfixed c s e t := by
  refine step (fun _ => rfl) (h.bind (next (newlineBefore_eq c t) ?_))
  cases t.newlineBefore c with
  | true => exact of_ok rfl
  | false =>
    refine next (peekAs_eq c t _) ?_
    rw [bind_updateOp?_eq_none ht]
    exact of_ok rfl

theorem unary (h : Yields Parser.postfixed c s e t) (hs : s.next.any isPrefixOp = false) :
    Yields unary c s e t := by
  have hops : s.next.bind unaryOp? = none ∧ s.next.bind updateOp? = none := by
    cases hnext : s.next with
    | none => exact ⟨rfl, rfl⟩
    | some k => simpa [isPrefixOp, hnext] using hs
  refine step (fun _ => rfl) (next (here_eq c s) (next (peekAs_eq c s _) ?_))
  rw [hops.1]
  refine next (peekAs_eq c s _) ?_
  rw [hops.2]
  exact h

theorem binary (h : Yields Parser.unary c s e t) (least : Nat) (ht : 3 < t.looseness) :
    Yields (binary · least) c s e t :=
  step (fun _ => rfl) (h.bind (of_succ fun n => binaryRest_stop n e least ht))

theorem conjunction (h : Yields (Parser.binary · 1) c s e t) (ht : 4 < t.looseness) :
    Yields conjunction c s e t :=
  step (fun _ => rfl) (h.bind (of_succ fun n => conjunctionRest_stop n e ht))

theorem disjunction (h : Yields Parser.conjunction c s e t) (ht : 5 < t.looseness) :
    Yields disjunction c s e t :=
  step (fun _ => rfl) (h.bind (of_succ fun n => disjunctionRest_stop n e ht))

theorem conditional (h : Yields Parser.disjunction c s e t) (ht : 6 < t.looseness) :
    Yields conditional c s e t :=
  step (fun _ => rfl) (h.bind (next (eatMark_stop (m := .question) ht) (of_ok rfl)))

theorem assignment (h : Yields Parser.conditional c s e t) (ht : 7 < t.looseness) :
    Yields assignment c s e t := by
  refine step (fun _ => rfl) (h.bind (next (peekAs_eq c t _) ?_))
  rw [bind_assignOp?_eq_none ht]
  exact of_ok rfl

theorem expression (h : Yields Parser.assignment c s e t) (ht : 8 < t.looseness) :
    Yields expression c s e t := by
  refine step (fun _ => rfl) (h.bind (next (atMark_eq c t _) ?_))
  rw [nextIs_eq_false_of_looseness (m := .comma) ht]
  exact of_ok rfl

theorem expression_of_conditional (h : Yields Parser.conditional c s e t)
    (ht : 8 < t.looseness) : Yields Parser.expression c s e t :=
  (h.assignment (by omega)).expression ht

theorem expression_of_disjunction (h : Yields Parser.disjunction c s e t)
    (ht : 8 < t.looseness) : Yields Parser.expression c s e t :=
  (h.conditional (by omega)).expression_of_conditional ht

theorem expression_of_conjunction (h : Yields Parser.conjunction c s e t)
    (ht : 8 < t.looseness) : Yields Parser.expression c s e t :=
  (h.disjunction (by omega)).expression_of_disjunction ht

theorem expression_of_binary (h : Yields (Parser.binary · 1) c s e t) (ht : 8 < t.looseness) :
    Yields Parser.expression c s e t :=
  (h.conjunction (by omega)).expression_of_conjunction ht

theorem expression_of_unary (h : Yields Parser.unary c s e t) (ht : 8 < t.looseness) :
    Yields Parser.expression c s e t :=
  (h.binary 1 (by omega)).expression_of_binary ht

theorem expression_of_access (h : Yields Parser.access c s e t)
    (hs : s.next.any isPrefixOp = false) (ht : 8 < t.looseness) :
    Yields Parser.expression c s e t :=
  ((h.postfixed (by omega)).unary hs).expression_of_unary ht

theorem expression_of_primary (h : Yields Parser.primary c s e t)
    (hs : s.next.any isPrefixOp = false) (ht : 8 < t.looseness) :
    Yields Parser.expression c s e t :=
  (h.access (by omega)).expression_of_access hs ht

theorem inLoop {f : Nat → Parser α} (h : Yields f c s.enterLoop a t) :
    Yields (fun n => inLoop (f n)) c s a t.leaveLoop := by
  obtain ⟨bound, h⟩ := h
  exact ⟨bound, fun n hn => (inLoop_eq c s (f n)).trans (by rw [h n hn])⟩

theorem inFunction {f : Nat → Parser α} (h : Yields f c s.enterFunction a t) :
    Yields (fun n => inFunction (f n)) c s (a, (t.varScopes.headD []).reverse)
      (t.leaveFunction s.loopDepth) := by
  obtain ⟨bound, h⟩ := h
  exact ⟨bound, fun n hn => (inFunction_eq c s (f n)).trans (by rw [h n hn])⟩

end Yields

end ScriptShell.Parser
