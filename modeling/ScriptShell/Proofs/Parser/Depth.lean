import ScriptShell.Proofs.Parser.Run

namespace ScriptShell.Parser

variable {α β : Type}

def Within (lo hi k : Nat) (x : Parser α) : Prop :=
  ∀ c s, lo ≤ s.rest.length → s.rest.length ≤ hi →
    Run x c s (fun _ t => t.rest.length + k ≤ s.rest.length) fun e _ => e.fault ≠ .exhausted

theorem missing_ne_exhausted (what : String) : ParseFault.missing what ≠ .exhausted :=
  nofun

namespace Within

variable {lo hi i k : Nat} {x : Parser α} {g : α → Parser β}

protected theorem bind (hx : Within lo hi k x)
    (hg : ∀ a, k ≤ hi → Within 0 (hi - k) (i - k) (g a)) : Within lo hi i (x >>= g) := by
  intro c s hlo hhi
  refine Run.bind_iff.mpr ((hx c s hlo hhi).imp (fun a t ht => ?_) fun e t he => he)
  refine (hg a (by omega) c t (Nat.zero_le _) (by omega)).imp (fun b u hu => ?_) fun e u he => he
  omega

theorem look_bind (hx : ∀ c s, ∃ a, x c s = .ok a s) (hg : ∀ a, Within lo hi i (g a)) :
    Within lo hi i (x >>= g) := by
  intro c s hlo hhi
  obtain ⟨a, ha⟩ := hx c s
  exact Run.bind_iff.mpr ((Run.iff_ok ha).mpr (hg a c s hlo hhi))

theorem weaken (hx : Within 0 hi k x) (hle : i ≤ k) : Within lo hi i x :=
  fun c s _ hhi => (hx c s (Nat.zero_le _) hhi).imp (fun _ _ ht => by omega) fun _ _ he => he

protected theorem pure (a : α) : Within lo hi 0 (pure a) :=
  fun _ _ _ _ => Nat.le_refl _

protected theorem ite {p : Prop} [Decidable p] {x y : Parser α} (hx : Within lo hi i x)
    (hy : Within lo hi i y) : Within lo hi i (if p then x else y) := by
  split <;> assumption

theorem failAt {fault : ParseFault} {place : Location} (h : fault ≠ .exhausted) :
    Within lo hi i (Parser.failAt fault place : Parser α) :=
  fun _ _ _ _ => h

theorem failHere {fault : ParseFault} (h : fault ≠ .exhausted) :
    Within lo hi i (Parser.failHere fault : Parser α) :=
  fun _ _ _ _ => h

theorem failAt_bind {fault : ParseFault} {place : Location} (h : fault ≠ .exhausted) :
    Within lo hi i (Parser.failAt fault place >>= g) :=
  fun _ _ _ _ => Run.bind_iff.mpr h

theorem failHere_bind {fault : ParseFault} (h : fault ≠ .exhausted) :
    Within lo hi i (Parser.failHere fault >>= g) :=
  fun _ _ _ _ => Run.bind_iff.mpr h

section Looking

variable {g : Location → Parser β} {g' : Bool → Parser β}

theorem here_bind (hg : ∀ place, Within lo hi i (g place)) : Within lo hi i (Parser.here >>= g) :=
  look_bind (fun c s => ⟨_, here_eq c s⟩) hg

theorem newlineBefore_bind (hg : ∀ b, Within lo hi i (g' b)) :
    Within lo hi i (Parser.newlineBefore >>= g') :=
  look_bind (fun c s => ⟨_, newlineBefore_eq c s⟩) hg

theorem atEnd_bind (hg : ∀ b, Within lo hi i (g' b)) : Within lo hi i (Parser.atEnd >>= g') :=
  look_bind (fun c s => ⟨_, atEnd_eq c s⟩) hg

theorem atMark_bind {m : Mark} (hg : ∀ b, Within lo hi i (g' b)) :
    Within lo hi i (Parser.atMark m >>= g') :=
  look_bind (fun c s => ⟨_, atMark_eq c s m⟩) hg

end Looking

theorem get_bind {g : State → Parser β} (hg : ∀ s, Within lo hi i (g s)) :
    Within lo hi i (get >>= g) :=
  fun c s hlo hhi => Run.bind_iff.mpr (hg s c s hlo hhi)

theorem length_of_next {s : State} {k : TokenKind} (h : s.next = some k) : 1 ≤ s.rest.length := by
  obtain ⟨token, rest, hrest, -⟩ := State.rest_of_next h
  simp [hrest]

theorem peek_bind {g : Option TokenKind → Parser β} (hs : ∀ k, Within 1 hi i (g (some k)))
    (hn : Within 0 hi i (g none)) : Within 0 hi i (peek >>= g) := by
  intro c s _ hhi
  refine Run.bind_iff.mpr ((Run.iff_ok (peek_eq c s)).mpr ?_)
  cases h : s.next with
  | none => exact hn c s (Nat.zero_le _) hhi
  | some k => exact hs k c s (length_of_next h) hhi

theorem peekAs_bind {γ : Type} {reading : TokenKind → Option γ} {g : Option γ → Parser β}
    (hs : ∀ a, Within 1 hi i (g (some a))) (hn : Within 0 hi i (g none)) :
    Within 0 hi i (peekAs reading >>= g) := by
  intro c s _ hhi
  refine Run.bind_iff.mpr ((Run.iff_ok (peekAs_eq c s reading)).mpr ?_)
  cases h : s.next.bind reading with
  | none => exact hn c s (Nat.zero_le _) hhi
  | some a =>
    obtain ⟨k, hk, -⟩ := Option.bind_eq_some_iff.mp h
    exact hs a c s (length_of_next hk) hhi

theorem length_skip {s : State} (h : 1 ≤ s.rest.length) :
    s.skip.rest.length + 1 = s.rest.length := by
  rw [State.skip, List.length_tail]
  omega

theorem skip_bind {g : Unit → Parser β} (hg : 1 ≤ hi → Within 0 (hi - 1) (i - 1) (g ())) :
    Within 1 hi i (Parser.skip >>= g) := by
  intro c s hlo hhi
  have hlength := length_skip hlo
  refine Run.bind_iff.mpr ((Run.iff_ok (skip_eq c s)).mpr ?_)
  refine (hg (by omega) c s.skip (Nat.zero_le _) (by omega)).imp (fun b u hu => ?_) fun _ _ he => he
  omega

theorem eatMark_bind {m : Mark} {g : Bool → Parser β}
    (ht : 1 ≤ hi → Within 0 (hi - 1) (i - 1) (g true)) (hf : Within lo hi i (g false)) :
    Within lo hi i (eatMark m >>= g) := by
  intro c s hlo hhi
  rw [Run.bind_iff]
  cases h : s.nextIs m with
  | false =>
    rw [Run.iff_ok ((eatMark_eq c s m).trans (if_neg (Bool.not_eq_true _ ▸ h)))]
    exact hf c s hlo hhi
  | true =>
    have hlength := length_skip (length_of_next (State.nextIs_iff.mp h))
    rw [Run.iff_ok ((eatMark_eq c s m).trans (if_pos h))]
    refine (ht (by omega) c s.skip (Nat.zero_le _) (by omega)).imp (fun b u hu => ?_)
      fun _ _ he => he
    omega

theorem eatKeyword_bind {k : Keyword} {g : Bool → Parser β}
    (ht : 1 ≤ hi → Within 0 (hi - 1) (i - 1) (g true)) (hf : Within lo hi i (g false)) :
    Within lo hi i (eatKeyword k >>= g) := by
  intro c s hlo hhi
  rw [Run.bind_iff]
  cases h : s.nextIsKeyword k with
  | false =>
    rw [Run.iff_ok ((eatKeyword_eq c s k).trans (if_neg (Bool.not_eq_true _ ▸ h)))]
    exact hf c s hlo hhi
  | true =>
    have hlength := length_skip (length_of_next (State.nextIsKeyword_iff.mp h))
    rw [Run.iff_ok ((eatKeyword_eq c s k).trans (if_pos h))]
    refine (ht (by omega) c s.skip (Nat.zero_le _) (by omega)).imp (fun b u hu => ?_)
      fun _ _ he => he
    omega

theorem expectMark (m : Mark) (what : String) : Within lo hi 1 (expectMark m what) := by
  intro c s _ _
  cases h : s.nextIs m with
  | false =>
    rw [Run.iff_error ((expectMark_eq c s m what).trans (if_neg (Bool.not_eq_true _ ▸ h)))]
    exact missing_ne_exhausted _
  | true =>
    rw [Run.iff_ok ((expectMark_eq c s m what).trans (if_pos h))]
    exact Nat.le_of_eq (length_skip (length_of_next (State.nextIs_iff.mp h)))

theorem expectName (what : String) : Within lo hi 1 (expectName what) := by
  intro c s _ _
  rw [Run, expectName_eq]
  split
  case h_1 a t h =>
    split at h
    case h_1 x hnext =>
      cases h
      exact Nat.le_of_eq (length_skip (length_of_next hnext))
    case h_2 => cases h
  case h_2 e t h =>
    split at h <;> cases h
    exact missing_ne_exhausted _

theorem endStatement : Within lo hi 0 endStatement := by
  intro c s _ _
  rw [Run, endStatement_eq]
  split
  case h_1 a t h =>
    split at h
    · cases h
      exact Nat.le_trans (Nat.le_of_eq List.length_tail) (Nat.sub_le _ _)
    · split at h <;> cases h
      exact Nat.le_refl _
  case h_2 e t h =>
    split at h
    · cases h
    · split at h <;> cases h
      exact missing_ne_exhausted _

theorem declareVar (name : String) (place : Location) :
    Within lo hi 0 (declareVar name place) :=
  fun c s _ _ => (Run.iff_ok (declareVar_eq c s name place)).mpr (by simp)

theorem warnUnreachable (body : List Stmt) : Within lo hi 0 (warnUnreachable body) :=
  fun c s _ _ => (Run.iff_ok (warnUnreachable_eq c s body)).mpr (by simp)

theorem warnCondition (e : Expr) : Within lo hi 0 (warnCondition e) :=
  fun c s _ _ => (Run.iff_ok (warnCondition_eq c s e)).mpr (by simp)

theorem inLoop (hx : Within lo hi k x) : Within lo hi k (inLoop x) := by
  intro c s hlo hhi
  have h := hx c s.enterLoop hlo hhi
  rw [Run, inLoop_eq]
  rw [Run] at h
  cases hr : x c s.enterLoop <;> simpa [hr] using h

theorem inFunction (hx : Within lo hi k x) : Within lo hi k (inFunction x) := by
  intro c s hlo hhi
  have h := hx c s.enterFunction hlo hhi
  rw [Run, inFunction_eq]
  rw [Run] at h
  cases hr : x c s.enterFunction <;> simpa [hr] using h

end Within

/-- With a bound of `n`, each function of the parser stays within it on as many tokens as twenty
for each and a few more allow. -/
structure Ample (n : Nat) : Prop where
  expression : ∀ {hi}, 20 * hi + 10 ≤ n → Within 0 hi 1 (expression n)
  sequenceRest : ∀ {hi}, 20 * hi + 1 ≤ n → Within 0 hi 0 (sequenceRest n)
  assignment : ∀ {hi}, 20 * hi + 9 ≤ n → Within 0 hi 1 (assignment n)
  conditional : ∀ {hi}, 20 * hi + 8 ≤ n → Within 0 hi 1 (conditional n)
  disjunction : ∀ {hi}, 20 * hi + 7 ≤ n → Within 0 hi 1 (disjunction n)
  disjunctionRest : ∀ {hi} left, 20 * hi + 1 ≤ n → Within 0 hi 0 (disjunctionRest n left)
  conjunction : ∀ {hi}, 20 * hi + 6 ≤ n → Within 0 hi 1 (conjunction n)
  conjunctionRest : ∀ {hi} left, 20 * hi + 1 ≤ n → Within 0 hi 0 (conjunctionRest n left)
  binary : ∀ {hi} least, 20 * hi + 5 ≤ n → Within 0 hi 1 (binary n least)
  binaryRest : ∀ {hi} least left, 20 * hi + 1 ≤ n → Within 0 hi 0 (binaryRest n least left)
  unary : ∀ {hi}, 20 * hi + 4 ≤ n → Within 0 hi 1 (unary n)
  postfixed : ∀ {hi}, 20 * hi + 3 ≤ n → Within 0 hi 1 (postfixed n)
  access : ∀ {hi}, 20 * hi + 2 ≤ n → Within 0 hi 1 (access n)
  accessRest : ∀ {hi} e, 20 * hi + 1 ≤ n → Within 0 hi 0 (accessRest n e)
  arguments : ∀ {hi}, 20 * hi + 11 ≤ n → Within 0 hi 0 (arguments n)
  argumentList : ∀ {hi}, 20 * hi + 10 ≤ n → Within 0 hi 1 (argumentList n)
  primary : ∀ {hi}, 20 * hi + 1 ≤ n → Within 0 hi 1 (primary n)
  elements : ∀ {hi}, 20 * hi + 10 ≤ n → Within 0 hi 0 (elements n)
  properties : ∀ {hi}, 20 * hi + 1 ≤ n → Within 0 hi 0 (properties n)
  function : ∀ {hi} named place, 20 * hi + 1 ≤ n → Within 0 hi 1 (function n named place)
  block : ∀ {hi} what, 20 * hi + 13 ≤ n → Within 0 hi 1 (block n what)
  blockRest : ∀ {hi} what, 20 * hi + 12 ≤ n → Within 0 hi 1 (blockRest n what)
  declarators : ∀ {hi} kind, 20 * hi + 1 ≤ n → Within 0 hi 1 (declarators n kind)
  condition : ∀ {hi}, 20 * hi + 1 ≤ n → Within 0 hi 1 (condition n)
  statement : ∀ {hi}, 20 * hi + 11 ≤ n → Within 0 hi 1 (statement n)
  ifStatement : ∀ {hi} place, 20 * hi + 2 ≤ n → Within 0 hi 0 (ifStatement n place)
  doStatement : ∀ {hi} place, 20 * hi + 12 ≤ n → Within 0 hi 0 (doStatement n place)
  forInit : ∀ {hi}, 20 * hi + 11 ≤ n → Within 0 hi 0 (forInit n)
  optional : ∀ {hi} stop, 20 * hi + 11 ≤ n → Within 0 hi 0 (optional n stop)
  forStatement : ∀ {hi} place, 20 * hi + 1 ≤ n → Within 0 hi 0 (forStatement n place)
  returnStatement : ∀ {hi} place, 20 * hi + 11 ≤ n → Within 0 hi 0 (returnStatement n place)
  tryStatement : ∀ {hi} place, 20 * hi + 1 ≤ n → Within 0 hi 0 (tryStatement n place)
  catchClause : ∀ {hi}, 20 * hi + 1 ≤ n → Within 0 hi 0 (catchClause n)
  finallyClause : ∀ {hi}, 20 * hi + 1 ≤ n → Within 0 hi 0 (finallyClause n)

theorem parameters_within {n hi : Nat} (h : 20 * hi + 1 ≤ n) : Within 0 hi 1 (parameters n) := by
  induction n generalizing hi with
  | zero => omega
  | succ n ih =>
    refine (Within.expectName _).bind fun name _ => Within.eatMark_bind (fun _ => ?_) ?_
    · exact (ih (by omega)).bind fun _ _ => .pure _
    · exact .pure _

theorem update_within {lo hi : Nat} (op : UpdateOp) (before : Bool) (e : Expr)
    (place : Location) : Within lo hi 0 (update op before e place) := by
  unfold update
  split
  · exact .pure _
  · exact .failAt nofun

theorem loopJump_within {fault : ParseFault} (place : Location) (s : Stmt)
    (hfault : fault ≠ .exhausted) : Within 0 hi 0 (loopJump fault place s) :=
  Within.get_bind fun _ => .ite (.failAt_bind hfault) (Within.endStatement.bind fun _ _ => .pure _)

section Expressions

variable {n hi : Nat} (ih : Ample n)
include ih

theorem expression_within (h : 20 * hi + 10 ≤ n + 1) : Within 0 hi 1 (expression (n + 1)) := by
  refine (ih.assignment (by omega)).bind fun first _ => Within.atMark_bind fun b => .ite ?_ ?_
  · exact (ih.sequenceRest (by omega)).bind fun others _ => .pure _
  · exact .pure _

theorem sequenceRest_within (h : 20 * hi + 1 ≤ n + 1) :
    Within 0 hi 0 (sequenceRest (n + 1)) := by
  refine Within.eatMark_bind (fun _ => ?_) (.pure _)
  exact (ih.assignment (by omega)).bind fun e _ =>
    (ih.sequenceRest (by omega)).bind fun es _ => .pure _

theorem assignment_within (h : 20 * hi + 9 ≤ n + 1) : Within 0 hi 1 (assignment (n + 1)) := by
  refine (ih.conditional (by omega)).bind fun target _ => Within.peekAs_bind (fun op => ?_) (.pure _)
  refine Within.here_bind fun place => .ite (Within.skip_bind fun _ => ?_) (.failAt nofun)
  exact (ih.assignment (by omega)).bind fun value _ => .pure _

theorem conditional_within (h : 20 * hi + 8 ≤ n + 1) : Within 0 hi 1 (conditional (n + 1)) := by
  refine (ih.disjunction (by omega)).bind fun condition _ =>
    Within.eatMark_bind (fun _ => ?_) (.pure _)
  refine (ih.assignment (by omega)).bind fun yes _ => (Within.expectMark _ _).bind fun _ _ => ?_
  exact (ih.assignment (by omega)).bind fun no _ => .pure _

theorem disjunction_within (h : 20 * hi + 7 ≤ n + 1) : Within 0 hi 1 (disjunction (n + 1)) :=
  (ih.conjunction (by omega)).bind fun left _ => ih.disjunctionRest left (by omega)

theorem disjunctionRest_within (left : Expr) (h : 20 * hi + 1 ≤ n + 1) :
    Within 0 hi 0 (disjunctionRest (n + 1) left) := by
  refine Within.here_bind fun place => Within.eatMark_bind (fun _ => ?_) (.pure _)
  exact (ih.conjunction (by omega)).bind fun right _ => ih.disjunctionRest _ (by omega)

theorem conjunction_within (h : 20 * hi + 6 ≤ n + 1) : Within 0 hi 1 (conjunction (n + 1)) :=
  (ih.binary _ (by omega)).bind fun left _ => ih.conjunctionRest left (by omega)

theorem conjunctionRest_within (left : Expr) (h : 20 * hi + 1 ≤ n + 1) :
    Within 0 hi 0 (conjunctionRest (n + 1) left) := by
  refine Within.here_bind fun place => Within.eatMark_bind (fun _ => ?_) (.pure _)
  exact (ih.binary _ (by omega)).bind fun right _ => ih.conjunctionRest _ (by omega)

theorem binary_within (least : Nat) (h : 20 * hi + 5 ≤ n + 1) :
    Within 0 hi 1 (binary (n + 1) least) :=
  (ih.unary (by omega)).bind fun left _ => ih.binaryRest _ left (by omega)

theorem binaryRest_within (least : Nat) (left : Expr) (h : 20 * hi + 1 ≤ n + 1) :
    Within 0 hi 0 (binaryRest (n + 1) least left) := by
  refine Within.peekAs_bind (fun op => .ite (.pure _) ?_) (.pure _)
  refine Within.here_bind fun place => Within.skip_bind fun _ => ?_
  exact (ih.binary _ (by omega)).bind fun right _ => ih.binaryRest _ _ (by omega)

theorem unary_within (h : 20 * hi + 4 ≤ n + 1) : Within 0 hi 1 (unary (n + 1)) := by
  refine Within.here_bind fun place => Within.peekAs_bind (fun op => ?_) ?_
  · exact Within.skip_bind fun _ => (ih.unary (by omega)).bind fun operand _ => .pure _
  · refine Within.peekAs_bind (fun op => ?_) (ih.postfixed (by omega))
    exact Within.skip_bind fun _ =>
      (ih.unary (by omega)).bind fun target _ => update_within _ _ _ _

theorem postfixed_within (h : 20 * hi + 3 ≤ n + 1) : Within 0 hi 1 (postfixed (n + 1)) := by
  refine (ih.access (by omega)).bind fun e _ => Within.newlineBefore_bind fun b =>
    .ite (.pure _) ?_
  refine Within.peekAs_bind (fun op => ?_) (.pure _)
  exact Within.here_bind fun place => Within.skip_bind fun _ => update_within _ _ _ _

theorem access_within (h : 20 * hi + 2 ≤ n + 1) : Within 0 hi 1 (access (n + 1)) :=
  (ih.primary (by omega)).bind fun e _ => ih.accessRest e (by omega)

theorem accessRest_within (e : Expr) (h : 20 * hi + 1 ≤ n + 1) :
    Within 0 hi 0 (accessRest (n + 1) e) := by
  refine Within.here_bind fun place => Within.eatMark_bind (fun _ => ?_) ?_
  · exact (Within.expectName _).bind fun property _ => ih.accessRest _ (by omega)
  refine Within.eatMark_bind (fun _ => ?_) (Within.eatMark_bind (fun _ => ?_) (.pure _))
  · refine (ih.expression (by omega)).bind fun index _ => (Within.expectMark _ _).bind fun _ _ => ?_
    exact ih.accessRest _ (by omega)
  · exact (ih.arguments (by omega)).bind fun args _ => ih.accessRest _ (by omega)

theorem arguments_within (h : 20 * hi + 11 ≤ n + 1) : Within 0 hi 0 (arguments (n + 1)) := by
  refine Within.eatMark_bind (fun _ => .pure _) ?_
  exact (ih.argumentList (by omega)).bind fun args _ =>
    (Within.expectMark _ _).bind fun _ _ => .pure _

theorem argumentList_within (h : 20 * hi + 10 ≤ n + 1) :
    Within 0 hi 1 (argumentList (n + 1)) := by
  refine (ih.assignment (by omega)).bind fun e _ => Within.eatMark_bind (fun _ => ?_) (.pure _)
  exact (ih.argumentList (by omega)).bind fun es _ => .pure _

theorem elements_within (h : 20 * hi + 10 ≤ n + 1) : Within 0 hi 0 (elements (n + 1)) := by
  refine Within.atMark_bind fun b => .ite (.pure _) ?_
  refine (ih.assignment (by omega)).bind fun e _ => Within.eatMark_bind (fun _ => ?_) (.pure _)
  exact (ih.elements (by omega)).bind fun es _ => .pure _

theorem properties_within (h : 20 * hi + 1 ≤ n + 1) : Within 0 hi 0 (properties (n + 1)) := by
  refine Within.atMark_bind fun b => .ite (.pure _) ?_
  refine Within.peekAs_bind (fun key => Within.skip_bind fun _ => ?_) (.failHere nofun)
  refine (Within.expectMark _ _).bind fun _ _ => (ih.assignment (by omega)).bind fun e _ => ?_
  refine Within.eatMark_bind (fun _ => ?_) (.pure _)
  exact (ih.properties (by omega)).bind fun es _ => .pure _

theorem primary_within (h : 20 * hi + 1 ≤ n + 1) : Within 0 hi 1 (primary (n + 1)) := by
  refine Within.here_bind fun place => Within.peekAs_bind (fun e => ?_) ?_
  · exact Within.skip_bind fun _ => .pure _
  refine Within.peek_bind (fun k => ?_) (.failHere nofun)
  split
  · refine Within.skip_bind fun _ => (ih.expression (by omega)).bind fun e _ => ?_
    exact (Within.expectMark _ _).bind fun _ _ => .pure _
  · refine Within.skip_bind fun _ => (ih.elements (by omega)).bind fun es _ => ?_
    exact (Within.expectMark _ _).bind fun _ _ => .pure _
  · refine Within.skip_bind fun _ => (ih.properties (by omega)).bind fun es _ => ?_
    exact (Within.expectMark _ _).bind fun _ _ => .pure _
  · exact Within.skip_bind fun _ => (ih.function _ _ (by omega)).bind fun f _ => .pure _
  · exact .failHere nofun

end Expressions

section Statements

variable {n hi : Nat} (ih : Ample n)
include ih

theorem functionBody_within (place : Location) (name : Option String) (params : List String)
    (h : 20 * hi ≤ n + 20) : Within 0 hi 1 (functionBody n place name params) := by
  refine (Within.expectMark _ _).bind fun _ _ => (Within.expectMark _ _).bind fun _ _ => ?_
  exact (ih.block _ (by omega)).inFunction.bind fun r _ => .pure _

theorem functionRest_within (place : Location) (name : Option String) (h : 20 * hi ≤ n) :
    Within 0 hi 1 (functionRest n place name) := by
  refine (Within.expectMark _ _).bind fun _ _ => Within.atMark_bind fun b => .ite ?_ ?_
  · exact (functionBody_within ih _ _ _ (by omega)).weaken (by decide)
  · exact (parameters_within (by omega)).bind fun params _ =>
      (functionBody_within ih _ _ _ (by omega)).weaken (by decide)

theorem function_within (named : Bool) (place : Location) (h : 20 * hi + 1 ≤ n + 1) :
    Within 0 hi 1 (function (n + 1) named place) := by
  rw [function_succ]
  have unnamed : ∀ {lo}, Within lo hi 1 (if named = true then do
      let name ← failHere (.missing "name after function")
      functionRest n place name
    else functionRest n place none) := by
    refine .ite (.failHere_bind nofun) ?_
    exact (functionRest_within ih _ _ (by omega)).weaken (by decide)
  refine Within.peek_bind (fun k => ?_) unnamed
  split
  · exact Within.skip_bind fun _ => (functionRest_within ih _ _ (by omega)).weaken (by decide)
  · exact unnamed

theorem block_within (what : String) (h : 20 * hi + 13 ≤ n + 1) :
    Within 0 hi 1 (block (n + 1) what) :=
  (ih.blockRest _ (by omega)).bind fun body _ =>
    (Within.warnUnreachable body).bind fun _ _ => .pure _

theorem blockRest_within (what : String) (h : 20 * hi + 12 ≤ n + 1) :
    Within 0 hi 1 (blockRest (n + 1) what) := by
  refine Within.eatMark_bind (fun _ => .pure _) (Within.atEnd_bind fun b => .ite ?_ ?_)
  · exact .failHere nofun
  · refine (ih.statement (by omega)).bind fun s _ => ?_
    exact ((ih.blockRest _ (by omega)).bind fun ss _ => .pure _).weaken (k := 1) (by decide)

theorem declaratorsAfter_within (kind : DeclKind) (place : Location) (name : String)
    (init : Option Expr) (h : 20 * hi ≤ n) :
    Within 0 hi 0 (declaratorsAfter n place kind name init) := by
  refine Within.eatMark_bind (fun _ => ?_) (.pure _)
  exact (ih.declarators _ (by omega)).bind fun ds _ => .pure _

theorem declaratorsFrom_within (kind : DeclKind) (place : Location) (name : String)
    (init : Option Expr) (h : 20 * hi ≤ n) :
    Within 0 hi 0 (declaratorsFrom n place kind name init) := by
  refine .ite ?_ (declaratorsAfter_within ih _ _ _ _ h)
  exact (Within.declareVar _ _).bind fun _ _ => declaratorsAfter_within ih _ _ _ _ h

theorem declarators_within (kind : DeclKind) (h : 20 * hi + 1 ≤ n + 1) :
    Within 0 hi 1 (declarators (n + 1) kind) := by
  rw [declarators_succ]
  refine Within.here_bind fun place => (Within.expectName _).bind fun name _ => ?_
  refine Within.eatMark_bind (fun _ => ?_) ?_
  · exact (ih.assignment (by omega)).bind fun e _ =>
      (declaratorsFrom_within ih _ _ _ _ (by omega)).weaken (by decide)
  · change Within _ _ _ (if kind = .const then _ else _)
    exact .ite (.failHere_bind nofun) (declaratorsFrom_within ih _ _ _ _ (by omega))

theorem condition_within (h : 20 * hi + 1 ≤ n + 1) : Within 0 hi 1 (condition (n + 1)) := by
  refine (Within.expectMark _ _).bind fun _ _ => (ih.expression (by omega)).bind fun e _ => ?_
  exact (Within.warnCondition e).bind fun _ _ => (Within.expectMark _ _).bind fun _ _ => .pure _

theorem ifStatement_within (place : Location) (h : 20 * hi + 2 ≤ n + 1) :
    Within 0 hi 0 (ifStatement (n + 1) place) := by
  refine (ih.condition (by omega)).bind fun e _ => (ih.statement (by omega)).bind fun yes _ => ?_
  refine Within.eatKeyword_bind (fun _ => ?_) (.pure _)
  exact (ih.statement (by omega)).bind fun no _ => .pure _

theorem whileStatement_within (place : Location) (h : 20 * hi + 1 ≤ n) :
    Within 0 hi 0 (whileStatement n place) :=
  (ih.condition (by omega)).bind fun e _ => (ih.statement (by omega)).inLoop.bind fun body _ =>
    .pure _

theorem doRest_within (place : Location) (body : Stmt) (h : 20 * hi ≤ n) :
    Within 0 hi 0 (doRest n place body) := by
  refine Within.eatKeyword_bind (fun _ => ?_) (.failHere_bind nofun)
  refine (ih.condition (by omega)).bind fun e _ => ?_
  exact Within.eatMark_bind (fun _ => .pure _) (.pure _)

theorem doStatement_within (place : Location) (h : 20 * hi + 12 ≤ n + 1) :
    Within 0 hi 0 (doStatement (n + 1) place) :=
  (ih.statement (by omega)).inLoop.bind fun body _ => doRest_within ih _ _ (by omega)

theorem forInit_within (h : 20 * hi + 11 ≤ n + 1) : Within 0 hi 0 (forInit (n + 1)) := by
  refine Within.here_bind fun place => Within.peekAs_bind (fun kind => ?_) ?_
  · exact Within.skip_bind fun _ => (ih.declarators _ (by omega)).bind fun ds _ => .pure _
  · refine Within.atMark_bind fun b => .ite (.pure _) ?_
    exact (ih.expression (by omega)).bind fun e _ => .pure _

theorem optional_within (stop : Mark) (h : 20 * hi + 11 ≤ n + 1) :
    Within 0 hi 0 (optional (n + 1) stop) := by
  refine Within.atMark_bind fun b => .ite (.pure _) ?_
  exact (ih.expression (by omega)).bind fun e _ => .pure _

theorem forStatement_within (place : Location) (h : 20 * hi + 1 ≤ n + 1) :
    Within 0 hi 0 (forStatement (n + 1) place) := by
  refine (Within.expectMark _ _).bind fun _ _ => (ih.forInit (by omega)).bind fun init _ => ?_
  refine (Within.expectMark _ _).bind fun _ _ => (ih.optional _ (by omega)).bind fun test _ => ?_
  refine (Within.expectMark _ _).bind fun _ _ => (ih.optional _ (by omega)).bind fun step _ => ?_
  refine (Within.expectMark _ _).bind fun _ _ => ?_
  exact (ih.statement (by omega)).inLoop.bind fun body _ => .pure _

theorem returnStatement_within (place : Location) (h : 20 * hi + 11 ≤ n + 1) :
    Within 0 hi 0 (returnStatement (n + 1) place) := by
  refine Within.get_bind fun s => .ite (.failAt_bind nofun) ?_
  refine Within.newlineBefore_bind fun _ => Within.atEnd_bind fun _ => ?_
  refine Within.atMark_bind fun _ => Within.atMark_bind fun _ => .ite ?_ ?_
  · exact Within.endStatement.bind fun _ _ => .pure _
  · exact (ih.expression (by omega)).bind fun e _ => Within.endStatement.bind fun _ _ => .pure _

theorem throwStatement_within (place : Location) (h : 20 * hi + 10 ≤ n) :
    Within 0 hi 0 (throwStatement n place) := by
  refine Within.newlineBefore_bind fun _ => .ite (.failHere_bind nofun) ?_
  exact (ih.expression (by omega)).bind fun e _ => Within.endStatement.bind fun _ _ => .pure _

theorem tryStatement_within (place : Location) (h : 20 * hi + 1 ≤ n + 1) :
    Within 0 hi 0 (tryStatement (n + 1) place) := by
  refine (Within.expectMark _ _).bind fun _ _ => (ih.block _ (by omega)).bind fun body _ => ?_
  refine (ih.catchClause (by omega)).bind fun handler _ => ?_
  refine (ih.finallyClause (by omega)).bind fun finalizer _ => ?_
  exact .ite (.failHere_bind nofun) (.pure _)

theorem catchClause_within (h : 20 * hi + 1 ≤ n + 1) : Within 0 hi 0 (catchClause (n + 1)) := by
  refine Within.eatKeyword_bind (fun _ => ?_) (.pure _)
  refine (Within.expectMark _ _).bind fun _ _ => (Within.expectName _).bind fun param _ => ?_
  refine (Within.expectMark _ _).bind fun _ _ => (Within.expectMark _ _).bind fun _ _ => ?_
  exact (ih.block _ (by omega)).bind fun body _ => .pure _

theorem finallyClause_within (h : 20 * hi + 1 ≤ n + 1) :
    Within 0 hi 0 (finallyClause (n + 1)) := by
  refine Within.eatKeyword_bind (fun _ => ?_) (.pure _)
  refine (Within.expectMark _ _).bind fun _ _ => ?_
  exact (ih.block _ (by omega)).bind fun body _ => .pure _

theorem statementAt_within (place : Location) (k : TokenKind) (h : 20 * hi + 11 ≤ n + 1) :
    Within 1 hi 1 (statementAt n place k) := by
  unfold statementAt
  split
  case h_1 => exact Within.skip_bind fun _ => (ih.function _ _ (by omega)).bind fun f _ => .pure _
  case h_2 => exact Within.skip_bind fun _ => ih.ifStatement _ (by omega)
  case h_3 => exact Within.skip_bind fun _ => whileStatement_within ih _ (by omega)
  case h_4 => exact Within.skip_bind fun _ => ih.doStatement _ (by omega)
  case h_5 => exact Within.skip_bind fun _ => ih.forStatement _ (by omega)
  case h_6 => exact Within.skip_bind fun _ => ih.returnStatement _ (by omega)
  case h_7 => exact Within.skip_bind fun _ => loopJump_within _ _ nofun
  case h_8 => exact Within.skip_bind fun _ => loopJump_within _ _ nofun
  case h_9 => exact Within.skip_bind fun _ => throwStatement_within ih _ (by omega)
  case h_10 => exact Within.skip_bind fun _ => ih.tryStatement _ (by omega)
  case h_11 => exact Within.skip_bind fun _ => (ih.block _ (by omega)).bind fun body _ => .pure _
  case h_12 => exact Within.skip_bind fun _ => .pure _
  case h_13 =>
    exact ((ih.expression (by omega)).bind fun e _ =>
      Within.endStatement.bind fun _ _ => .pure _).weaken (k := 1) (by decide)

theorem statement_within (h : 20 * hi + 11 ≤ n + 1) : Within 0 hi 1 (statement (n + 1)) := by
  rw [statement_succ]
  refine Within.here_bind fun place => Within.peekAs_bind (fun kind => ?_) ?_
  · refine Within.skip_bind fun _ => (ih.declarators _ (by omega)).bind fun ds _ => ?_
    exact Within.endStatement.bind fun _ _ => .pure _
  · refine Within.peek_bind (fun k => statementAt_within ih place k h) ?_
    exact (ih.expression (by omega)).bind fun e _ => Within.endStatement.bind fun _ _ => .pure _

end Statements

theorem ample (n : Nat) : Ample n := by
  -- On the depth. Fewer than twenty calls lie between two tokens, which is what the bounds count.
  induction n with
  | zero => constructor <;> intros <;> omega
  | succ n ih =>
    exact {
      expression := expression_within ih
      sequenceRest := sequenceRest_within ih
      assignment := assignment_within ih
      conditional := conditional_within ih
      disjunction := disjunction_within ih
      disjunctionRest := disjunctionRest_within ih
      conjunction := conjunction_within ih
      conjunctionRest := conjunctionRest_within ih
      binary := binary_within ih
      binaryRest := binaryRest_within ih
      unary := unary_within ih
      postfixed := postfixed_within ih
      access := access_within ih
      accessRest := accessRest_within ih
      arguments := arguments_within ih
      argumentList := argumentList_within ih
      primary := primary_within ih
      elements := elements_within ih
      properties := properties_within ih
      function := function_within ih
      block := block_within ih
      blockRest := blockRest_within ih
      declarators := declarators_within ih
      condition := condition_within ih
      statement := statement_within ih
      ifStatement := ifStatement_within ih
      doStatement := doStatement_within ih
      forInit := forInit_within ih
      optional := optional_within ih
      forStatement := forStatement_within ih
      returnStatement := returnStatement_within ih
      tryStatement := tryStatement_within ih
      catchClause := catchClause_within ih
      finallyClause := finallyClause_within ih }

theorem statements_within {n hi : Nat} (h : 20 * hi + 12 ≤ n) : Within 0 hi 0 (statements n) := by
  induction n generalizing hi with
  | zero => omega
  | succ n ih =>
    refine Within.atEnd_bind fun b => .ite (.pure _) ?_
    exact ((ample n).statement (by omega)).bind fun s _ => (ih (by omega)).bind fun ss _ => .pure _

theorem statements_depthFor (c : Context) (s : State) :
    Run (statements (depthFor s.rest.length)) c s (fun _ _ => True)
      fun e _ => e.fault ≠ .exhausted := by
  have hfits : 20 * s.rest.length + 12 ≤ depthFor s.rest.length := by
    unfold depthFor
    omega
  have h := statements_within hfits c s (Nat.zero_le _) (Nat.le_refl _)
  exact h.imp (fun _ _ _ => trivial) fun _ _ he => he

end ScriptShell.Parser
