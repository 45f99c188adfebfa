import ScriptShell.Proofs.Parser.Extension

namespace ScriptShell.Parser

variable {α β : Type}

abbrev Row := List (Mark × BinaryOp)

def Row.operator? (row : Row) (m : Mark) : Option BinaryOp :=
  row.lookup m

/-- The levels of binary operators, loosest first. -/
def precedence : List Row :=
  [[(.pipe, .bitOr)],
    [(.caret, .bitXor)],
    [(.amp, .bitAnd)],
    [(.eqEq, .eq), (.notEq, .ne), (.eqEqEq, .strictEq), (.notEqEq, .strictNe)],
    [(.lt, .lt), (.le, .le), (.gt, .gt), (.ge, .ge)],
    [(.shiftLeft, .shiftLeft), (.shiftRight, .shiftRight), (.shiftRightZero, .shiftRightZero)],
    [(.plus, .add), (.minus, .sub)],
    [(.star, .mul), (.slash, .div), (.percent, .mod)]]

/-- An operator, where it stands, and the operand behind it. -/
structure Link where
  op : BinaryOp
  operand : Expr
  place : Location

/-- The operators of a level that follow, each with an operand behind it. There are no more of
them than tokens. -/
def links (row : Row) (operand : Parser Expr) : Nat → Parser (List Link)
  | 0 => return []
  | n + 1 => do
    match ← peekAs (markAs row.operator?) with
    | none => return []
    | some op =>
      let place ← here
      skip
      let e ← operand
      let others ← links row operand n
      return ⟨op, e, place⟩ :: others

def join (first : Expr) (links : List Link) : Expr :=
  links.foldl (fun left link => .binary link.op left link.operand link.place) first

/-- The grammar of the given levels. An expression of the loosest of them is one or more
expressions of the next one joined by its operators; behind the last level come operands. -/
def level (operand : Parser Expr) : List Row → Parser Expr
  | [] => operand
  | row :: rows => do
    let first ← level operand rows
    let others ← links row (level operand rows) (← get).rest.length
    return join first others

def Clear (rows : List Row) (s : State) : Prop :=
  ∀ row ∈ rows, s.next.bind (markAs row.operator?) = none

theorem bind_congr_run {x y : Parser α} {g g' : α → Parser β} {c : Context} {s s' : State}
    (hx : x c s = y c s') (hg : ∀ a t, x c s = .ok a t → g a c t = g' a c t) :
    (x >>= g) c s = (y >>= g') c s' := by
  cases h : x c s with
  | ok a t => rw [bind_ok h, bind_ok (hx ▸ h), hg a t h]
  | error e t => rw [bind_error h, bind_error (hx ▸ h)]

theorem Run.and {x : Parser α} {c : Context} {s : State} {P Q : α → State → Prop}
    {E F : ParseError → State → Prop} (h : Run x c s P E) (h' : Run x c s Q F) :
    Run x c s (fun a t => P a t ∧ Q a t) fun e t => E e t ∧ F e t := by
  unfold Run at *
  cases hx : x c s <;> simp_all

section Table

theorem binaryOp?_eq_some {m : Mark} {l : Nat} {op : BinaryOp} (h : binaryOp? m = some (l, op)) :
    ∃ row, precedence.drop (l - 1) = row :: precedence.drop l ∧ row.operator? m = some op ∧
      ∀ row ∈ precedence.drop l, row.operator? m = none := by
  cases m <;> cases h <;> exact ⟨_, rfl, rfl, by decide⟩

theorem binaryOp?_eq_none {m : Mark} (h : binaryOp? m = none) :
    ∀ row ∈ precedence, row.operator? m = none := by
  cases m <;> cases h <;> decide

variable {s : State}

theorem clear_of_none (h : s.next.bind (markAs binaryOp?) = none) : Clear precedence s := by
  intro row hrow
  cases hnext : s.next with
  | none => rfl
  | some k =>
    rw [hnext] at h
    cases k with
    | mark m => exact binaryOp?_eq_none h row hrow
    | _ => rfl

theorem exists_row {l : Nat} {op : BinaryOp} (h : s.next.bind (markAs binaryOp?) = some (l, op)) :
    ∃ row, precedence.drop (l - 1) = row :: precedence.drop l ∧
      s.next.bind (markAs row.operator?) = some op ∧ Clear (precedence.drop l) s := by
  obtain ⟨k, hk, hmark⟩ := Option.bind_eq_some_iff.mp h
  rw [hk]
  cases k with
  | mark m =>
    obtain ⟨row, hrow, hop, hclear⟩ := binaryOp?_eq_some hmark
    refine ⟨row, hrow, hop, fun row' hrow' => ?_⟩
    rw [hk]
    exact hclear row' hrow'
  | _ => cases hmark

end Table

section Grammar

variable {row : Row} {rows : List Row} {operand : Parser Expr} {hi n : Nat} {c : Context}
  {s : State}

theorem clear_cons : Clear (row :: rows) s ↔
    s.next.bind (markAs row.operator?) = none ∧ Clear rows s :=
  List.forall_mem_cons

theorem links_of_none (h : s.next.bind (markAs row.operator?) = none) :
    links row operand n c s = .ok [] s := by
  cases n with
  | zero => rfl
  | succ n =>
    rw [links, bind_ok (peekAs_eq c s _), h]
    rfl

theorem links_of_some {op : BinaryOp} (h : s.next.bind (markAs row.operator?) = some op) :
    links row operand (n + 1) c s =
      (do
        let e ← operand
        let others ← links row operand n
        return ⟨op, e, s.here c⟩ :: others : Parser (List Link)) c s.skip := by
  rw [links, bind_ok (peekAs_eq c s _), h]
  rfl

theorem length_pos_of_bind {reading : TokenKind → Option α} {a : α}
    (h : s.next.bind reading = some a) : 1 ≤ s.rest.length := by
  obtain ⟨k, hk, -⟩ := Option.bind_eq_some_iff.mp h
  exact Within.length_of_next hk

theorem Within.fewer {x : Parser α} {lo hi' k : Nat} (h : Within lo hi k x) (hle : hi' ≤ hi) :
    Within lo hi' k x :=
  fun c s hlo hhi => h c s hlo (Nat.le_trans hhi hle)

theorem links_within (h : Within 0 hi 1 operand) : Within 0 hi 0 (links row operand n) := by
  induction n generalizing hi with
  | zero => exact .pure _
  | succ n ih =>
    refine Within.peekAs_bind (fun op => ?_) (.pure _)
    apply Within.here_bind
    intro place
    refine Within.skip_bind fun _ => (h.fewer (by omega)).bind fun e _ => ?_
    exact (ih (h.fewer (by omega))).bind fun others _ => .pure _

theorem level_within (h : Within 0 hi 1 operand) : Within 0 hi 1 (level operand rows) := by
  induction rows with
  | nil => exact h
  | cons row rows ih =>
    apply ih.bind
    intro first _
    apply Within.get_bind
    intro s
    exact (links_within (ih.fewer (by omega))).bind fun others _ => .pure _

/-- More links than there are tokens are never asked for. -/
theorem links_enough (h : Within 0 hi 1 operand) {n' : Nat} (hs : s.rest.length ≤ hi)
    (hn : s.rest.length ≤ n) (hn' : s.rest.length ≤ n') :
    links row operand n c s = links row operand n' c s := by
  induction n generalizing n' s with
  | zero =>
    have hnext : s.next = none := AtEnd.next_eq_none (List.length_eq_zero_iff.mp (by omega))
    rw [links_of_none (by simp [hnext]), links_of_none (by simp [hnext])]
  | succ n ih =>
    cases hop : s.next.bind (markAs row.operator?) with
    | none => rw [links_of_none hop, links_of_none hop]
    | some op =>
      have hpos := length_pos_of_bind hop
      have hskip := Within.length_skip hpos
      obtain ⟨m, rfl⟩ : ∃ m, n' = m + 1 := ⟨n' - 1, by omega⟩
      rw [links_of_some hop, links_of_some hop]
      apply bind_congr_run rfl
      intro e t ht
      have htaken := (Run.iff_ok ht).mp (h c s.skip (Nat.zero_le _) (by omega))
      exact bind_congr_run (ih (by omega) (by omega) (by omega)) fun _ _ _ => rfl

theorem links_clear (h : Within 0 hi 1 operand)
    (hclear : ∀ s, s.rest.length ≤ hi → Run operand c s (fun _ t => Clear rows t) fun _ _ => True)
    (hs : s.rest.length ≤ hi) (hn : s.rest.length ≤ n) (hrows : Clear rows s) :
    Run (links row operand n) c s (fun _ t => Clear (row :: rows) t) fun _ _ => True := by
  induction n generalizing s with
  | zero =>
    have hnext : s.next = none := AtEnd.next_eq_none (List.length_eq_zero_iff.mp (by omega))
    exact clear_cons.mpr ⟨by simp [hnext], hrows⟩
  | succ n ih =>
    cases hop : s.next.bind (markAs row.operator?) with
    | none => exact (Run.iff_ok (links_of_none hop)).mpr (clear_cons.mpr ⟨hop, hrows⟩)
    | some op =>
      have hskip := Within.length_skip (length_pos_of_bind hop)
      have hlength : s.skip.rest.length ≤ hi := by omega
      unfold Run
      rw [links_of_some hop]
      apply Run.bind_iff.mpr
      apply ((h c s.skip (Nat.zero_le _) hlength).and (hclear s.skip hlength)).imp
      · intro e t ⟨htaken, ht⟩
        apply Run.bind_iff.mpr
        exact ih (by omega) (by omega) ht
      · exact fun _ _ _ => trivial

theorem level_clear (h : Within 0 hi 1 operand) (hs : s.rest.length ≤ hi) :
    Run (level operand rows) c s (fun _ t => Clear rows t) fun _ _ => True := by
  induction rows generalizing s with
  | nil => exact Run.of_forall (fun _ _ => nofun) fun _ _ => trivial
  | cons row rows ih =>
    apply Run.bind_iff.mpr
    apply ((level_within h c s (Nat.zero_le _) hs).and (ih hs)).imp
    · intro first t ⟨htaken, ht⟩
      apply Run.bind_iff.mpr
      apply (Run.iff_ok (get_eq c t)).mpr
      apply Run.bind_iff.mpr
      exact links_clear (level_within h) (fun _ => ih) (by omega) (Nat.le_refl _) ht
    · exact fun _ _ _ => trivial

/-- The grammar of the given levels behind the first operand. -/
def resume (operand : Parser Expr) : List Row → Expr → Parser Expr
  | [], left => return left
  | row :: rows, left => do
    let first ← resume operand rows left
    let others ← links row (level operand rows) (← get).rest.length
    return join first others

theorem level_eq_resume (rows : List Row) :
    level operand rows = operand >>= resume operand rows := by
  induction rows with
  | nil => exact (bind_pure operand).symm
  | cons row rows ih => simp only [level, resume, ih, bind_assoc]

theorem resume_clear {left : Expr} (h : Clear rows s) :
    resume operand rows left c s = .ok left s := by
  induction rows with
  | nil => rfl
  | cons row rows ih =>
    obtain ⟨hrow, hrows⟩ := clear_cons.mp h
    rw [resume, bind_ok (ih hrows), bind_ok (get_eq c s), bind_ok (links_of_none hrow)]
    rfl

/-- Where an operator is next, its right operand is an expression of the levels that are tighter,
and all levels go on behind it. -/
theorem resume_operator (h : Within 0 hi 1 operand) (hs : s.rest.length ≤ hi) {op : BinaryOp}
    (hop : s.next.bind (markAs row.operator?) = some op) (hclear : Clear rows s)
    (looser : List Row) (left : Expr) :
    resume operand (looser ++ row :: rows) left c s =
      (do
        let right ← level operand rows
        resume operand (looser ++ row :: rows) (.binary op left right (s.here c))) c s.skip := by
  have hskip := Within.length_skip (length_pos_of_bind hop)
  induction looser with
  | nil =>
    have hlength : s.rest.length = s.skip.rest.length + 1 := by omega
    rw [List.nil_append, resume, bind_ok (resume_clear hclear), bind_ok (get_eq c s), hlength]
    rw [bind_congr_run (links_of_some hop) fun _ _ _ => rfl]
    simp only [bind_assoc, pure_bind]
    apply bind_congr_run rfl
    intro right t ht
    have hshort : s.skip.rest.length ≤ hi := by omega
    have htaken := (Run.iff_ok ht).mp (level_within h c s.skip (Nat.zero_le _) hshort)
    have hstop := (Run.iff_ok ht).mp (level_clear h hshort)
    rw [resume, bind_ok (resume_clear hstop), bind_ok (get_eq c t)]
    apply bind_congr_run (links_enough (level_within h) (by omega) (by omega) (Nat.le_refl _))
    exact fun _ _ _ => rfl
  | cons row' looser ih =>
    simp only [List.cons_append, resume]
    rw [bind_congr_run ih fun _ _ _ => rfl, bind_assoc]

end Grammar

section Climbing

variable {c : Context} {s : State} {n m hi : Nat}

theorem unary_eq (hn : 20 * s.rest.length + 4 ≤ n) (hm : 20 * s.rest.length + 4 ≤ m) :
    unary n c s = unary m c s := by
  have grow {n m : Nat} (hn : 20 * s.rest.length + 4 ≤ n) (hle : n ≤ m) :
      unary n c s = unary m c s := by
    have hfits := (ample n).unary hn c s (Nat.zero_le _) (Nat.le_refl _)
    have hmore := (steady hle).unary.settled c s (Nat.zero_le _)
    cases hrun : unary n c s with
    | ok e t => exact ((Run.iff_ok hrun).mp hmore).2.1.symm
    | error e t =>
      have hfault := (Run.iff_error hrun).mp hfits
      exact (((Run.iff_error hrun).mp hmore).resolve_left hfault).1.symm
  rcases Nat.le_total n m with hle | hle
  · exact grow hn hle
  · exact (grow hm hle).symm

theorem binary_eq_of_rest {least : Nat} (hn : 20 * s.rest.length + 5 ≤ n)
    (hm : 20 * s.rest.length + 4 ≤ m)
    (hrest : ∀ t n left, t.rest.length < s.rest.length → 20 * t.rest.length + 1 ≤ n →
      binaryRest n least left c t =
        resume (unary m) (precedence.drop (least - 1)) left c t) :
    binary n least c s = level (unary m) (precedence.drop (least - 1)) c s := by
  obtain ⟨n, rfl⟩ : ∃ k, n = k + 1 := ⟨n - 1, by omega⟩
  rw [level_eq_resume]
  have hoperand : unary n c s = unary m c s := unary_eq (by omega) hm
  apply bind_congr_run hoperand
  intro left t ht
  have htaken := (Run.iff_ok ht).mp
    ((ample n).unary (by omega) c s (Nat.zero_le _) (Nat.le_refl _))
  exact hrest t n left (by omega) (by omega)

theorem binaryRest_eq (hm : 20 * hi + 4 ≤ m) (hs : s.rest.length ≤ hi) {least : Nat}
    (hleast : 1 ≤ least) (left : Expr) (hn : 20 * s.rest.length + 1 ≤ n) :
    binaryRest n least left c s = resume (unary m) (precedence.drop (least - 1)) left c s := by
  -- By the number of tokens left. An operator and its right side are taken, and both recursive
  -- calls have fewer.
  induction hlength : s.rest.length using Nat.strongRecOn generalizing s least left n with
  | ind length ih =>
    obtain ⟨n, rfl⟩ : ∃ k, n = k + 1 := ⟨n - 1, by omega⟩
    rw [binaryRest, bind_ok (peekAs_eq c s _)]
    cases hop : s.next.bind (markAs binaryOp?) with
    | none =>
      have hclear : Clear (precedence.drop (least - 1)) s := fun row hrow =>
        clear_of_none hop row (List.mem_of_mem_drop hrow)
      rw [resume_clear hclear]
      rfl
    | some found =>
      obtain ⟨l, op⟩ := found
      obtain ⟨row, hrow, hnext, hclear⟩ := exists_row hop
      -- An operator of a weaker level is left to a caller, and no row of this level takes it
      -- either.
      by_cases hl : l < least
      · have hsuffix : precedence.drop (least - 1) = (precedence.drop l).drop (least - 1 - l) := by
          rw [List.drop_drop]
          congr 1
          omega
        rw [resume_clear fun row hrow => hclear row (List.mem_of_mem_drop (hsuffix ▸ hrow))]
        simp only [hl, if_true]
        rfl
      · have hlevels : precedence.drop (least - 1) =
            (precedence.drop (least - 1)).take (l - least) ++ row :: precedence.drop l := by
          have htight : (precedence.drop (least - 1)).drop (l - least) =
              row :: precedence.drop l := by
            rw [List.drop_drop, show least - 1 + (l - least) = l - 1 by omega, hrow]
          rw [← htight, List.take_append_drop]
        have hskip := Within.length_skip (length_pos_of_bind hop)
        have hunary := (ample m).unary hm
        rw [hlevels, resume_operator hunary hs hnext hclear, ← hlevels]
        simp only [hl, if_false]
        rw [bind_ok (here_eq c s), bind_ok (skip_eq c s)]
        have hright : binary n (l + 1) c s.skip = level (unary m) (precedence.drop l) c s.skip :=
          binary_eq_of_rest (by omega) (by omega) fun t k left ht hk =>
            ih t.rest.length (by omega) (by omega) (by omega) left hk rfl
        apply bind_congr_run hright
        intro right t ht
        have htaken := (Run.iff_ok (hright ▸ ht)).mp
          (level_within hunary c s.skip (Nat.zero_le _) (by omega))
        exact ih t.rest.length (by omega) (by omega) hleast _ (by omega) rfl

/-- From any state the loop reads the same expression as the grammar with its eight levels, ends in
the same state and fails in the same way, and it has no failure of its own. -/
theorem binary_eq_level (c : Context) (s : State) (hn : 20 * s.rest.length + 5 ≤ n)
    (hm : 20 * s.rest.length + 4 ≤ m) :
    binary n 1 c s = level (unary m) precedence c s ∧
      ∀ e t, binary n 1 c s = .error e t → e.fault ≠ .exhausted := by
  constructor
  · apply binary_eq_of_rest hn hm
    intro t k left ht hk
    exact binaryRest_eq hm (Nat.le_of_lt ht) (Nat.le_refl 1) left hk
  · intro e t he
    exact (Run.iff_error he).mp ((ample n).binary 1 hn c s (Nat.zero_le _) (Nat.le_refl _))

def column (n : Nat) : Location :=
  ⟨1, n, n - 1⟩

def chain : State :=
  let token (kind : TokenKind) (n : Nat) : Token := ⟨kind, column n, false⟩
  ⟨[token (.name "a") 1, token (.mark .pipe) 3, token (.name "b") 5, token (.mark .plus) 7,
    token (.name "c") 9, token (.mark .star) 11, token (.name "d") 13, token (.mark .lt) 15,
    token (.name "e") 17], [], [[]], 0, 0⟩

theorem binary_eq_level_chain :
    binary 185 1 ⟨column 18, false, false⟩ chain =
        level (unary 184) precedence ⟨column 18, false, false⟩ chain ∧
      level (unary 184) precedence ⟨column 18, false, false⟩ chain =
        .ok (.binary .bitOr (.name "a" (column 1))
          (.binary .lt
            (.binary .add (.name "b" (column 5))
              (.binary .mul (.name "c" (column 9)) (.name "d" (column 13)) (column 11))
              (column 7))
            (.name "e" (column 17)) (column 15)) (column 3)) { chain with rest := [] } :=
  ⟨(binary_eq_level _ chain (by decide) (by decide)).1, rfl⟩

end Climbing

end ScriptShell.Parser
