import Mathlib.Data.List.Induction
import Mathlib.Data.Nat.Bitwise
import ScriptShell.Session

namespace ScriptShell

namespace Guard

/-- What can happen to a guard. -/
inductive Turn where
  /-- A round of a loop is counted. -/
  | tick
  | limit (n : UInt32)

def turn (g : Guard) : Turn → Guard
  | .tick => g.tick.2
  | .limit n => g.setBranchLimit n

/-- A guard after some turns. -/
def after (g : Guard) (turns : List Turn) : Guard :=
  turns.foldl turn g

/-- The outcomes of the rounds that are counted in some turns. -/
def outcomes (g : Guard) : List Turn → List Tick
  | [] => []
  | .tick :: turns => g.tick.1 :: outcomes g.tick.2 turns
  | .limit n :: turns => outcomes (g.setBranchLimit n) turns

def ticked (g : Guard) (n : Nat) : Guard :=
  g.after (.replicate n .tick)

/-- The limit that was set last, if any was. -/
def lastLimit : List Turn → Option UInt32
  | [] => none
  | .tick :: turns => lastLimit turns
  | .limit n :: turns => some ((lastLimit turns).getD n)

/-- How many rounds were counted since one of them reached the limit. -/
def roundsSince (outcomes : List Tick) : Nat :=
  (outcomes.reverse.takeWhile (· ≠ .limitReached)).length

def AtLimit (g : Guard) : Prop :=
  g.branchLimit ≠ 0 ∧ g.branchLimit ≤ g.branchCount + 1

def AsksCollection (count : UInt32) : Prop :=
  ∀ i < 14, count.toNat.testBit i = true

section Tick

variable {g : Guard}

theorem tick_of_atLimit (h : g.AtLimit) : g.tick = (.limitReached, { g with branchCount := 0 }) :=
  if_pos h

theorem tick_of_not_atLimit (h : ¬ g.AtLimit) :
    g.tick =
      (if (g.branchCount + 1) &&& collectMask = collectMask then .collect else .continue_,
        { g with branchCount := g.branchCount + 1 }) :=
  if_neg h

theorem tick_eq_limitReached_iff : g.tick.1 = .limitReached ↔ g.AtLimit := by
  by_cases h : g.AtLimit
  · simp [tick_of_atLimit h, h]
  · rw [tick_of_not_atLimit h]
    dsimp only
    split <;> simp [h]

theorem branchCount_tick :
    g.tick.2.branchCount = if g.tick.1 = .limitReached then 0 else g.branchCount + 1 := by
  by_cases h : g.AtLimit
  · rw [if_pos (tick_eq_limitReached_iff.mpr h), tick_of_atLimit h]
  · rw [if_neg (mt tick_eq_limitReached_iff.mp h), tick_of_not_atLimit h]

@[simp] theorem branchLimit_tick : g.tick.2.branchLimit = g.branchLimit := by
  by_cases h : g.AtLimit
  · rw [tick_of_atLimit h]
  · rw [tick_of_not_atLimit h]

theorem asksCollection_iff (count : UInt32) :
    count &&& collectMask = collectMask ↔ AsksCollection count := by
  have hmask : collectMask.toNat = 2 ^ 14 - 1 := rfl
  rw [← UInt32.toNat_inj, UInt32.toNat_and, hmask]
  constructor
  · intro h i hi
    have hbit := congrArg (Nat.testBit · i) h
    simp only [Nat.testBit_and, Nat.testBit_two_pow_sub_one] at hbit
    simpa [hi] using hbit
  · intro h
    refine Nat.eq_of_testBit_eq fun i => ?_
    rw [Nat.testBit_and, Nat.testBit_two_pow_sub_one]
    by_cases hi : i < 14
    · simp [hi, h i hi]
    · simp [hi]

theorem tick_eq_collect_iff :
    g.tick.1 = .collect ↔ AsksCollection g.tick.2.branchCount ∧ g.tick.1 ≠ .limitReached := by
  by_cases h : g.AtLimit
  · simp [tick_of_atLimit h]
  · rw [tick_of_not_atLimit h]
    dsimp only
    rw [← asksCollection_iff]
    split <;> simp [*]

end Tick

section Turns

variable {g : Guard} {turns : List Turn}

theorem after_append (g : Guard) (front back : List Turn) :
    g.after (front ++ back) = (g.after front).after back :=
  List.foldl_append

theorem ticked_succ (g : Guard) (n : Nat) : g.ticked (n + 1) = (g.ticked n).tick.2 := by
  rw [ticked, List.replicate_succ', after_append]
  rfl

theorem branchLimit_ticked (g : Guard) (n : Nat) : (g.ticked n).branchLimit = g.branchLimit := by
  induction n with
  | zero => rfl
  | succ n ih => rw [ticked_succ, branchLimit_tick, ih]

theorem outcomes_append (g : Guard) (front back : List Turn) :
    g.outcomes (front ++ back) = g.outcomes front ++ (g.after front).outcomes back := by
  induction front generalizing g with
  | nil => rfl
  | cons t front ih =>
    cases t with
    | tick => exact congrArg (g.tick.1 :: ·) (ih g.tick.2)
    | limit n => exact ih (g.setBranchLimit n)

theorem branchLimit_after (g : Guard) (turns : List Turn) :
    (g.after turns).branchLimit = (lastLimit turns).getD g.branchLimit := by
  induction turns generalizing g with
  | nil => rfl
  | cons t turns ih =>
    cases t with
    | tick => exact (ih g.tick.2).trans (by rw [branchLimit_tick]; rfl)
    | limit n => exact ih (g.setBranchLimit n)

theorem roundsSince_append_singleton (outcomes : List Tick) (o : Tick) :
    roundsSince (outcomes ++ [o]) = if o = .limitReached then 0 else roundsSince outcomes + 1 := by
  unfold roundsSince
  rw [List.reverse_append, List.reverse_singleton, List.singleton_append, List.takeWhile_cons]
  by_cases ho : o = .limitReached <;> simp [ho]

/-- The count is that of the rounds since the limit was reached, modulo `2 ^ 32`. -/
theorem branchCount_after (base : Nat) (turns : List Turn) :
    ((new base).after turns).branchCount.toNat =
      roundsSince ((new base).outcomes turns) % 2 ^ 32 := by
  induction turns using List.reverseRecOn with
  | nil => rfl
  | append_singleton turns t ih =>
    rw [after_append, outcomes_append]
    generalize (new base).after turns = g at ih ⊢
    cases t with
    | tick =>
      have hturn : g.after [.tick] = g.tick.2 := rfl
      have houtcome : g.outcomes [.tick] = [g.tick.1] := rfl
      rw [hturn, houtcome, branchCount_tick, roundsSince_append_singleton]
      split
      · rfl
      · rw [UInt32.toNat_add, ih]
        exact Nat.mod_add_mod _ _ _
    | limit n =>
      have houtcome : g.outcomes [.limit n] = [] := rfl
      rw [houtcome, List.append_nil]
      exact ih

end Turns

section Limit

variable {g : Guard}

theorem toNat_add_one {count : UInt32} (h : count.toNat ≠ 2 ^ 32 - 1) :
    (count + 1).toNat = count.toNat + 1 := by
  have hlt := count.toNat_lt
  have hone : (1 : UInt32).toNat = 1 := rfl
  rw [UInt32.toNat_add, hone]
  exact Nat.mod_eq_of_lt (by omega)

theorem add_one_of_max {count : UInt32} (h : count.toNat = 2 ^ 32 - 1) : count + 1 = 0 := by
  rw [← UInt32.toNat_inj, UInt32.toNat_add, h]
  rfl

theorem atLimit_iff (h : g.branchCount < g.branchLimit) :
    g.AtLimit ↔ g.branchCount.toNat + 1 = g.branchLimit.toNat := by
  have hlt := UInt32.lt_iff_toNat_lt.mp h
  have hbound := g.branchLimit.toNat_lt
  rw [AtLimit, UInt32.le_iff_toNat_le, toNat_add_one (by omega), ne_eq, ← UInt32.toNat_inj,
    UInt32.toNat_zero]
  omega

theorem mod_succ (m n : Nat) : (m + 1) % n = if m % n + 1 = n then 0 else m % n + 1 := by
  rw [← Nat.mod_add_mod]
  split
  · next h => rw [h, Nat.mod_self]
  · next h =>
    rcases Nat.eq_zero_or_pos n with rfl | hpos
    · exact Nat.mod_zero _
    · have := Nat.mod_lt m hpos
      exact Nat.mod_eq_of_lt (by omega)

/-- Rounds are counted modulo a limit that stays. -/
theorem branchCount_ticked (h : g.branchCount < g.branchLimit) (n : Nat) :
    (g.ticked n).branchCount.toNat = (g.branchCount.toNat + n) % g.branchLimit.toNat := by
  have hlt := UInt32.lt_iff_toNat_lt.mp h
  induction n with
  | zero => exact (Nat.mod_eq_of_lt hlt).symm
  | succ n ih =>
    have hbelow : (g.ticked n).branchCount < (g.ticked n).branchLimit := by
      rw [UInt32.lt_iff_toNat_lt, ih, branchLimit_ticked]
      exact Nat.mod_lt _ (by omega)
    have hreached := tick_eq_limitReached_iff.trans (atLimit_iff hbelow)
    rw [ih, branchLimit_ticked] at hreached
    rw [ticked_succ, branchCount_tick, ← Nat.add_assoc, mod_succ]
    simp only [hreached]
    split
    · rfl
    · have hbound := g.branchLimit.toNat_lt
      have := Nat.mod_lt (g.branchCount.toNat + n) (Nat.zero_lt_of_lt hlt)
      rw [toNat_add_one (by omega), ih]

theorem branchCount_ticked_lt (h : g.branchCount < g.branchLimit) (n : Nat) :
    (g.ticked n).branchCount < g.branchLimit := by
  have hlt := UInt32.lt_iff_toNat_lt.mp h
  rw [UInt32.lt_iff_toNat_lt, branchCount_ticked h]
  exact Nat.mod_lt _ (Nat.zero_lt_of_lt hlt)

theorem tick_ticked_iff (h : g.branchCount < g.branchLimit) (n : Nat) :
    (g.ticked n).tick.1 = .limitReached ↔
      g.branchLimit.toNat ∣ g.branchCount.toNat + (n + 1) := by
  have hbelow := branchCount_ticked_lt h n
  rw [← branchLimit_ticked g n] at hbelow
  rw [tick_eq_limitReached_iff, atLimit_iff hbelow, branchCount_ticked h, branchLimit_ticked,
    Nat.dvd_iff_mod_eq_zero, ← Nat.add_assoc, mod_succ]
  split <;> simp [*]

theorem tick_setBranchLimit_iff {limit : UInt32} (hpos : 0 < limit) (h : limit ≤ g.branchCount) :
    (g.setBranchLimit limit).tick.1 = .limitReached ↔ g.branchCount.toNat ≠ 2 ^ 32 - 1 := by
  have hpos := UInt32.lt_iff_toNat_lt.mp hpos
  have hle := UInt32.le_iff_toNat_le.mp h
  rw [UInt32.toNat_zero] at hpos
  have hne : limit ≠ 0 := by
    rintro rfl
    exact Nat.lt_irrefl 0 hpos
  rw [tick_eq_limitReached_iff]
  change limit ≠ 0 ∧ limit ≤ g.branchCount + 1 ↔ _
  rw [UInt32.le_iff_toNat_le]
  constructor
  · rintro ⟨-, hreached⟩ hmax
    rw [add_one_of_max hmax, UInt32.toNat_zero] at hreached
    omega
  · intro hmax
    rw [toNat_add_one hmax]
    exact ⟨hne, by omega⟩

/-- How a guard counts on from where it is. -/
structure CountsOn (g : Guard) : Prop where
  /-- Under a limit above the count every so many rounds reach it, and the count stays below. -/
  limited : g.branchCount < g.branchLimit → ∀ n,
    ((g.ticked n).tick.1 = .limitReached ↔
      g.branchLimit.toNat ∣ g.branchCount.toNat + (n + 1)) ∧
    (g.ticked (n + 1)).branchCount.toNat =
      (g.branchCount.toNat + (n + 1)) % g.branchLimit.toNat ∧
    (g.ticked (n + 1)).branchCount < g.branchLimit
  collects : ∀ n, (g.ticked n).tick.1 = .collect ↔
    AsksCollection (g.ticked (n + 1)).branchCount ∧ (g.ticked n).tick.1 ≠ .limitReached
  /-- A limit that the count has come to already is reached by the next round, unless the count
  starts again with it. -/
  lowered : ∀ limit, 0 < limit → limit ≤ g.branchCount →
    ((g.setBranchLimit limit).tick.1 = .limitReached ↔ g.branchCount.toNat ≠ 2 ^ 32 - 1)
  unlimited : g.branchLimit = 0 → ∀ n, (g.ticked n).tick.1 ≠ .limitReached ∧
    (g.ticked (n + 1)).branchCount.toNat = (g.branchCount.toNat + (n + 1)) % 2 ^ 32

theorem not_atLimit_of_zero (h : g.branchLimit = 0) : ¬ g.AtLimit :=
  fun hlimit => hlimit.1 h

theorem branchCount_ticked_of_zero (h : g.branchLimit = 0) (n : Nat) :
    (g.ticked n).branchCount.toNat = (g.branchCount.toNat + n) % 2 ^ 32 := by
  induction n with
  | zero => exact (Nat.mod_eq_of_lt g.branchCount.toNat_lt).symm
  | succ n ih =>
    have hfree := not_atLimit_of_zero ((branchLimit_ticked g n).trans h)
    rw [ticked_succ, tick_of_not_atLimit hfree]
    dsimp only
    rw [UInt32.toNat_add, ih]
    exact Nat.mod_add_mod _ _ _

theorem countsOn (g : Guard) : g.CountsOn where
  limited h n :=
    ⟨tick_ticked_iff h n, branchCount_ticked h (n + 1), branchCount_ticked_lt h (n + 1)⟩
  collects n := by
    rw [ticked_succ]
    exact tick_eq_collect_iff
  lowered _ hpos h := tick_setBranchLimit_iff hpos h
  unlimited h n := by
    have hfree := not_atLimit_of_zero ((branchLimit_ticked g n).trans h)
    exact ⟨mt tick_eq_limitReached_iff.mp hfree, branchCount_ticked_of_zero h (n + 1)⟩

end Limit

end Guard

/-- What the host answers to a round with this outcome. -/
def Tick.action : Tick → BranchAction
  | .continue_ => .continue_
  | .collect => .collect
  | .limitReached => .abort

namespace Session

/-- What can happen to the guard of a session. -/
inductive Turn where
  /-- A loop of this unit goes round at this line. -/
  | branch (filename : Option String) (line : Nat)
  | limit (n : UInt32)

def Turn.onGuard : Turn → Guard.Turn
  | .branch _ _ => .tick
  | .limit n => .limit n

def turn (s : Session) : Turn → Session
  | .branch filename line => (s.onBranch filename line).2
  | .limit n => { s with guard := s.guard.setBranchLimit n }

/-- A session after some turns. -/
def after (s : Session) (turns : List Turn) : Session :=
  turns.foldl turn s

/-- A round that a session was told about, with its answer. -/
structure Round where
  filename : Option String
  line : Nat
  answer : BranchAction

/-- The rounds of some turns. -/
def rounds (s : Session) : List Turn → List Round
  | [] => []
  | .branch filename line :: turns =>
    ⟨filename, line, (s.onBranch filename line).1⟩ :: rounds (s.turn (.branch filename line)) turns
  | .limit n :: turns => rounds (s.turn (.limit n)) turns

def Round.tooMany (r : Round) : Report :=
  (Report.error "script branches too much").locate r.filename r.line

/-- The reports on those rounds that were answered by stopping the script. -/
def stopReports (rounds : List Round) : List Report :=
  (rounds.filter (·.answer = .abort)).map Round.tooMany

theorem onBranch_eq (s : Session) (filename : Option String) (line : Nat) :
    (s.onBranch filename line).1 = s.guard.tick.1.action ∧
    (s.onBranch filename line).2.guard = s.guard.tick.2 ∧
    (s.onBranch filename line).2.err = s.err ++ String.join
      ((stopReports [⟨filename, line, (s.onBranch filename line).1⟩]).map Report.render) := by
  unfold onBranch
  generalize s.guard.tick = t
  obtain ⟨outcome, guard⟩ := t
  cases outcome with
  | continue_ | collect => exact ⟨rfl, rfl, String.append_empty.symm⟩
  | limitReached => exact ⟨rfl, rfl, congrArg (s.err ++ ·) String.empty_append.symm⟩

theorem guard_turn (s : Session) (t : Turn) : (s.turn t).guard = s.guard.turn t.onGuard := by
  cases t with
  | branch filename line => exact (s.onBranch_eq filename line).2.1
  | limit n => rfl

theorem guard_after (s : Session) (turns : List Turn) :
    (s.after turns).guard = s.guard.after (turns.map Turn.onGuard) := by
  induction turns generalizing s with
  | nil => rfl
  | cons t turns ih =>
    refine (ih (s.turn t)).trans ?_
    rw [guard_turn]
    rfl

theorem map_answer_rounds (s : Session) (turns : List Turn) :
    (s.rounds turns).map Round.answer =
      (s.guard.outcomes (turns.map Turn.onGuard)).map Tick.action := by
  induction turns generalizing s with
  | nil => rfl
  | cons t turns ih =>
    have hlater := ih (s.turn t)
    rw [guard_turn] at hlater
    cases t with
    | branch filename line => exact congrArg₂ List.cons (s.onBranch_eq filename line).1 hlater
    | limit n => exact hlater

theorem stopReports_append (front back : List Round) :
    stopReports (front ++ back) = stopReports front ++ stopReports back := by
  rw [stopReports, List.filter_append, List.map_append]
  rfl

theorem err_after (s : Session) (turns : List Turn) :
    (s.after turns).err =
      s.err ++ String.join ((stopReports (s.rounds turns)).map Report.render) := by
  induction turns generalizing s with
  | nil => exact String.append_empty.symm
  | cons t turns ih =>
    refine (ih (s.turn t)).trans ?_
    cases t with
    | branch filename line =>
      have hround := (s.onBranch_eq filename line).2.2
      have hsplit := stopReports_append [⟨filename, line, (s.onBranch filename line).1⟩]
        ((s.turn (.branch filename line)).rounds turns)
      change (s.onBranch filename line).2.err ++ _ = _
      rw [hround, String.append_assoc, ← String.join_append, ← List.map_append, ← hsplit]
      rfl
    | limit n => rfl

theorem length_stopReports (rounds : List Round) :
    (stopReports rounds).length = (rounds.map Round.answer).count .abort := by
  rw [stopReports, List.length_map, List.count, List.countP_map, List.countP_eq_length_filter]
  rfl

/-- Rounds are counted exactly, whatever limits are set in between: a guard counts those since the
limit was reached, and goes on like this from wherever it is. A session answers as its guard counts
and writes one report for each round that stops the script. -/
theorem rounds_counted (base : Nat) (before : List Guard.Turn) (s : Session)
    (turns : List Turn) :
    (((Guard.new base).after before).branchLimit = (Guard.lastLimit before).getD 0 ∧
      ((Guard.new base).after before).branchCount.toNat =
        Guard.roundsSince ((Guard.new base).outcomes before) % 2 ^ 32 ∧
      ((Guard.new base).after before).CountsOn) ∧
    (s.after turns).guard = s.guard.after (turns.map Turn.onGuard) ∧
    (s.rounds turns).map Round.answer =
      (s.guard.outcomes (turns.map Turn.onGuard)).map Tick.action ∧
    (s.after turns).err =
      s.err ++ String.join ((stopReports (s.rounds turns)).map Report.render) ∧
    (stopReports (s.rounds turns)).length =
      ((s.rounds turns).map Round.answer).count .abort :=
  ⟨⟨Guard.branchLimit_after _ before, Guard.branchCount_after base before, Guard.countsOn _⟩,
    guard_after s turns, map_answer_rounds s turns, err_after s turns, length_stopReports _⟩

theorem rounds_counted_three :
    ((Guard.new 0).after [.limit 3, .tick, .tick]).branchCount <
        ((Guard.new 0).after [.limit 3, .tick, .tick]).branchLimit ∧
      (((Guard.new 0).after [.limit 3, .tick, .tick]).ticked 0).tick.1 = .limitReached := by
  have hbelow : ((Guard.new 0).after [.limit 3, .tick, .tick]).branchCount <
      ((Guard.new 0).after [.limit 3, .tick, .tick]).branchLimit := by decide
  have hcounts := rounds_counted 0 [.limit 3, .tick, .tick] (.new 0) []
  exact ⟨hbelow, ((hcounts.1.2.2.limited hbelow 0).1).mpr (by decide)⟩

end Session

end ScriptShell
