import ScriptShell.Proofs.Parser.Progress

namespace ScriptShell

open ScriptShell.Parser (Notes Routine Stop Walk lineOf)

namespace Program

variable {strict : Bool} {ts : Tokens} {p : Nat} {e : ParseError}

/-- Parsing fails so while the parser stands at this position. -/
def FailsAt (strict : Bool) (ts : Tokens) (p : Nat) (e : ParseError) : Prop :=
  ∃ t, Parser.statements (Parser.depthFor ts.items.length) (contextOf strict ts) (stateOf ts) =
    .error e t ∧ p ≤ ts.items.length ∧ t.rest = ts.items.drop p

theorem statements_of_depthFor_le {n : Nat} (h : Parser.depthFor ts.items.length ≤ n) :
    Parser.statements n (contextOf strict ts) (stateOf ts) =
      Parser.statements (Parser.depthFor ts.items.length) (contextOf strict ts) (stateOf ts) := by
  have henough : 20 * (stateOf ts).rest.length + 13 ≤ Parser.depthFor ts.items.length := by
    change 20 * ts.items.length + 13 ≤ _
    unfold Parser.depthFor
    omega
  exact (Routine.statements.parser_eq henough h).1

theorem exists_stop (strict : Bool) {n : Nat} {walk : Walk (List Stmt)}
    (hwalk : Parser.statements n = walk.parser) (hn : Parser.depthFor ts.items.length ≤ n) :
    ∃ stop, walk.runAt ts.slots strict 0 .initial = some stop ∧
      stop.position ≤ ts.items.length ∧
      Parser.statements (Parser.depthFor ts.items.length) (contextOf strict ts) (stateOf ts) =
        stop.on ts := by
  obtain ⟨stop, hrun, hrange, hparser⟩ := walk.exists_runAt strict .initial
    (Nat.zero_le ts.items.length)
  refine ⟨stop, hrun, hrange, ?_⟩
  rw [← statements_of_depthFor_le hn, hwalk]
  exact hparser

theorem failsAt_iff {n : Nat} {walk : Walk (List Stmt)} (hwalk : Parser.statements n = walk.parser)
    (hn : Parser.depthFor ts.items.length ≤ n) :
    FailsAt strict ts p e ↔ ∃ notes,
      walk.runAt ts.slots strict 0 .initial = some ⟨.error e, p, notes⟩ := by
  obtain ⟨stop, hrun, hrange, hstop⟩ := exists_stop strict hwalk hn
  constructor
  · rintro ⟨t, hfails, hp, hrest⟩
    obtain ⟨hresult, rfl⟩ := Stop.on_eq_error (hstop.symm.trans hfails)
    have hposition : stop.position = p := by
      have hlength := congrArg List.length hrest
      rw [Notes.length_rest_at, List.length_drop] at hlength
      omega
    refine ⟨stop.notes, hrun.trans ?_⟩
    rw [← hresult, ← hposition]
  · rintro ⟨notes, hfails⟩
    cases hrun.symm.trans hfails
    exact ⟨_, hstop, hrange, rfl⟩

theorem ofTokens_eq_error_iff : ofTokens strict ts = .error e ↔ ∃ p, FailsAt strict ts p e := by
  rw [ofTokens_eq_error]
  constructor
  · rintro ⟨t, hfails⟩
    obtain ⟨walk, hwalk⟩ := Routine.statements.exists_walk (Parser.depthFor ts.items.length)
    obtain ⟨stop, -, hrange, hstop⟩ := exists_stop strict hwalk (Nat.le_refl _)
    obtain ⟨-, rfl⟩ := Stop.on_eq_error (hstop.symm.trans hfails)
    exact ⟨stop.position, _, hfails, hrange, rfl⟩
  · rintro ⟨p, t, hfails, -⟩
    exact ⟨t, hfails⟩

/-- Sources whose tokens are the same up to the position where the parser fails on one of them
fail alike: the error, its place, and whether more input could help are the same. It does not
matter what else stands behind that position. -/
theorem ofTokens_lookahead {ts' : Tokens} (hfails : FailsAt strict ts p e)
    (hsame : ∀ i ≤ p, ts'.slots[i]? = ts.slots[i]?) :
    FailsAt strict ts' p e ∧ ofTokens strict ts' = .error e := by
  have hle := Nat.le_max_left (Parser.depthFor ts.items.length) (Parser.depthFor ts'.items.length)
  have hle' := Nat.le_max_right (Parser.depthFor ts.items.length) (Parser.depthFor ts'.items.length)
  obtain ⟨walk, hwalk⟩ := Routine.statements.exists_walk
    (max (Parser.depthFor ts.items.length) (Parser.depthFor ts'.items.length))
  obtain ⟨notes, hrun⟩ := (failsAt_iff hwalk hle).mp hfails
  have hfails' := (failsAt_iff hwalk hle').mpr ⟨notes, walk.runAt_congr hrun hsame⟩
  exact ⟨hfails', ofTokens_eq_error_iff.mpr ⟨p, hfails'⟩⟩

theorem ofTokens_lookahead_twoNames :
    FailsAt false (lineOf [.name "a", .name "b"]) 1
        ⟨.missing "; before statement", .start 1, false⟩ ∧
      ofTokens false (lineOf [.name "a", .name "b", .mark .leftBrace]) =
        .error ⟨.missing "; before statement", .start 1, false⟩ := by
  have hfails : FailsAt false (lineOf [.name "a", .name "b"]) 1
      ⟨.missing "; before statement", .start 1, false⟩ := ⟨_, rfl, by decide, rfl⟩
  refine ⟨hfails, (ofTokens_lookahead hfails fun i hi => ?_).2⟩
  match i, hi with
  | 0, _ => rfl
  | 1, _ => rfl

end Program

end ScriptShell
