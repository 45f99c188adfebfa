import ScriptShell.Proofs.Parser.Canonical

namespace ScriptShell

namespace Parser

variable {c : Context} {s t : State} {body : List Stmt}

theorem Yields.depthFor (h : Yields statements c s body t) :
    statements (depthFor s.rest.length) c s = .ok body t := by
  obtain ⟨bound, h⟩ := h
  have hle : Parser.depthFor s.rest.length ≤ max bound (Parser.depthFor s.rest.length) :=
    Nat.le_max_right ..
  have hmore := h _ (Nat.le_max_left bound (Parser.depthFor s.rest.length))
  have hsame := (statements_follow hle).settled c s (Nat.zero_le _)
  have hfits := statements_depthFor c s
  cases hrun : statements (Parser.depthFor s.rest.length) c s with
  | ok body' t' =>
    obtain ⟨-, hsame, -⟩ := (Run.iff_ok hrun).mp hsame
    exact hsame.symm.trans hmore
  | error e t' =>
    rcases (Run.iff_error hrun).mp hsame with hfault | ⟨hsame, -⟩
    · exact absurd hfault ((Run.iff_error hrun).mp hfits)
    · exact absurd (hsame.symm.trans hmore) (by simp)

end Parser

namespace Program

variable {strict : Bool} {ts : Tokens} {p : Program} {w : List ParseWarning}

/-- Whatever tokens are accepted, the canonical tokens of the program are accepted too. They give
the same program, the names it hoists included, and the same warnings, all without places. -/
theorem ofTokens_render (h : ofTokens strict ts = .ok (p, w)) :
    ofTokens strict p.render = .ok (p.unplaced, w.map .unplaced) := by
  obtain ⟨t, hrun, hnames, rfl⟩ := ofTokens_eq_ok.mp h
  have hread := (Parser.Run.iff_ok hrun).mp (Parser.statements_leads _)
  have hagain := (Parser.yields_statements hread.2).depthFor
  have hstart : (stateOf ts).bare.facing (Parser.spell (tokensOfStmts p.body) []) =
      stateOf p.render := by
    simp [stateOf, render, Parser.spell, Parser.State.bare, Parser.State.facing]
  rw [hstart] at hagain
  refine ofTokens_eq_ok.mpr ⟨_, hagain, hnames, ?_⟩
  exact List.map_reverse

/-- The tokens of if (a = b) var c, without a semicolon. -/
def branchTokens : Tokens where
  items := [⟨.keyword .if_, ⟨1, 1, 0⟩, false⟩, ⟨.mark .leftParen, ⟨1, 4, 3⟩, false⟩,
    ⟨.name "a", ⟨1, 5, 4⟩, false⟩, ⟨.mark .eq, ⟨1, 7, 6⟩, false⟩, ⟨.name "b", ⟨1, 9, 8⟩, false⟩,
    ⟨.mark .rightParen, ⟨1, 10, 9⟩, false⟩, ⟨.keyword .var, ⟨1, 12, 11⟩, false⟩,
    ⟨.name "c", ⟨1, 16, 15⟩, false⟩]
  finish := ⟨1, 17, 16⟩
  newlineAtEnd := false

def branch : Program where
  body := [.if_ (.assign none (.name "a" ⟨1, 5, 4⟩) (.name "b" ⟨1, 9, 8⟩) ⟨1, 7, 6⟩)
    (.declare .var [.mk "c" none ⟨1, 16, 15⟩] ⟨1, 12, 11⟩) none ⟨1, 1, 0⟩]
  varNames := ["c"]

theorem ofTokens_render_branch :
    ofTokens true branchTokens = .ok (branch, [⟨.assignmentAsCondition, ⟨1, 7, 6⟩⟩]) ∧
      ofTokens true branch.render =
        .ok (branch.unplaced, [⟨.assignmentAsCondition, default⟩]) := by
  have accepted : ofTokens true branchTokens =
      .ok (branch, [⟨.assignmentAsCondition, ⟨1, 7, 6⟩⟩]) := by rfl
  exact ⟨accepted, ofTokens_render accepted⟩

end Program

end ScriptShell
