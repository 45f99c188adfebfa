import ScriptShell.Proofs.Parser.Extension
import ScriptShell.Proofs.Token.Extension

namespace ScriptShell

namespace Program

variable {strict : Bool} {ts : Tokens} {e : ParseError}

/-- An error that does not come from the end of the tokens stays if tokens follow, except where an
update operator waits for the rest of its operand. -/
theorem ofTokens_behind_fails (h : ofTokens strict ts = .error e) (hend : e.atEnd = false) :
    Parser.OpenUpdate (contextOf strict ts) (stateOf ts) e ∨
      ∀ ts' : Tokens, ∃ e', ofTokens strict (ts'.behind ts.items) = .error e' := by
  obtain ⟨t, hrun⟩ := ofTokens_eq_error.mp h
  refine or_iff_not_imp_left.mpr fun hupdate ts' => ?_
  have hle : Parser.depthFor ts.items.length ≤
      Parser.depthFor (ts'.behind ts.items).items.length := by
    simp only [Parser.depthFor, Tokens.behind, List.length_append]
    omega
  have hfollow := (Parser.statements_follow hle).settled (contextOf strict ts) (stateOf ts)
    (Nat.zero_le _)
  have hfits := Parser.statements_depthFor (contextOf strict ts) (stateOf ts)
  rcases (Parser.Run.iff_error hrun).mp hfollow with hfault | ⟨-, hatEnd | hopen | hfails⟩
  · exact absurd hfault ((Parser.Run.iff_error hrun).mp hfits)
  · rw [hend] at hatEnd
    cases hatEnd
  · exact absurd hopen hupdate
  · have hcontext : contextOf strict (ts'.behind ts.items) = contextOf strict ts' := rfl
    have hstate : stateOf (ts'.behind ts.items) = (stateOf ts).add ts'.items := rfl
    obtain ⟨e', t', he'⟩ := hfails (contextOf strict ts') ts'.items rfl
    rw [← hcontext, ← hstate] at he'
    exact ⟨e', ofTokens_eq_error.mpr ⟨t', he'⟩⟩

end Program

/-- A source ends inside a string literal that a quote would close. -/
def EndsInText (options : ParseOptions) (source : String) (e : ParseError) : Prop :=
  Scan.EndsInText (.start (max 1 options.startLine)) source.toList e

/-- A source ends with an operand of a prefix update operator that is no target so far. -/
def EndsInOperand (options : ParseOptions) (source : String) (e : ParseError) : Prop :=
  ∃ ts, Tokens.ofSource options.letKeywords (max 1 options.startLine) source = .ok ts ∧
    Parser.OpenUpdate (Program.contextOf options.strict ts) (Program.stateOf ts) e

/-- A source of whole lines that fails, but not because it ends too early, fails whatever follows
it, unless it ends inside a string literal or with an operand of an update operator that may go
on. -/
theorem definite_of_isCompilable {options : ParseOptions} {source : String} {e : ParseError}
    (hline : source.toList.getLast? = some '\n')
    (h : Program.ofSource options source = .error e) (hcomplete : isCompilable options source = true) :
    EndsInText options source e ∨ EndsInOperand options source e ∨
      ∀ more, ∃ e', Program.ofSource options (source ++ more) = .error e' := by
  have hend : e.atEnd = false := by
    simpa [isCompilable, h] using hcomplete
  have hscan := Scan.scanFrom_extends options.letKeywords source.toList (.blank false)
    (.start (max 1 options.startLine)) rfl
  have hparted (t : List Char) : source.toList = [] ∨ Scan.Parted source.toList t :=
    .inr (.inl hline)
  unfold Scan.Extends at hscan
  unfold Program.ofSource at h ⊢
  unfold Tokens.ofSource at h ⊢
  simp only [String.toList_append]
  -- The fault is met while the tokens are read or by the parser behind them.
  cases hts : Scan.scanFrom options.letKeywords (.blank false) (.start (max 1 options.startLine))
      source.toList with
  | error e₀ =>
    rw [hts] at h hscan
    obtain rfl := Except.error.inj h
    rcases hscan with ⟨hatEnd, -⟩ | ⟨-, hfails⟩
    · rw [hend] at hatEnd
      cases hatEnd
    · refine (hfails hline).imp_right fun hfails => .inr fun more => ?_
      obtain ⟨e', he'⟩ := hfails more.toList
      exact ⟨e', by rw [he']⟩
  | ok ts =>
    rw [hts] at h hscan
    obtain ⟨st', -, -, -, hmore⟩ := hscan
    refine .inr ((Program.ofTokens_behind_fails h hend).imp (fun hopen => ⟨ts, hts, hopen⟩) ?_)
    intro hfails more
    rw [hmore more.toList (hparted _)]
    cases Scan.scanFrom options.letKeywords st' ts.finish more.toList with
    | error e' => exact ⟨e', rfl⟩
    | ok ts' => exact hfails ts'

theorem definite_of_isCompilable_twoNames :
    isCompilable {} "a b\n" = true ∧
      ∀ more, ∃ e, Program.ofSource {} ("a b\n" ++ more) = .error e := by
  have hfails : Program.ofSource {} "a b\n" =
      .error ⟨.missing "; before statement", ⟨1, 3, 2⟩, false⟩ := by rfl
  have hcomplete : isCompilable {} "a b\n" = true := by decide +kernel
  refine ⟨hcomplete, ?_⟩
  rcases definite_of_isCompilable (by decide) hfails hcomplete with hopen | hopen | h
  · obtain ⟨_, _, _, _, _, _, he⟩ := hopen
    cases he
  · obtain ⟨_, _, _, _, _, _, _, _, _, _, _, _, _, he⟩ := hopen
    cases he
  · exact h

example : isCompilable {} "'a\\\n" = true ∧ (Program.ofSource {} "'a\\\n").toBool = false ∧
    (Program.ofSource {} ("'a\\\n" ++ "'")).toBool = true := by
  decide +kernel

example : isCompilable {} "++f()\n" = true ∧ (Program.ofSource {} "++f()\n").toBool = false ∧
    (Program.ofSource {} ("++f()\n" ++ ".x")).toBool = true := by
  decide +kernel

end ScriptShell
