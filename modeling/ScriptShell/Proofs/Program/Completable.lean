import ScriptShell.Proofs.Parser.Completion
import ScriptShell.Proofs.Program.Reparsing
import ScriptShell.Proofs.Token.Lines

namespace ScriptShell

namespace Parser

def Filler.spelling : Filler → List Char
  | .name => ['x']
  | .mark m => m.spelling.toList
  | .while => Keyword.while.spelling.toList
  | .finally_ => Keyword.finally_.spelling.toList

def Filler.lines (fill : List Filler) : List Char :=
  fill.flatMap fun filler => filler.spelling ++ ['\n']

theorem Filler.lexeme_spelling (lets : Bool) (filler : Filler) :
    ∃ c x, filler.spelling = c :: x ∧ Scan.Begins c x ∧
      Scan.lexeme lets c x = .ok (filler.kind, x.length) := by
  cases filler with
  | mark m => cases m <;> exact ⟨_, _, rfl, ⟨rfl, rfl, rfl, rfl⟩, rfl⟩
  | name => exact ⟨_, _, rfl, ⟨rfl, rfl, rfl, rfl⟩, rfl⟩
  | _ => cases lets <;> exact ⟨_, _, rfl, ⟨rfl, rfl, rfl, rfl⟩, rfl⟩

variable {c : Context} {s : State}

theorem Fails.depthFor (h : Fails statements c s) :
    ∃ e t, statements (depthFor s.rest.length) c s = .error e t := by
  obtain ⟨bound, h⟩ := h
  obtain ⟨e, t, hmore⟩ := h _ (Nat.le_max_left bound (Parser.depthFor s.rest.length))
  have hle : Parser.depthFor s.rest.length ≤ max bound (Parser.depthFor s.rest.length) :=
    Nat.le_max_right ..
  have hsame := (statements_follow hle).settled c s (Nat.zero_le _)
  cases hrun : statements (Parser.depthFor s.rest.length) c s with
  | ok a u =>
    obtain ⟨-, hsame, -⟩ := (Run.iff_ok hrun).mp hsame
    cases hsame.symm.trans hmore
  | error e u => exact ⟨e, u, rfl⟩

end Parser

namespace Scan

open ScriptShell.Parser (Filler Filling onLines)

variable {lets newline : Bool} {st : State} {l : Location} {t : List Char}

theorem scanFrom_filler (filler : Filler) :
    scanFrom lets (.blank newline) l (filler.spelling ++ '\n' :: t) =
      (scanFrom lets (.blank true) ((l.advance filler.spelling).after '\n') t).map
        (·.behind [⟨filler.kind, l, newline⟩]) := by
  obtain ⟨c, x, hspelling, hbegins, hread⟩ := filler.lexeme_spelling lets
  have hparted : Parted (c :: x) ('\n' :: t) := .inr ⟨'\n', t, rfl, .inr (.inl rfl)⟩
  have hread' := lexeme_ok_append hbegins.ne_newline (.inr hparted) hread
  rw [hspelling, List.cons_append, (hbegins.append (.inr hparted)).scanFrom_ok hread',
    scanFrom_afterFirst]
  rfl

theorem scanFrom_lines (lets : Bool) (l : Location) (fill : List Filler) :
    ∃ ts, scanFrom lets (.blank true) l (Filler.lines fill) = .ok ts ∧
      Filling (onLines fill) [] ts.items := by
  induction fill generalizing l with
  | nil => exact ⟨_, rfl, rfl⟩
  | cons filler fill ih =>
    obtain ⟨ts, hts, hfill⟩ := ih ((l.advance filler.spelling).after '\n')
    refine ⟨ts.behind [⟨filler.kind, l, true⟩], ?_, ⟨_, ts.items, rfl, rfl, rfl, hfill⟩⟩
    have hlines : Filler.lines (filler :: fill) = filler.spelling ++ '\n' :: Filler.lines fill := by
      simp [Filler.lines]
    rw [hlines, scanFrom_filler, hts]
    rfl

def State.isLineOver : State → Bool
  | .blank newline => newline
  | .lineComment _ => true
  | _ => false

theorem newlineBefore_of_blank {ts : Tokens} (h : scanFrom lets (.blank true) l t = .ok ts) :
    ∀ token ∈ ts.items.head?, token.newlineBefore = true := by
  have hline : scanFrom lets (.blank true) l t =
      (scanFrom lets (.blank false) l t).map Tokens.onNewLine :=
    scanFrom_onNewLine (.blank false) rfl
  rw [h] at hline
  cases hscan : scanFrom lets (.blank false) l t with
  | error e => simp [hscan, Except.map] at hline
  | ok ts' =>
    rw [hscan] at hline
    obtain rfl := Except.ok.inj hline
    obtain ⟨items, finish, newlineAtEnd⟩ := ts'
    cases items with
    | nil => exact nofun
    | cons token items =>
      rintro token' ⟨⟩
      rfl

theorem newlineBefore_of_isLineOver {ts : Tokens} (hst : st.isLineOver = true)
    (h : scanFrom lets st l t = .ok ts) : ∀ token ∈ ts.items.head?, token.newlineBefore = true := by
  induction t generalizing st l with
  | nil =>
    cases st <;> cases h <;> exact nofun
  | cons c t ih =>
    cases st with
    | blank newline =>
      obtain rfl : newline = true := hst
      exact newlineBefore_of_blank h
    | lineComment newline =>
      rw [scanFrom_lineComment] at h
      split at h
      · exact newlineBefore_of_blank h
      · exact ih rfl h
    | _ => cases hst

end Scan

namespace Program

open ScriptShell.Parser (Filling Completes Fails)

variable {strict : Bool} {ts ts' : Tokens} {ks : List (TokenKind × Bool)}

theorem ofTokens_behind_completes
    (h : Completes (contextOf strict ts) (stateOf ts) ks (· = []) any Parser.statements)
    (hfill : Filling ks [] ts'.items) : ∃ r, ofTokens strict (ts'.behind ts.items) = .ok r := by
  obtain ⟨body, t, hbody, -, -⟩ := h (contextOf strict ts') [] ts'.items rfl hfill rfl
  exact ⟨(⟨body, _⟩, _), ofTokens_eq_ok.mpr ⟨t, hbody.depthFor, rfl, rfl⟩⟩

theorem ofTokens_behind_broken
    (h : Fails Parser.statements (contextOf strict ts') ((stateOf ts).add ts'.items)) :
    ∃ e, ofTokens strict (ts'.behind ts.items) = .error e := by
  obtain ⟨e, t, he⟩ := h.depthFor
  exact ⟨e, ofTokens_eq_error.mpr ⟨t, he⟩⟩

end Program

/-- Something can be written behind a source that makes it a program. -/
def Completable (options : ParseOptions) (source : String) : Prop :=
  ∃ more r, Program.ofSource options (source ++ more) = .ok r

/-- A source ends behind a `throw`, and what follows begins another line, whatever it is: the line
has ended, or the rest of it is a comment. -/
def EndsBehindThrow (options : ParseOptions) (source : String) : Prop :=
  ∃ ts, Tokens.ofSource options.letKeywords (max 1 options.startLine) source = .ok ts ∧
    Parser.EndsInThrow ts.items ∧
    ∀ (more : String) (ts' : Tokens), Scan.Parted source.toList more.toList →
      Tokens.ofSource options.letKeywords (max 1 options.startLine) (source ++ more) =
        .ok (ts'.behind ts.items) → ∀ token ∈ ts'.items.head?, token.newlineBefore = true

/-- A source fails in the operand of an update operator that never becomes a target. -/
def EndsInVainOperand (options : ParseOptions) (source : String) : Prop :=
  ∃ ts e, Tokens.ofSource options.letKeywords (max 1 options.startLine) source = .ok ts ∧
    Program.ofSource options source = .error e ∧
    Parser.VainOperand (Program.contextOf options.strict ts) (Program.stateOf ts) e

/-- What makes it impossible to complete a source. -/
def Stuck (options : ParseOptions) (source : String) : Prop :=
  EndsBehindThrow options source ∨ EndsInVainOperand options source

/-- A source ends in a comment, and with the comment closed it fails for another reason than its
end, or is stuck. -/
def EndsInComment (options : ParseOptions) (source : String) : Prop :=
  (∃ e, Tokens.ofSource options.letKeywords (max 1 options.startLine) source = .error e ∧
    e.atEnd = true) ∧
    ∃ e, Program.ofSource options (source ++ " */") = .error e ∧
      (e.atEnd = true → Stuck options (source ++ " */"))

namespace Tokens

variable {lets : Bool} {k : Nat} {source : String} {ts : Tokens}

theorem exists_state_of_ofSource (hts : ofSource lets k source = .ok ts) :
    ∃ st, (st = .blank ts.newlineAtEnd ∨ st = .lineComment ts.newlineAtEnd) ∧
      ∀ t : String, Scan.Parted source.toList t.toList → ofSource lets k (source ++ t) =
        (Scan.scanFrom lets st ts.finish t.toList).map (·.behind ts.items) := by
  have hscan := Scan.scanFrom_extends lets source.toList (.blank false) (.start k) rfl
  unfold Scan.Extends at hscan
  unfold ofSource at hts ⊢
  rw [hts] at hscan
  obtain ⟨st, hst, -, -, hmore⟩ := hscan
  refine ⟨st, hst, fun t ht => ?_⟩
  rw [String.toList_append, hmore t.toList (.inr ht)]

theorem ofSource_closed {e : ParseError} (hts : ofSource lets k source = .error e)
    (hend : e.atEnd = true) : ∃ ts, ofSource lets k (source ++ " */") = .ok ts := by
  have hscan := Scan.scanFrom_extends lets source.toList (.blank false) (.start k) rfl
  unfold Scan.Extends at hscan
  unfold ofSource at hts ⊢
  rw [hts] at hscan
  rcases hscan with ⟨-, ts, hclosed⟩ | ⟨hnot, -⟩
  · exact ⟨ts, (congrArg _ String.toList_append).trans hclosed⟩
  · rw [hend] at hnot
    cases hnot

theorem ofSource_append_lines (hts : ofSource lets k source = .ok ts) (fill : List Parser.Filler) :
    ∃ ts' : Tokens, ofSource lets k (source ++ String.ofList ('\n' :: Parser.Filler.lines fill)) =
        .ok (ts'.behind ts.items) ∧
      Parser.Filling (Parser.onLines fill) [] ts'.items := by
  obtain ⟨st, hst, hmore⟩ := exists_state_of_ofSource hts
  obtain ⟨ts', hts', hfill⟩ := Scan.scanFrom_lines lets (ts.finish.after '\n') fill
  have hline : Scan.scanFrom lets st ts.finish ('\n' :: Parser.Filler.lines fill) = .ok ts' := by
    rcases hst with rfl | rfl <;> exact hts'
  refine ⟨ts', ?_, hfill⟩
  rw [hmore _ (.inr ⟨'\n', _, String.toList_ofList, .inr (.inl rfl)⟩), String.toList_ofList, hline]
  rfl

/-- A name in front of other lines stands on the last line of the source, or everything that
follows the source begins another line. -/
theorem ofSource_append_name_lines (hts : ofSource lets k source = .ok ts)
    (fill : List Parser.Filler) :
    (∃ ts' : Tokens, ofSource lets k
        (source ++ String.ofList (' ' :: 'x' :: '\n' :: Parser.Filler.lines fill)) =
          .ok (ts'.behind ts.items) ∧
        Parser.Filling ((.name "x", false) :: Parser.onLines fill) [] ts'.items) ∨
      ∀ (more : String) (ts' : Tokens), Scan.Parted source.toList more.toList →
        ofSource lets k (source ++ more) = .ok (ts'.behind ts.items) →
          ∀ token ∈ ts'.items.head?, token.newlineBefore = true := by
  obtain ⟨st, hst, hmore⟩ := exists_state_of_ofSource hts
  -- If the line is over, whatever follows stands on a new one; else a name can still stand on this.
  cases hover : st.isLineOver with
  | true =>
    refine .inr fun more ts' hparted hts' => ?_
    rw [hmore more hparted] at hts'
    cases hscan : Scan.scanFrom lets st ts.finish more.toList with
    | error e => simp [hscan, Except.map] at hts'
    | ok us =>
      rw [hscan] at hts'
      have hitems : us.items = ts'.items := by
        simpa [Tokens.behind] using congrArg Tokens.items (Except.ok.inj hts')
      exact hitems ▸ Scan.newlineBefore_of_isLineOver hover hscan
  | false =>
    obtain rfl : st = .blank false := by
      rcases hst with rfl | rfl
      · exact congrArg _ hover
      · cases hover
    obtain ⟨ts', hts', hfill⟩ :=
      Scan.scanFrom_lines lets (((ts.finish.after ' ').after 'x').after '\n') fill
    have hscan : Scan.scanFrom lets (.blank false) ts.finish
        (' ' :: 'x' :: '\n' :: Parser.Filler.lines fill) =
          .ok (ts'.behind [⟨.name "x", ts.finish.after ' ', false⟩]) :=
      (Scan.scanFrom_filler .name).trans (congrArg (Except.map _) hts')
    refine .inl ⟨ts'.behind [⟨.name "x", ts.finish.after ' ', false⟩], ?_,
      ⟨_, ts'.items, rfl, rfl, rfl, hfill⟩⟩
    rw [hmore _ (.inr ⟨' ', _, String.toList_ofList, .inl rfl⟩), String.toList_ofList, hscan]
    rfl

end Tokens

section Incomplete

variable {options : ParseOptions} {source : String} {ts : Tokens} {e : ParseError}

theorem Program.ofSource_eq (hts : Tokens.ofSource options.letKeywords (max 1 options.startLine)
    source = .ok ts) : Program.ofSource options source = Program.ofTokens options.strict ts := by
  rw [Program.ofSource, hts]

theorem Program.outlook_of_error {strict : Bool} (h : Program.ofTokens strict ts = .error e)
    (hend : e.atEnd = true) : Parser.Outlook (contextOf strict ts) (stateOf ts) e (· = []) any
      Parser.statements := by
  obtain ⟨t, hrun⟩ := ofTokens_eq_error.mp h
  have hheals := Parser.statements_heals (Parser.depthFor ts.items.length) (contextOf strict ts)
    (stateOf ts) (Nat.zero_le _)
  exact (Parser.Run.iff_error hrun).mp hheals hend

theorem completable_of_ofSource {more : String} {ts' : Tokens} {ks : List (TokenKind × Bool)}
    (hmore : Tokens.ofSource options.letKeywords (max 1 options.startLine) (source ++ more) =
      .ok (ts'.behind ts.items)) (hfill : Parser.Filling ks [] ts'.items)
    (h : Parser.Completes (Program.contextOf options.strict ts) (Program.stateOf ts) ks (· = []) any
      Parser.statements) : Completable options source := by
  obtain ⟨r, hr⟩ := Program.ofTokens_behind_completes h hfill
  exact ⟨more, r, (Program.ofSource_eq hmore).trans hr⟩

/-- A source that fails with whatever tokens follow fails with whatever text follows. -/
theorem broken_of_fails
    (hts : Tokens.ofSource options.letKeywords (max 1 options.startLine) source = .ok ts)
    {more : String} (hparted : Scan.Parted source.toList more.toList)
    (hfails : ∀ ts' : Tokens, Tokens.ofSource options.letKeywords (max 1 options.startLine)
      (source ++ more) = .ok (ts'.behind ts.items) →
        Parser.Fails Parser.statements (Program.contextOf options.strict ts')
          ((Program.stateOf ts).add ts'.items)) :
    ∃ e', Program.ofSource options (source ++ more) = .error e' := by
  obtain ⟨st, -, hmore⟩ := Tokens.exists_state_of_ofSource hts
  have hmore := hmore more hparted
  cases hscan : Scan.scanFrom options.letKeywords st ts.finish more.toList with
  | error e' =>
    rw [hscan] at hmore
    exact ⟨e', by rw [Program.ofSource, hmore]; rfl⟩
  | ok ts' =>
    rw [hscan] at hmore
    rw [Program.ofSource_eq hmore]
    exact Program.ofTokens_behind_broken (hfails ts' hmore)

/-- A source that ends too early can be completed, or it is stuck, and then nothing that is written
behind it completes it. -/
theorem completable_of_tokens
    (hts : Tokens.ofSource options.letKeywords (max 1 options.startLine) source = .ok ts)
    (h : Program.ofSource options source = .error e) (hend : e.atEnd = true) :
    Completable options source ∨ Stuck options source ∧
      ∀ more : String, Scan.Parted source.toList more.toList →
        ∃ e', Program.ofSource options (source ++ more) = .error e' := by
  cases Program.outlook_of_error ((Program.ofSource_eq hts).symm.trans h) hend with
  | healed fill hcompletes =>
    obtain ⟨ts', hmore, hfill⟩ := Tokens.ofSource_append_lines hts fill
    exact .inl (completable_of_ofSource hmore hfill hcompletes)
  | thrown fill hthrow hcompletes hfails =>
    rcases Tokens.ofSource_append_name_lines hts fill with ⟨ts', hmore, hfill⟩ | hover
    · exact .inl (completable_of_ofSource hmore hfill hcompletes)
    · refine .inr ⟨.inl ⟨ts, hts, hthrow, hover⟩, fun more hparted => ?_⟩
      exact broken_of_fails hts hparted fun ts' hts' =>
        hfails _ _ rfl (hover more ts' hparted hts')
  | vain hvain hfails =>
    refine .inr ⟨.inr ⟨ts, e, hts, h, hvain⟩, fun more hparted => ?_⟩
    exact broken_of_fails hts hparted fun ts' _ => hfails _ _ rfl

end Incomplete

/-- A unit that counts as incomplete can be completed, with three exceptions. It ends behind a
`throw` whose line is over, or in an operand that never becomes the target of an update, and then
nothing that is written behind it makes it a program; or it ends in a comment, and with the comment
closed it fails for another reason than its end, or in one of these two ways. -/
theorem completable_of_isCompilable {options : ParseOptions} {source : String}
    (h : isCompilable options source = false) :
    Completable options source ∨
      (Stuck options source ∧ ∀ more : String, Scan.Parted source.toList more.toList →
        ∃ e, Program.ofSource options (source ++ more) = .error e) ∨
      EndsInComment options source := by
  cases hsource : Program.ofSource options source with
  | ok r => simp [isCompilable, hsource] at h
  | error e =>
    have hend : e.atEnd = true := by simpa [isCompilable, hsource] using h
    cases hts : Tokens.ofSource options.letKeywords (max 1 options.startLine) source with
    | ok ts => exact (completable_of_tokens hts hsource hend).imp_right .inl
    | error e' =>
      obtain rfl : e' = e := by simpa [Program.ofSource, hts] using hsource
      -- Tokens that break off do so in a comment, which its mark closes.
      obtain ⟨ts, hclosed⟩ := Tokens.ofSource_closed hts hend
      cases hrest : Program.ofSource options (source ++ " */") with
      | ok r => exact .inl ⟨" */", r, hrest⟩
      | error e'' =>
        by_cases hend' : e''.atEnd = true
        · rcases completable_of_tokens hclosed hrest hend' with ⟨more, r, hr⟩ | ⟨hstuck, -⟩
          · exact .inl ⟨" */" ++ more, r, String.append_assoc ▸ hr⟩
          · exact .inr (.inr ⟨⟨e', hts, hend⟩, e'', hrest, fun _ => hstuck⟩)
        · exact .inr (.inr ⟨⟨e', hts, hend⟩, e'', hrest, fun h => absurd h hend'⟩)

/-- A condition that is not closed. -/
theorem completable_of_isCompilable_condition :
    isCompilable {} "while (a" = false ∧ Completable {} "while (a" := by
  have hincomplete : isCompilable {} "while (a" = false := by decide +kernel
  refine ⟨hincomplete, ?_⟩
  have hts : Tokens.ofSource true 1 "while (a" = .ok ⟨[⟨.keyword .while, ⟨1, 1, 0⟩, false⟩,
    ⟨.mark .leftParen, ⟨1, 7, 6⟩, false⟩, ⟨.name "a", ⟨1, 8, 7⟩, false⟩], ⟨1, 9, 8⟩, false⟩ := by
    rfl
  rcases completable_of_isCompilable hincomplete with h | ⟨hthrow | hvain, -⟩ | ⟨⟨e, he, -⟩, -⟩
  · exact h
  · obtain ⟨ts, hts', ⟨token, htoken, hk⟩, -⟩ := hthrow
    cases hts.symm.trans hts'
    cases htoken
    cases hk
  · obtain ⟨ts, e, hts', -, token, n, s, t, hsuffix, hupdate, -⟩ := hvain
    cases hts.symm.trans hts'
    have hmem := hsuffix.subset List.mem_cons_self
    simp [Program.stateOf] at hmem
    rcases hmem with rfl | rfl | rfl <;> cases hupdate
  · cases hts.symm.trans he

example : isCompilable {} "throw\n" = false ∧ isCompilable {} "++ -" = false ∧
    isCompilable {} ") /*" = false := by
  decide +kernel

end ScriptShell
