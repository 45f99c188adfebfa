import ScriptShell.Proofs.Location
import ScriptShell.Proofs.Token.Extension

namespace ScriptShell

def Token.shift (n : Nat) (t : Token) : Token :=
  { t with place := t.place.shift n }

namespace Tokens

def shift (n : Nat) (ts : Tokens) : Tokens :=
  { ts with items := ts.items.map (·.shift n), finish := ts.finish.shift n }

/-- Tokens of which the first, or else the end, stands behind a line break. -/
def onNewLine (ts : Tokens) : Tokens :=
  match ts.items with
  | [] => { ts with newlineAtEnd := true }
  | t :: items => { ts with items := { t with newlineBefore := true } :: items }

end Tokens

def ParseError.shift (n : Nat) (e : ParseError) : ParseError :=
  { e with place := e.place.shift n }

namespace Scan

variable {lets : Bool} {l : Location} {c : Char} {x : List Char} {n : Nat}

namespace State

/-- The state with the comment in it opened so many bytes later. -/
def shift (n : Nat) : State → State
  | .opening newline opened => .opening newline (opened.shift n)
  | .blockComment newline opened => .blockComment newline (opened.shift n)
  | .blank newline => .blank newline
  | .lineComment newline => .lineComment newline
  | .closing newline => .closing newline
  | .inside m => .inside m

/-- The state once a line has ended since the last token. -/
def onNewLine : State → State
  | .blank _ => .blank true
  | .lineComment _ => .lineComment true
  | .opening _ opened => .opening true opened
  | .blockComment _ opened => .blockComment true opened
  | .closing _ => .closing true
  | .inside n => .inside n

def isInside : State → Bool
  | .inside _ => true
  | _ => false

theorem shift_afterFirst (m : Nat) : (afterFirst m).shift n = afterFirst m := by
  cases m <;> rfl

end State

def shiftResult (n : Nat) (r : Except ParseError Tokens) : Except ParseError Tokens :=
  (r.map (·.shift n)).mapError (·.shift n)

theorem shiftResult_cons (t : Token) (r : Except ParseError Tokens) :
    shiftResult n (r.map (cons t)) = (shiftResult n r).map (cons (t.shift n)) := by
  cases r <;> rfl

/-- Where a text stands decides nothing but the places in it. -/
theorem scanFrom_shift (st : State) :
    scanFrom lets (st.shift n) (l.shift n) x = shiftResult n (scanFrom lets st l x) := by
  -- Over the characters, from every state: a shift moves the places that the state has kept as
  -- well.
  induction x generalizing st l with
  | nil => cases st <;> rfl
  | cons c x ih =>
    have next (st' : State) {st'' : State} (hst : st'.shift n = st'') :
        scanFrom lets st'' ((l.shift n).after c) x =
          shiftResult n (scanFrom lets st' (l.after c) x) := by
      rw [Location.shift_after, ← hst, ih]
    cases st with
    | inside m => exact next (.afterFirst m) (State.shift_afterFirst m)
    | opening newline opened => exact next (.blockComment newline opened) rfl
    | closing newline => exact next (.blank newline) rfl
    | lineComment newline =>
      rw [State.shift, scanFrom_lineComment, scanFrom_lineComment]
      exact next _ (by split <;> rfl)
    | blockComment newline opened =>
      rw [State.shift, scanFrom_blockComment, scanFrom_blockComment]
      split
      · exact next (.closing newline) rfl
      · exact next (.blockComment (newline || c = '\n') opened) rfl
    | blank newline =>
      rw [State.shift, scanFrom_blank, scanFrom_blank]
      split_ifs
      · exact next (.blank true) rfl
      · exact next (.blank newline) rfl
      · exact next (.lineComment newline) rfl
      · exact next (.opening newline l) rfl
      · cases lexeme lets c x with
        | ok r =>
          dsimp only
          rw [next _ (State.shift_afterFirst r.2), shiftResult_cons]
          rfl
        | error e =>
          dsimp only
          rw [Location.shift_advance]
          rfl

/-- That a line has ended since the last token is only seen at the next one. -/
theorem scanFrom_onNewLine (st : State) (hst : st.isInside = false) :
    scanFrom lets st.onNewLine l x = (scanFrom lets st l x).map (·.onNewLine) := by
  induction x generalizing st l with
  | nil => cases st <;> first | rfl | cases hst
  | cons c x ih =>
    cases st with
    | inside m => cases hst
    | opening newline opened => exact ih (.blockComment newline opened) rfl
    | closing newline => exact ih (.blank newline) rfl
    | lineComment newline =>
      rw [State.onNewLine, scanFrom_lineComment, scanFrom_lineComment]
      split
      · exact ih (.blank true) rfl
      · exact ih (.lineComment newline) rfl
    | blockComment newline opened =>
      rw [State.onNewLine, scanFrom_blockComment, scanFrom_blockComment, Bool.true_or]
      split
      · exact ih (.closing newline) rfl
      · exact ih (.blockComment (newline || c = '\n') opened) rfl
    | blank newline =>
      rw [State.onNewLine, scanFrom_blank, scanFrom_blank]
      split_ifs
      · exact ih (.blank true) rfl
      · exact ih (.blank newline) rfl
      · exact ih (.lineComment newline) rfl
      · exact ih (.opening newline l) rfl
      · cases lexeme lets c x with
        | ok r =>
          dsimp only
          cases scanFrom lets (.afterFirst r.2) (l.after c) x <;> rfl
        | error e => rfl

/-- The tokens of a text end where the text does. -/
theorem finish_of_scanFrom {st : State} {ts : Tokens} (h : scanFrom lets st l x = .ok ts) :
    ts.finish = l.advance x := by
  induction x generalizing st l ts with
  | nil => cases st <;> cases h <;> rfl
  | cons c x ih =>
    cases st with
    | blank newline =>
      rw [scanFrom_blank] at h
      split_ifs at h
      iterate 4 exact ih h
      cases hread : lexeme lets c x with
      | error e => simp [hread] at h
      | ok r =>
        rw [hread] at h
        dsimp only at h
        cases hus : scanFrom lets (.afterFirst r.2) (l.after c) x with
        | error e => simp [hus, Except.map] at h
        | ok us =>
          rw [hus] at h
          obtain rfl := Except.ok.inj h
          exact (ih hus : us.finish = _)
    | blockComment newline opened =>
      rw [scanFrom_blockComment] at h
      split_ifs at h <;> exact ih h
    | _ => exact ih h

end Scan

namespace Tokens

variable {lets : Bool} {k : Nat} {s : String} {ts : Tokens}

/-- Splitting a source into tokens goes on line by line. If whole lines can be split, then whatever
text follows them is split as if it stood alone, in the lines and behind the bytes that it has
there, and its first token stands behind a line break. -/
theorem ofSource_append (hline : s.toList.getLast? = some '\n') (hs : ofSource lets k s = .ok ts)
    (t : String) :
    ofSource lets k (s ++ t) =
      ((ofSource lets (k + s.toList.count '\n') t).map fun us =>
        (us.shift s.utf8ByteSize).onNewLine.behind ts.items).mapError (·.shift s.utf8ByteSize) := by
  have hscan := Scan.scanFrom_extends lets s.toList (.blank false) (.start k) rfl
  unfold Scan.Extends at hscan
  unfold ofSource at hs ⊢
  rw [hs] at hscan
  obtain ⟨st, -, -, hst, hmore⟩ := hscan
  obtain rfl := hst hline
  have hfinish : ts.finish = (Location.start (k + s.toList.count '\n')).shift s.utf8ByteSize := by
    rw [Scan.finish_of_scanFrom hs, Location.advance_start hline, Text.byteSize_toList]
  have hrest : Scan.scanFrom lets (.blank true) ts.finish t.toList =
      (Scan.shiftResult s.utf8ByteSize (Scan.scanFrom lets (.blank false)
        (.start (k + s.toList.count '\n')) t.toList)).map (·.onNewLine) := by
    rw [hfinish, ← Scan.scanFrom_shift]
    exact Scan.scanFrom_onNewLine (.blank false) rfl
  rw [String.toList_append, hmore t.toList (.inr (.inl hline)), hrest]
  cases Scan.scanFrom lets (.blank false) (.start (k + s.toList.count '\n')) t.toList <;> rfl

theorem ofSource_append_name :
    "a /* é */ // é\n".toList.getLast? = some '\n' ∧
      ∃ ts, ofSource true 5 "a /* é */ // é\n" = .ok ts ∧
        ofSource true 5 ("a /* é */ // é\n" ++ " b") = .ok (
          (⟨[⟨.name "b", ⟨6, 2, 18⟩, true⟩], ⟨6, 3, 19⟩, false⟩ : Tokens).behind ts.items) := by
  obtain ⟨ts, hs⟩ : ∃ ts, ofSource true 5 "a /* é */ // é\n" = .ok ts := ⟨_, rfl⟩
  refine ⟨by decide, ts, hs, ?_⟩
  rw [ofSource_append (by decide) hs]
  rfl

end Tokens

end ScriptShell
