import ScriptShell.Proofs.Location
import ScriptShell.Proofs.Token.Extension

namespace ScriptShell

def Location.IsIn (l : Location) (text : List Char) (place : Location) : Prop :=
  ∃ front back, text = front ++ back ∧ place = l.advance front

namespace Scan

variable {lets : Bool} {ok : Location → Prop} {l : Location} {c : Char} {x : List Char}

def State.Sited (ok : Location → Prop) : State → Prop
  | .opening _ opened | .blockComment _ opened => ok opened
  | _ => True

theorem State.sited_afterFirst (n : Nat) : (afterFirst n).Sited ok := by
  cases n <;> trivial

def Sited (ok : Location → Prop) : Except ParseError Tokens → Prop
  | .ok ts => (∀ t ∈ ts.items, ok t.place) ∧ ok ts.finish
  | .error e => ok e.place

theorem Sited.cons {t : Token} {r : Except ParseError Tokens} (ht : ok t.place) (h : Sited ok r) :
    Sited ok (r.map (Scan.cons t)) := by
  cases r with
  | ok ts => exact ⟨List.forall_mem_cons.mpr ⟨ht, h.1⟩, h.2⟩
  | error e => exact h

/-- If every place in a text is `ok`, then so is every place that the scanner names. -/
theorem scanFrom_sited {st : State} (hst : st.Sited ok) (h : ∀ place, l.IsIn x place → ok place) :
    Sited ok (scanFrom lets st l x) := by
  have hl : ok l := h l ⟨[], x, rfl, rfl⟩
  induction x generalizing st l with
  | nil =>
    cases st with
    | opening newline opened | blockComment newline opened => exact hst
    | _ => exact ⟨nofun, hl⟩
  | cons c x ih =>
    have next {st' : State} (hst' : st'.Sited ok) : Sited ok (scanFrom lets st' (l.after c) x) := by
      refine ih hst' (fun place ⟨front, back, hx, hplace⟩ => ?_) ?_
      · exact h place ⟨c :: front, back, congrArg (c :: ·) hx, hplace⟩
      · exact h _ ⟨[c], x, rfl, rfl⟩
    cases st with
    | inside n => exact next (State.sited_afterFirst n)
    | opening newline opened => exact next hst
    | closing newline => exact next trivial
    | lineComment newline =>
      rw [scanFrom_lineComment]
      split <;> exact next trivial
    | blockComment newline opened =>
      rw [scanFrom_blockComment]
      split
      · exact next trivial
      · exact next hst
    | blank newline =>
      rw [scanFrom_blank]
      split_ifs
      · exact next trivial
      · exact next trivial
      · exact next trivial
      · exact next hl
      · cases lexeme lets c x with
        | ok r => exact (next (State.sited_afterFirst r.2)).cons hl
        | error e => exact h _ ⟨(c :: x).take e.2, (c :: x).drop e.2, by simp, rfl⟩

end Scan

end ScriptShell
