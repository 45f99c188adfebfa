import ScriptShell.Proofs.Report.Place
import ScriptShell.Proofs.Token.Extension

namespace ScriptShell

namespace Scan

variable {lets : Bool} {l : Location} {c : Char} {x rest : List Char} {n : Nat} {t : Token}

/-- In a text that begins at `l` the token stands behind `front`, where `c` and `n` characters of
`rest` make it up. -/
structure Spells (lets : Bool) (l : Location) (front : List Char) (c : Char) (rest : List Char)
    (n : Nat) (t : Token) : Prop where
  place : t.place = l.advance front
  reads : lexeme lets c rest = .ok (t.kind, n)

theorem Spells.cons {d : Char} {front : List Char} (h : Spells lets (l.after d) front c rest n t) :
    Spells lets l (d :: front) c rest n t :=
  ⟨h.place, h.reads⟩

/-- Every token of a text is spelled in it. -/
theorem exists_spells {st : State} {ts : Tokens} (h : scanFrom lets st l x = .ok ts) :
    ∀ t ∈ ts.items, ∃ front c rest n, x = front ++ c :: rest ∧ Spells lets l front c rest n t := by
  induction x generalizing st l ts with
  | nil =>
    cases st <;> cases h <;> exact fun _ ht => nomatch ht
  | cons d x ih =>
    have next {st' : State} {us : Tokens} (hus : scanFrom lets st' (l.after d) x = .ok us) :
        ∀ t ∈ us.items, ∃ front c rest n,
          d :: x = front ++ c :: rest ∧ Spells lets l front c rest n t := by
      intro t ht
      obtain ⟨front, c, rest, n, rfl, hspells⟩ := ih hus t ht
      exact ⟨d :: front, c, rest, n, rfl, hspells.cons⟩
    cases st with
    | blank newline =>
      rw [scanFrom_blank] at h
      split_ifs at h
      iterate 4 exact next h
      cases hread : lexeme lets d x with
      | error e => simp [hread] at h
      | ok r =>
        rw [hread] at h
        dsimp only at h
        cases hus : scanFrom lets (.afterFirst r.2) (l.after d) x with
        | error e => simp [hus, Except.map] at h
        | ok us =>
          rw [hus] at h
          obtain rfl := Except.ok.inj h
          refine List.forall_mem_cons.mpr ⟨?_, next hus⟩
          exact ⟨[], d, x, r.2, rfl, rfl, hread⟩
    | blockComment newline opened =>
      rw [scanFrom_blockComment] at h
      split_ifs at h <;> exact next h
    | _ => exact next h

end Scan

/-- The characters that a token of a source is spelled with. -/
def Token.spelling (lets : Bool) (source : String) (t : Token) : List Char :=
  match (Text.splitAtByte t.place.offset source.toList).2 with
  | [] => []
  | c :: rest =>
    match Scan.lexeme lets c rest with
    | .ok (_, n) => c :: rest.take n
    | .error _ => []

namespace Tokens

variable {lets : Bool} {k : Nat} {source : String} {ts : Tokens} {t : Token}

theorem spelling_of_spells {front rest : List Char} {c : Char} {n : Nat}
    (hsource : source.toList = front ++ c :: rest)
    (h : Scan.Spells lets (.start k) front c rest n t) :
    t.spelling lets source = c :: rest.take n := by
  have hoffset : t.place.offset = Text.byteSize front := by
    rw [h.place, Location.offset_advance]
    exact Nat.zero_add _
  unfold Token.spelling
  rw [hoffset, hsource, Text.splitAtByte_byteSize]
  simp only [h.reads]

theorem exists_spelling (h : ofSource lets k source = .ok ts) (ht : t ∈ ts.items) :
    ∃ front c rest n, source.toList = front ++ c :: rest ∧
      Scan.Spells lets (.start k) front c rest n t ∧ t.spelling lets source = c :: rest.take n := by
  obtain ⟨front, c, rest, n, hsource, hspells⟩ := Scan.exists_spells h t ht
  exact ⟨front, c, rest, n, hsource, hspells, spelling_of_spells hsource hspells⟩

end Tokens

end ScriptShell
