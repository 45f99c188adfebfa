import Mathlib.Data.List.Basic
import ScriptShell.Proofs.Token.Lexeme

namespace ScriptShell

/-- Tokens behind others. -/
def Tokens.behind (items : List Token) (ts : Tokens) : Tokens :=
  { ts with items := items ++ ts.items }

namespace Scan

variable {lets newline : Bool} {st st' : State} {l opened : Location} {c : Char}
  {x y t z : List Char} {n : Nat}

/-- A text ends inside a string literal which a quote would close. That it is not closed is the
error. -/
def EndsInText (l : Location) (x : List Char) (e : ParseError) : Prop :=
  ∃ y q body, x = y ++ q :: body ∧ isQuote q = true ∧ (∃ r, stringBody q (body ++ [q]) = .ok r) ∧
    e = ⟨.unterminatedString, l.advance y, false⟩

def commentEnd : List Char :=
  [' ', '*', '/']

/-- What the scanning of a text says about longer texts. -/
def Extends (lets : Bool) (st : State) (l : Location) (x : List Char) : Prop :=
  match scanFrom lets st l x with
  | .ok ts => ∃ st', (st' = .blank ts.newlineAtEnd ∨ st' = .lineComment ts.newlineAtEnd) ∧
      (x = [] → st' = st) ∧ (x.getLast? = some '\n' → st' = .blank true) ∧
      ∀ t, x = [] ∨ Parted x t →
        scanFrom lets st l (x ++ t) = (scanFrom lets st' ts.finish t).map (·.behind ts.items)
  | .error e => (e.atEnd = true ∧ ∃ ts, scanFrom lets st l (x ++ commentEnd) = .ok ts) ∨
      e.atEnd = false ∧ (x.getLast? = some '\n' →
        EndsInText l x e ∨ ∀ t, ∃ e', scanFrom lets st l (x ++ t) = .error e')

theorem scanFrom_lineComment :
    scanFrom lets (.lineComment newline) l (c :: x) =
      scanFrom lets (if c = '\n' then .blank true else .lineComment newline) (l.after c) x := rfl

theorem scanFrom_blockComment :
    scanFrom lets (.blockComment newline opened) l (c :: x) =
      if c = '*' && x.head? = some '/' then scanFrom lets (.closing newline) (l.after c) x
      else scanFrom lets (.blockComment (newline || c = '\n') opened) (l.after c) x := rfl

theorem scanFrom_blank :
    scanFrom lets (.blank newline) l (c :: x) =
      if c = '\n' || c = '\r' then scanFrom lets (.blank true) (l.after c) x
      else if Text.isBlank c then scanFrom lets (.blank newline) (l.after c) x
      else if c = '/' && x.head? = some '/' then
        scanFrom lets (.lineComment newline) (l.after c) x
      else if c = '/' && x.head? = some '*' then
        scanFrom lets (.opening newline l) (l.after c) x
      else
        match lexeme lets c x with
        | .ok (kind, n) =>
          (scanFrom lets (.afterFirst n) (l.after c) x).map (cons ⟨kind, l, newline⟩)
        | .error (fault, n) => .error ⟨fault, l.advance ((c :: x).take n), false⟩ := rfl

theorem scanFrom_afterFirst (y x : List Char) :
    scanFrom lets (.afterFirst y.length) l (y ++ x) = scanFrom lets (.blank false) (l.advance y) x := by
  induction y generalizing l with
  | nil => rfl
  | cons c y ih => exact ih

theorem map_behind_nil (r : Except ParseError Tokens) : r.map (·.behind []) = r := by
  cases r <;> rfl

theorem map_behind_behind (items items' : List Token) (r : Except ParseError Tokens) :
    (r.map (·.behind items')).map (·.behind items) = r.map (·.behind (items ++ items')) := by
  cases r with
  | error => rfl
  | ok ts => simp [Except.map, Tokens.behind]

theorem atEnd_of_scanFrom_nil {e : ParseError} (h : scanFrom lets st l [] = .error e) :
    e.atEnd = true := by
  cases st <;> cases h <;> rfl

theorem parted_commentEnd (x : List Char) : Parted x commentEnd :=
  .inr ⟨' ', ['*', '/'], rfl, .inl rfl⟩

namespace Extends

theorem nil_blank : Extends lets (.blank newline) l [] :=
  ⟨_, .inl rfl, fun _ => rfl, nofun,
    fun t _ => (map_behind_nil (scanFrom lets (.blank newline) l t)).symm⟩

theorem nil_lineComment : Extends lets (.lineComment newline) l [] :=
  ⟨_, .inr rfl, fun _ => rfl, nofun,
    fun t _ => (map_behind_nil (scanFrom lets (.lineComment newline) l t)).symm⟩

theorem nil_blockComment : Extends lets (.blockComment newline opened) l [] :=
  .inl ⟨rfl, _, rfl⟩

inductive IsBehindLine : State → Prop where
  | blank : IsBehindLine (.blank true)
  | blockComment (newline : Bool) (opened : Location) : IsBehindLine (.blockComment newline opened)

theorem eq_blank_of_isBehindLine {ts : Tokens} (hst : IsBehindLine st)
    (h : scanFrom lets st l [] = .ok ts) : st = .blank true := by
  cases hst with
  | blank => rfl
  | blockComment => cases h

/-- A first part of the text is scanned, and then the rest of it. -/
theorem front (y : List Char) (items : List Token) (hy : y ≠ [])
    (hend : y.getLast? = some '\n' → IsBehindLine st')
    (h : ∀ t, t = [] ∨ Parted (y ++ z) t → scanFrom lets st l (y ++ (z ++ t)) =
      (scanFrom lets st' (l.advance y) (z ++ t)).map (·.behind items))
    (ih : Extends lets st' (l.advance y) z) : Extends lets st l (y ++ z) := by
  have hz := h [] (.inl rfl)
  rw [List.append_nil] at hz
  unfold Extends at ih ⊢
  rw [hz]
  -- What is read in front is over, so success and failure are those of the rest.
  cases hscan : scanFrom lets st' (l.advance y) z with
  | ok ts =>
    rw [hscan] at ih
    obtain ⟨st'', hst, hnil, hline, hmore⟩ := ih
    refine ⟨st'', hst, fun h => absurd (List.append_eq_nil_iff.mp h).1 hy, fun hlast => ?_,
      fun t ht => ?_⟩
    · by_cases hz' : z = []
      · subst hz'
        rw [List.append_nil] at hlast
        rw [hnil rfl]
        exact eq_blank_of_isBehindLine (hend hlast) hscan
      · exact hline (by rwa [List.getLast?_append_of_ne_nil _ hz'] at hlast)
    have ht := ht.resolve_left (by simp [hy])
    have hparted : z = [] ∨ Parted z t := by
      by_cases hnil : z = []
      · exact .inl hnil
      · refine .inr (ht.imp_left fun hlast => ?_)
        rwa [List.getLast?_append_of_ne_nil _ hnil] at hlast
    rw [List.append_assoc, h t (.inr ht), hmore t hparted, map_behind_behind]
    rfl
  | error e =>
    rw [hscan] at ih
    rcases ih with ⟨he, ts, hts⟩ | ⟨he, hfails⟩
    · refine .inl ⟨he, ts.behind items, ?_⟩
      rw [List.append_assoc, h _ (.inr (parted_commentEnd _)), hts]
      rfl
    · refine .inr ⟨he, fun hlast => ?_⟩
      have hnil : z ≠ [] := by
        rintro rfl
        rw [atEnd_of_scanFrom_nil hscan] at he
        cases he
      have hlast' : z.getLast? = some '\n' := by rwa [List.getLast?_append_of_ne_nil _ hnil] at hlast
      refine (hfails hlast').imp (fun hopen => ?_) fun hfails t => ?_
      · obtain ⟨y', q, body, rfl, hq, hclosed, he⟩ := hopen
        refine ⟨y ++ y', q, body, (List.append_assoc ..).symm, hq, hclosed, ?_⟩
        rw [he, Location.advance_append]
      · obtain ⟨e', he'⟩ := hfails t
        refine ⟨e', ?_⟩
        rw [List.append_assoc, h t (.inr (.inl hlast)), he']
        rfl

theorem step (hend : c = '\n' → IsBehindLine st')
    (h : ∀ t, t = [] ∨ Parted (c :: x) t →
      scanFrom lets st l (c :: (x ++ t)) = scanFrom lets st' (l.after c) (x ++ t))
    (ih : Extends lets st' (l.after c) x) : Extends lets st l (c :: x) := by
  refine front [c] [] (List.cons_ne_nil c []) (fun hlast => hend (Option.some.inj hlast))
    (fun t ht => ?_) ih
  rw [map_behind_nil]
  exact h t ht

theorem exists_of_marks {d d' : Char} (h : (c = d && x.head? = some d') = true) :
    c = d ∧ ∃ x', x = d' :: x' := by
  simp only [Bool.and_eq_true, decide_eq_true_eq] at h
  exact ⟨h.1, x.tail, List.eq_cons_of_mem_head? h.2⟩

theorem head?_append {d : Char} (hspace : d ≠ ' ') (hline : d ≠ '\n') (hreturn : d ≠ '\r')
    (h : t = [] ∨ Parted x t) : ((x ++ t).head? = some d) = (x.head? = some d) := by
  cases x with
  | cons => rfl
  | nil =>
    rcases h with rfl | h
    · rfl
    · obtain ⟨w, t', rfl, rfl | rfl | rfl⟩ := h.nil
      · simp [Ne.symm hspace]
      · simp [Ne.symm hline]
      · simp [Ne.symm hreturn]

end Extends

/-- A token begins with `c` in front of `x`. -/
structure Begins (c : Char) (x : List Char) : Prop where
  notLine : (c = '\n' || c = '\r') = false
  notBlank : Text.isBlank c = false
  notLineComment : (c = '/' && x.head? = some '/') = false
  notBlockComment : (c = '/' && x.head? = some '*') = false

namespace Begins

theorem ne_newline (h : Begins c x) : c ≠ '\n' := by
  rintro rfl
  cases h.notLine

theorem append (h : Begins c x) (ht : t = [] ∨ Parted (c :: x) t) : Begins c (x ++ t) := by
  have ht : t = [] ∨ Parted x t := ht.imp_right fun ht => ht.tail h.ne_newline
  refine ⟨h.notLine, h.notBlank, ?_, ?_⟩
  · simpa only [Extends.head?_append (d := '/') (by decide) (by decide) (by decide) ht]
      using h.notLineComment
  · simpa only [Extends.head?_append (d := '*') (by decide) (by decide) (by decide) ht]
      using h.notBlockComment

theorem scanFrom_ok {k : TokenKind} (h : Begins c x) (hread : lexeme lets c x = .ok (k, n)) :
    scanFrom lets (.blank newline) l (c :: x) =
      (scanFrom lets (.afterFirst n) (l.after c) x).map (·.behind [⟨k, l, newline⟩]) := by
  rw [scanFrom_blank]
  simp only [h.notLine, h.notBlank, h.notLineComment, h.notBlockComment, hread, Bool.false_eq_true,
    if_false]
  rfl

theorem scanFrom_alone {k : TokenKind} (h : Begins c x)
    (hread : lexeme lets c x = .ok (k, x.length)) :
    scanFrom lets (.blank false) l (c :: x) = .ok ⟨[⟨k, l, false⟩], l.advance (c :: x), false⟩ := by
  have hrest : scanFrom lets (.afterFirst x.length) (l.after c) x =
      scanFrom lets (.blank false) ((l.after c).advance x) [] := by
    simpa using scanFrom_afterFirst x []
  rw [h.scanFrom_ok hread, hrest]
  rfl

theorem scanFrom_error {fault : ParseFault} (h : Begins c x)
    (hread : lexeme lets c x = .error (fault, n)) :
    scanFrom lets (.blank newline) l (c :: x) =
      .error ⟨fault, l.advance ((c :: x).take n), false⟩ := by
  rw [scanFrom_blank]
  simp only [h.notLine, h.notBlank, h.notLineComment, h.notBlockComment, hread, Bool.false_eq_true,
    if_false]

end Begins

namespace Extends

theorem token {k : TokenKind} (h : Begins c x) (hread : lexeme lets c x = .ok (k, n))
    (ih : ∀ z, z.length ≤ x.length → ∀ l, Extends lets (.blank false) l z) :
    Extends lets (.blank newline) l (c :: x) := by
  obtain ⟨y, z, rfl, rfl, hy⟩ := lexeme_front hread
  have hend : (c :: y).getLast? ≠ some '\n' := by
    cases y with
    | nil => simpa using h.ne_newline
    | cons c' y => rwa [List.getLast?_cons_cons]
  refine front (c :: y) [⟨k, l, newline⟩] (List.cons_ne_nil c y) (fun hlast => absurd hlast hend)
    (fun t ht => ?_) (ih z (by simp) _)
  have hread' := lexeme_ok_append h.ne_newline ht hread
  rw [List.cons_append, ← List.append_assoc, (h.append ht).scanFrom_ok hread', List.append_assoc,
    scanFrom_afterFirst]
  rfl

theorem fails {e : LexemeError} (h : Begins c x) (hread : lexeme lets c x = .error e) :
    Extends lets (.blank newline) l (c :: x) := by
  obtain ⟨fault, n⟩ := e
  unfold Extends
  rw [h.scanFrom_error hread]
  refine .inr ⟨rfl, fun hlast => ?_⟩
  have hparted (t : List Char) : t = [] ∨ Parted (c :: x) t := .inr (.inl hlast)
  have hx : x.getLast? = some '\n' := by
    cases x with
    | nil => exact absurd (Option.some.inj hlast) h.ne_newline
    | cons c' x => rwa [List.getLast?_cons_cons] at hlast
  rcases lexeme_error_append h.ne_newline hx hread with ⟨hq, he, hclosed⟩ | hfails
  · obtain ⟨rfl, rfl⟩ := Prod.mk.inj he
    exact .inl ⟨[], c, x, rfl, hq, hclosed, rfl⟩
  · refine .inr fun t => ?_
    obtain ⟨e', he'⟩ := hfails t
    exact ⟨_, (h.append (hparted t)).scanFrom_error he'⟩

def isResting : State → Bool
  | .blank _ | .lineComment _ | .blockComment _ _ => true
  | _ => false

theorem blank (ih : ∀ z, z.length ≤ x.length → ∀ st l, isResting st = true → Extends lets st l z) :
    Extends lets (.blank newline) l (c :: x) := by
  by_cases hline : (c = '\n' || c = '\r') = true
  · refine step (fun _ => .blank) (fun t _ => ?_) (ih x (Nat.le_refl _) (.blank true) _ rfl)
    rw [scanFrom_blank, if_pos hline]
  have hne : c ≠ '\n' := by
    rintro rfl
    exact hline rfl
  by_cases hblank : Text.isBlank c = true
  · refine step (fun h => absurd h hne) (fun t _ => ?_)
      (ih x (Nat.le_refl _) (.blank newline) _ rfl)
    rw [scanFrom_blank, if_neg hline, if_pos hblank]
  by_cases hlineComment : (c = '/' && x.head? = some '/') = true
  · obtain ⟨rfl, x, rfl⟩ := exists_of_marks hlineComment
    exact step (fun h => absurd h hne) (fun t _ => rfl)
      (ih _ (Nat.le_refl _) (.lineComment newline) _ rfl)
  by_cases hblockComment : (c = '/' && x.head? = some '*') = true
  · obtain ⟨rfl, x, rfl⟩ := exists_of_marks hblockComment
    refine front ['/', '*'] [] (by simp) (fun _ => .blockComment _ _) (fun t _ => ?_)
      (ih x (by simp) (.blockComment newline l) _ rfl)
    exact (map_behind_nil _).symm
  simp only [Bool.not_eq_true] at hline hblank hlineComment hblockComment
  have h : Begins c x := ⟨hline, hblank, hlineComment, hblockComment⟩
  cases hread : lexeme lets c x with
  | ok r => exact token h hread fun z hz l => ih z hz (.blank false) l rfl
  | error e => exact fails h hread

theorem lineComment
    (ih : ∀ z, z.length ≤ x.length → ∀ st l, isResting st = true → Extends lets st l z) :
    Extends lets (.lineComment newline) l (c :: x) := by
  refine step (fun hc => ?_) (fun t _ => scanFrom_lineComment) (ih x (Nat.le_refl _) _ _ ?_)
  · rw [if_pos hc]
    exact .blank
  · split <;> rfl

theorem blockComment
    (ih : ∀ z, z.length ≤ x.length → ∀ st l, isResting st = true → Extends lets st l z) :
    Extends lets (.blockComment newline opened) l (c :: x) := by
  by_cases hclose : (c = '*' && x.head? = some '/') = true
  · obtain ⟨rfl, x, rfl⟩ := exists_of_marks hclose
    refine front ['*', '/'] [] (by simp) nofun (fun t _ => ?_)
      (ih x (by simp) (.blank newline) _ rfl)
    exact (map_behind_nil _).symm
  · refine step (fun _ => .blockComment _ _) (fun t ht => ?_)
      (ih x (Nat.le_refl _) (.blockComment (newline || c = '\n') opened) _ rfl)
    rw [scanFrom_blockComment, if_neg]
    by_cases hc : c = '*'
    · have hx : t = [] ∨ Parted x t := ht.imp_right fun ht => ht.tail (by rw [hc]; decide)
      simpa only [head?_append (d := '/') (by decide) (by decide) (by decide) hx] using hclose
    · simp [hc]

end Extends

theorem scanFrom_extends (lets : Bool) (x : List Char) :
    ∀ st l, Extends.isResting st = true → Extends lets st l x := by
  induction hn : x.length using Nat.strong_induction_on generalizing x with
  | _ n ih =>
    intro st l hst
    cases x with
    | nil =>
      cases st with
      | blank => exact .nil_blank
      | lineComment => exact .nil_lineComment
      | blockComment => exact .nil_blockComment
      | _ => cases hst
    | cons c x =>
      have ih (z : List Char) (hz : z.length ≤ x.length) :=
        ih z.length (by rw [← hn, List.length_cons]; omega) z rfl
      cases st with
      | blank => exact .blank ih
      | lineComment => exact .lineComment ih
      | blockComment => exact .blockComment ih
      | _ => cases hst

end Scan

end ScriptShell
