import ScriptShell.Proofs.Location
import ScriptShell.Proofs.Token.Spelling

namespace ScriptShell

namespace Text

variable {c d : Char} {x y : List Char}

/-- The text with a carriage return in front of every line break. -/
def withReturns (text : List Char) : List Char :=
  text.flatMap fun c => if c = '\n' then ['\r', '\n'] else [c]

@[simp] theorem withReturns_nil : withReturns [] = [] := rfl

@[simp] theorem withReturns_newline : withReturns ('\n' :: x) = '\r' :: '\n' :: withReturns x := rfl

theorem withReturns_cons (hc : c ≠ '\n') : withReturns (c :: x) = c :: withReturns x := by
  simp [withReturns, hc]

@[simp] theorem withReturns_append : withReturns (x ++ y) = withReturns x ++ withReturns y :=
  List.flatMap_append

theorem withReturns_eq_self (hx : '\n' ∉ x) : withReturns x = x := by
  induction x with
  | nil => rfl
  | cons c x ih =>
    rw [List.mem_cons, not_or] at hx
    rw [withReturns_cons (Ne.symm hx.1), ih hx.2]

theorem head?_withReturns (hd : d ≠ '\n') (hd' : d ≠ '\r') :
    ((withReturns x).head? = some d) = (x.head? = some d) := by
  cases x with
  | nil => rfl
  | cons c x =>
    by_cases hc : c = '\n'
    · subst hc
      simp [hd.symm, hd'.symm]
    · rw [withReturns_cons hc]
      rfl

end Text

namespace Location

variable {k : Nat} {l : Location} {c : Char} {x : List Char}

/-- The same place if each line from line `k` on takes one byte more. -/
def withReturns (k : Nat) (l : Location) : Location :=
  { l with offset := l.offset + (l.line - k) }

theorem withReturns_start : (start k).withReturns k = start k := by
  simp [withReturns, start]

theorem withReturns_after (hc : c ≠ '\n') :
    (l.after c).withReturns k = (l.withReturns k).after c := by
  simp only [after, hc, if_false, withReturns, Location.mk.injEq, true_and]
  omega

theorem withReturns_after_newline (hl : k ≤ l.line) :
    (l.after '\n').withReturns k = ((l.withReturns k).after '\r').after '\n' := by
  have hsize : '\n'.utf8Size = 1 ∧ '\r'.utf8Size = 1 := by decide
  simp only [after, if_true, Char.reduceEq, if_false, withReturns, hsize, Location.mk.injEq,
    true_and]
  omega

theorem le_line_advance (hl : k ≤ l.line) : k ≤ (l.advance x).line := by
  rw [line_advance]
  omega

theorem le_line_after (hl : k ≤ l.line) : k ≤ (l.after c).line :=
  le_line_advance (x := [c]) hl

theorem withReturns_advance (hx : '\n' ∉ x) :
    (l.advance x).withReturns k = (l.withReturns k).advance x := by
  induction x generalizing l with
  | nil => rfl
  | cons c x ih =>
    rw [List.mem_cons, not_or] at hx
    rw [advance_cons, ih hx.2, withReturns_after (Ne.symm hx.1), advance_cons]

end Location

def Token.withReturns (k : Nat) (t : Token) : Token :=
  { t with place := t.place.withReturns k }

/-- The same tokens if each line from line `k` on takes one byte more. -/
def Tokens.withReturns (k : Nat) (ts : Tokens) : Tokens :=
  { ts with items := ts.items.map (·.withReturns k), finish := ts.finish.withReturns k }

namespace Scan

open Text

variable {lets : Bool} {c q : Char} {x y z : List Char} {n k : Nat} {l : Location}
  {kind : TokenKind}

def BodyReturns (q : Char) (x : List Char) : Prop :=
  ∀ r, stringBody q x = .ok r → stringBody q (withReturns x) =
    if '\n' ∈ x.take r.2 then .error .unterminatedString else .ok r

namespace BodyReturns

theorem of_error {fault : ParseFault} (h : stringBody q x = .error fault) : BodyReturns q x := by
  intro r hr
  rw [h] at hr
  cases hr

theorem step {chars : List Char} (hx : '\n' ∉ x)
    (h : ∀ t, stringBody q (x ++ t) = (stringBody q t).map (prepend chars x.length))
    (ih : BodyReturns q y) : BodyReturns q (x ++ y) := by
  intro r hr
  rw [h] at hr
  cases hy : stringBody q y with
  | error fault =>
    rw [hy] at hr
    cases hr
  | ok s =>
    rw [hy] at hr
    obtain rfl := Except.ok.inj hr
    have hmem : ('\n' ∈ (x ++ y).take (x.length + s.2)) = ('\n' ∈ y.take s.2) := by
      rw [List.take_length_add_append, List.mem_append]
      simp [hx]
    rw [withReturns_append, withReturns_eq_self hx, h, ih s hy]
    simp only [prepend, hmem]
    split <;> rfl

end BodyReturns

theorem newline_notMem_of_isHexDigit {ds : List Char} (h : ds.all Text.isHexDigit = true) :
    '\n' ∉ ds := fun hmem => not_all_isHexDigit hmem h

theorem bodyReturns (hline : q ≠ '\n') (hslash : q ≠ '\\') (x : List Char) : BodyReturns q x := by
  -- Along the recursion of the literal. Only an escaped line break reads differently with a return
  -- in front.
  induction x using stringBody.induct q with
  | case1 => exact .of_error rfl
  | case2 rest => exact .of_error (stringBody_newline q rest)
  | case3 rest =>
    intro r hr
    rw [stringBody_quote hline] at hr
    obtain rfl := Except.ok.inj hr
    rw [withReturns_cons hline, stringBody_quote hline, if_neg (by simpa using hline.symm)]
  | case4 => exact .of_error (stringBody_backslash hslash)
  | case5 d₁ d₂ more hhex _ _ ih =>
    have hline := newline_notMem_of_isHexDigit hhex
    refine .step (x := ['\\', 'x', d₁, d₂]) (by simpa using hline)
      (fun t => (stringBody_hex hslash).trans (if_pos hhex)) ih
  | case6 d₁ d₂ more hhex => exact .of_error ((stringBody_hex hslash).trans (if_neg hhex))
  | case7 d₁ d₂ d₃ d₄ more hhex _ _ ih =>
    have hline := newline_notMem_of_isHexDigit hhex
    refine .step (x := ['\\', 'u', d₁, d₂, d₃, d₄]) (by simpa using hline)
      (fun t => (stringBody_unicode hslash).trans (if_pos hhex)) ih
  | case8 d₁ d₂ d₃ d₄ more hhex => exact .of_error ((stringBody_unicode hslash).trans (if_neg hhex))
  | case9 tail hshort =>
    have hshape : stringBody q ('\\' :: 'x' :: tail) = .error .malformedEscape := by
      rw [stringBody.eq_def]
      simp [Ne.symm hslash]
    exact .of_error hshape
  | case10 tail hshort =>
    have hshape : stringBody q ('\\' :: 'u' :: tail) = .error .malformedEscape := by
      rw [stringBody.eq_def]
      simp [Ne.symm hslash]
    exact .of_error hshape
  | case11 more _ _ ih =>
    intro r hr
    rw [stringBody_lineBreak hslash] at hr
    cases hy : stringBody q more with
    | error fault => simp [hy, Except.map] at hr
    | ok s =>
      rw [hy] at hr
      obtain rfl := Except.ok.inj hr
      have hmem : '\n' ∈ ('\\' :: '\n' :: more).take (prepend [] 2 s).2 := by
        rw [prepend, Nat.add_comm]
        simp
      rw [withReturns_cons (by decide), withReturns_newline,
        stringBody_escape hslash (by decide) (by decide) (by decide), stringBody_newline,
        if_pos hmem]
      rfl
  | case12 e more _ _ hx hu he _ _ ih =>
    exact .step (x := ['\\', e]) (by simpa using Ne.symm he)
      (fun t => stringBody_escape hslash hx hu he) ih
  | case13 c rest hc hq hback ih =>
    exact .step (x := [c]) (by simpa using Ne.symm hc) (fun t => stringBody_plain hq hback hc) ih

theorem lexeme_withReturns (hq : isQuote c = false) (hc : c ≠ '\n') :
    lexeme lets c (withReturns x) = lexeme lets c x := by
  by_cases hx : '\n' ∈ x
  · obtain ⟨y, z, rfl, hy⟩ := List.eq_append_cons_of_mem hx
    have hreturn : Parted (c :: y) ('\r' :: '\n' :: withReturns z) :=
      .inr ⟨_, _, rfl, .inr (.inr rfl)⟩
    have hnewline : Parted (c :: y) ('\n' :: z) := .inr ⟨_, _, rfl, .inr (.inl rfl)⟩
    rw [withReturns_append, withReturns_eq_self hy, withReturns_newline,
      lexeme_append hq hc hreturn, lexeme_append hq hc hnewline]
  · rw [withReturns_eq_self hx]

theorem lexeme_ok_withReturns (hc : c ≠ '\n') (h : lexeme lets c x = .ok (kind, n)) :
    lexeme lets c (withReturns x) =
      if '\n' ∈ x.take n then .error (.unterminatedString, 0) else .ok (kind, n) := by
  cases hq : isQuote c with
  | false =>
    obtain ⟨y, z, rfl, rfl, hy⟩ := breakFree_lexeme hq h
    rw [lexeme_withReturns hq hc, h, List.take_left, if_neg hy]
  | true =>
    rw [lexeme_quote hq] at h ⊢
    cases hr : stringBody c x with
    | error fault => simp [hr, Except.map, Except.mapError] at h
    | ok r =>
      rw [hr] at h
      obtain ⟨rfl, rfl⟩ := Prod.mk.inj (Except.ok.inj h)
      rw [bodyReturns (isQuote_ne hq).1 (isQuote_ne hq).2 x r hr]
      split <;> rfl

theorem Begins.withReturns (h : Begins c x) : Begins c (withReturns x) := by
  refine ⟨h.notLine, h.notBlank, ?_, ?_⟩
  · simpa only [head?_withReturns (d := '/') (by decide) (by decide)] using h.notLineComment
  · simpa only [head?_withReturns (d := '*') (by decide) (by decide)] using h.notBlockComment

/-- The state with the comment in it opened at the same place behind carriage returns. -/
def State.withReturns (k : Nat) : State → State
  | .opening newline opened => .opening newline (opened.withReturns k)
  | .blockComment newline opened => .blockComment newline (opened.withReturns k)
  | .blank newline => .blank newline
  | .lineComment newline => .lineComment newline
  | .closing newline => .closing newline
  | .inside m => .inside m

def returned (k : Nat) (broken : Token → Bool) (ts : Tokens) : Except ParseError Tokens :=
  match ts.items.find? broken with
  | none => .ok (ts.withReturns k)
  | some t => .error ⟨.unterminatedString, t.place.withReturns k, false⟩

def Breaks (lets : Bool) (broken : Token → Bool) (l : Location) (x : List Char) (ts : Tokens) :
    Prop :=
  ∀ t ∈ ts.items, ∀ front c rest n, x = front ++ c :: rest → Spells lets l front c rest n t →
    broken t = decide ('\n' ∈ rest.take n)

def Returns (lets : Bool) (k : Nat) (broken : Token → Bool) (st : State) (l : Location)
    (x : List Char) : Prop :=
  ∀ ts, scanFrom lets st l x = .ok ts → Breaks lets broken l x ts →
    scanFrom lets (st.withReturns k) (l.withReturns k) (withReturns x) = returned k broken ts

variable {broken : Token → Bool} {st st' : State} {newline : Bool} {opened : Location} {t : Token}
  {ts : Tokens}

theorem Breaks.behind {items : List Token}
    (h : Breaks lets broken l (y ++ z) (ts.behind items)) :
    Breaks lets broken (l.advance y) z ts := by
  rintro t ht front c rest n rfl hspells
  refine h t (List.mem_append_right _ ht) (y ++ front) c rest n (List.append_assoc ..).symm
    ⟨?_, hspells.reads⟩
  rw [hspells.place, Location.advance_append]

theorem returned_behind (ht : broken t = false) :
    returned k broken (ts.behind [t]) =
      (returned k broken ts).map (·.behind [t.withReturns k]) := by
  have hfind : (ts.behind [t]).items.find? broken = ts.items.find? broken :=
    List.find?_cons_of_neg (by simp [ht])
  unfold returned
  rw [hfind]
  split <;> rfl

theorem returned_broken (ht : broken t = true) :
    returned k broken (ts.behind [t]) =
      .error ⟨.unterminatedString, t.place.withReturns k, false⟩ := by
  have hfind : (ts.behind [t]).items.find? broken = some t := List.find?_cons_of_pos ht
  unfold returned
  rw [hfind]

namespace Returns

theorem front (y : List Char) (h : scanFrom lets st l (y ++ z) = scanFrom lets st' (l.advance y) z)
    (h' : scanFrom lets (st.withReturns k) (l.withReturns k) (withReturns (y ++ z)) =
      scanFrom lets (st'.withReturns k) ((l.advance y).withReturns k) (withReturns z))
    (ih : Returns lets k broken st' (l.advance y) z) : Returns lets k broken st l (y ++ z) := by
  intro ts hts hbreaks
  rw [h']
  have hbehind : Breaks lets broken l (y ++ z) (ts.behind []) := hbreaks
  exact ih ts (h ▸ hts) hbehind.behind

theorem lineBreak (hl : k ≤ l.line)
    (h : ∀ l x, scanFrom lets st l ('\n' :: x) = scanFrom lets st' (l.after '\n') x)
    (h' : ∀ l x, scanFrom lets (st.withReturns k) l ('\r' :: '\n' :: x) =
      scanFrom lets (st'.withReturns k) ((l.after '\r').after '\n') x)
    (ih : Returns lets k broken st' (l.after '\n') x) :
    Returns lets k broken st l ('\n' :: x) := by
  refine front ['\n'] (h l x) ?_ ih
  rw [List.singleton_append, withReturns_newline, h', Location.advance_cons, Location.advance_nil,
    Location.withReturns_after_newline hl]

theorem step (hc : c ≠ '\n') (h : scanFrom lets st l (c :: x) = scanFrom lets st' (l.after c) x)
    (h' : scanFrom lets (st.withReturns k) (l.withReturns k) (c :: withReturns x) =
      scanFrom lets (st'.withReturns k) ((l.withReturns k).after c) (withReturns x))
    (ih : Returns lets k broken st' (l.after c) x) : Returns lets k broken st l (c :: x) := by
  refine front [c] h ?_ ih
  rw [List.singleton_append, withReturns_cons hc, h', Location.advance_cons, Location.advance_nil,
    Location.withReturns_after hc]

/-- A token and what follows it. -/
theorem token (h : Begins c x) (hread : lexeme lets c x = .ok (kind, n)) (hl : k ≤ l.line)
    (ih : ∀ z, z.length ≤ x.length → ∀ l, k ≤ l.line → Returns lets k broken (.blank false) l z) :
    Returns lets k broken (.blank newline) l (c :: x) := by
  obtain ⟨y, z, rfl, rfl, -⟩ := lexeme_front hread
  intro ts hts hbreaks
  rw [h.scanFrom_ok hread, scanFrom_afterFirst] at hts
  cases hus : scanFrom lets (.blank false) ((l.after c).advance y) z with
  | error e => simp [hus, Except.map] at hts
  | ok us =>
    rw [hus] at hts
    obtain rfl := Except.ok.inj hts
    have hbroken := hbreaks _ List.mem_cons_self [] c _ _ rfl ⟨rfl, hread⟩
    have hread' := lexeme_ok_withReturns h.ne_newline hread
    rw [List.take_left] at hbroken hread'
    rw [State.withReturns, withReturns_cons h.ne_newline]
    by_cases hy : '\n' ∈ y
    · rw [if_pos hy] at hread'
      rw [h.withReturns.scanFrom_error hread', returned_broken (by simpa [hy] using hbroken)]
      rfl
    · rw [if_neg hy] at hread'
      have hline : k ≤ ((l.after c).advance y).line := Location.le_line_advance (x := c :: y) hl
      have hrest := ih z (by simp) _ hline us hus (hbreaks.behind (y := c :: y))
      rw [h.withReturns.scanFrom_ok hread', withReturns_append, withReturns_eq_self hy,
        scanFrom_afterFirst, returned_behind (by simpa [hy] using hbroken), ← hrest,
        Location.withReturns_advance hy, Location.withReturns_after h.ne_newline]
      rfl

open Extends (isResting exists_of_marks)

section Steps

variable (hl : k ≤ l.line) (ih : ∀ z, z.length ≤ x.length → ∀ st l, isResting st = true →
  k ≤ l.line → Returns lets k broken st l z)

include hl ih

theorem blank : Returns lets k broken (.blank newline) l (c :: x) := by
  have hnext : k ≤ (l.after c).line := Location.le_line_after hl
  by_cases hc : c = '\n'
  · subst hc
    exact .lineBreak hl (fun _ _ => rfl) (fun _ _ => rfl)
      (ih x (Nat.le_refl _) (.blank true) _ rfl hnext)
  by_cases hline : (c = '\n' || c = '\r') = true
  · refine step hc ?_ ?_ (ih x (Nat.le_refl _) (.blank true) _ rfl hnext)
    · rw [scanFrom_blank, if_pos hline]
    · rw [State.withReturns, scanFrom_blank, if_pos hline]
      rfl
  by_cases hblank : Text.isBlank c = true
  · refine step hc ?_ ?_ (ih x (Nat.le_refl _) (.blank newline) _ rfl hnext)
    · rw [scanFrom_blank, if_neg hline, if_pos hblank]
    · rw [State.withReturns, scanFrom_blank, if_neg hline, if_pos hblank]
  by_cases hlineComment : (c = '/' && x.head? = some '/') = true
  · obtain ⟨rfl, x, rfl⟩ := exists_of_marks hlineComment
    exact step hc rfl rfl (ih _ (Nat.le_refl _) (.lineComment newline) _ rfl hnext)
  by_cases hblockComment : (c = '/' && x.head? = some '*') = true
  · obtain ⟨rfl, x, rfl⟩ := exists_of_marks hblockComment
    refine front ['/', '*'] rfl ?_ (ih x (by simp) (.blockComment newline l) _ rfl ?_)
    · rw [Location.withReturns_advance (by decide)]
      rfl
    · exact Location.le_line_advance hl
  simp only [Bool.not_eq_true] at hline hblank hlineComment hblockComment
  have h : Begins c x := ⟨hline, hblank, hlineComment, hblockComment⟩
  cases hread : lexeme lets c x with
  | ok r => exact token h hread hl fun z hz l hl => ih z hz (.blank false) l rfl hl
  | error e =>
    intro ts hts
    rw [h.scanFrom_error hread] at hts
    cases hts

theorem lineComment : Returns lets k broken (.lineComment newline) l (c :: x) := by
  have hnext : k ≤ (l.after c).line := Location.le_line_after hl
  by_cases hc : c = '\n'
  · subst hc
    exact .lineBreak hl (fun _ _ => rfl) (fun _ _ => rfl)
      (ih x (Nat.le_refl _) (.blank true) _ rfl hnext)
  · refine step hc ?_ ?_ (ih x (Nat.le_refl _) (.lineComment newline) _ rfl hnext)
    · rw [scanFrom_lineComment, if_neg hc]
    · rw [State.withReturns, scanFrom_lineComment, if_neg hc]

theorem blockComment : Returns lets k broken (.blockComment newline opened) l (c :: x) := by
  have hnext : k ≤ (l.after c).line := Location.le_line_after hl
  by_cases hc : c = '\n'
  · subst hc
    refine .lineBreak hl (fun _ _ => rfl) (fun _ _ => ?_)
      (ih x (Nat.le_refl _) (.blockComment (newline || true) opened) _ rfl hnext)
    simp [State.withReturns, scanFrom_blockComment]
  by_cases hclose : (c = '*' && x.head? = some '/') = true
  · obtain ⟨rfl, x, rfl⟩ := exists_of_marks hclose
    refine front ['*', '/'] rfl ?_ (ih x (by simp) (.blank newline) _ rfl ?_)
    · rw [Location.withReturns_advance (by decide)]
      rfl
    · exact Location.le_line_advance hl
  · refine step hc ?_ ?_
      (ih x (Nat.le_refl _) (.blockComment (newline || c = '\n') opened) _ rfl hnext)
    · rw [scanFrom_blockComment, if_neg hclose]
    · rw [State.withReturns, scanFrom_blockComment, if_neg]
      · rfl
      · simpa only [head?_withReturns (d := '/') (by decide) (by decide)] using hclose

end Steps

end Returns

theorem scanFrom_returns (lets : Bool) (k : Nat) (broken : Token → Bool) (x : List Char) :
    ∀ st l, Extends.isResting st = true → k ≤ l.line → Returns lets k broken st l x := by
  -- By the length of the text: a token and the marks of a comment take several characters at once.
  induction hn : x.length using Nat.strong_induction_on generalizing x with
  | _ n ih =>
    intro st l hst hl
    cases x with
    | nil =>
      intro ts hts _
      cases st with
      | blank newline | lineComment newline =>
        obtain rfl := Except.ok.inj hts
        rfl
      | blockComment newline opened => cases hts
      | _ => cases hst
    | cons c x =>
      have ih (z : List Char) (hz : z.length ≤ x.length) :=
        ih z.length (by rw [← hn, List.length_cons]; omega) z rfl
      cases st with
      | blank => exact .blank hl ih
      | lineComment => exact .lineComment hl ih
      | blockComment => exact .blockComment hl ih
      | _ => cases hst

end Scan

namespace Tokens

variable {lets : Bool} {k : Nat} {source : String} {ts : Tokens}

/-- A source in which every line break is preceded by a carriage return has the same tokens, in the
same lines and columns and with the same line breaks in front of them, behind one more byte for each
line; unless a token goes on behind a line break. The first one that does is a string literal that
is then not closed. -/
theorem ofSource_withReturns (h : ofSource lets k source = .ok ts) :
    ofSource lets k (String.ofList (Text.withReturns source.toList)) =
      match ts.items.find? fun t => (t.spelling lets source).contains '\n' with
      | none => .ok (ts.withReturns k)
      | some t => .error ⟨.unterminatedString, t.place.withReturns k, false⟩ := by
  -- The tokens that hold a line break are found in the source by their spelling.
  have hbreaks : Scan.Breaks lets (fun t => (t.spelling lets source).contains '\n') (.start k)
      source.toList ts := by
    intro t ht front c rest n hsource hspells
    have hc : c ≠ '\n' := by
      rintro rfl
      cases hspells.reads
    dsimp only
    rw [spelling_of_spells hsource hspells, Bool.eq_iff_iff]
    simp [Ne.symm hc]
  have hreturns := Scan.scanFrom_returns lets k _ source.toList (.blank false) (.start k) rfl
    (Nat.le_refl k) ts h hbreaks
  rw [Location.withReturns_start] at hreturns
  unfold ofSource
  rw [String.toList_ofList]
  exact hreturns

/-- A line break in a comment, one behind a comment, and one in a string literal. -/
theorem ofSource_withReturns_lines :
    (∃ ts, ofSource true 3 "a /*\n*/ b // é\n" = .ok ts ∧
      ofSource true 3 "a /*\r\n*/ b // é\r\n" = .ok (ts.withReturns 3)) ∧
    ∃ ts, ofSource true 1 "'\\\nb'" = .ok ts ∧
      ofSource true 1 "'\\\r\nb'" = .error ⟨.unterminatedString, ⟨1, 1, 0⟩, false⟩ := by
  have hcomments : String.ofList (Text.withReturns "a /*\n*/ b // é\n".toList) =
      "a /*\r\n*/ b // é\r\n" := by decide +kernel
  have hliteral : String.ofList (Text.withReturns "'\\\nb'".toList) = "'\\\r\nb'" := by
    decide +kernel
  have hnames : ofSource true 3 "a /*\n*/ b // é\n" = .ok ⟨[⟨.name "a", ⟨3, 1, 0⟩, false⟩,
      ⟨.name "b", ⟨4, 4, 8⟩, true⟩], ⟨5, 1, 16⟩, true⟩ := rfl
  have htext : ofSource true 1 "'\\\nb'" =
      .ok ⟨[⟨.text "b", ⟨1, 1, 0⟩, false⟩], ⟨2, 3, 5⟩, false⟩ := rfl
  have hbroken : ([⟨.text "b", ⟨1, 1, 0⟩, false⟩] : List Token).find?
      (fun t => (t.spelling true "'\\\nb'").contains '\n') =
        some ⟨.text "b", ⟨1, 1, 0⟩, false⟩ := rfl
  refine ⟨⟨_, hnames, ?_⟩, _, htext, ?_⟩
  · rw [← hcomments, ofSource_withReturns hnames]
    rfl
  · rw [← hliteral, ofSource_withReturns htext, hbroken]
    rfl

end Tokens

end ScriptShell
