import ScriptShell.Proofs.Number.Digits
import ScriptShell.Proofs.Token.Spelling

namespace ScriptShell

def hexDigits : List Char :=
  "0123456789abcdefABCDEF".toList

abbrev HexDigit : Type :=
  { c : Char // c ∈ hexDigits }

def HexDigit.value (d : HexDigit) : Nat :=
  let place := hexDigits.idxOf d.1
  if place < 16 then place else place - 6

theorem digit?_hexDigit (d : HexDigit) : Text.digit? 16 d.1 = some d.value := by
  have hall : hexDigits.all fun c => decide (Text.digit? 16 c =
      some (if hexDigits.idxOf c < 16 then hexDigits.idxOf c else hexDigits.idxOf c - 6)) := by
    decide
  exact of_decide_eq_true (List.all_eq_true.mp hall d.1 d.2)

theorem HexDigit.value_lt (d : HexDigit) : d.value < 16 := by
  have hall : hexDigits.all fun c => decide ((if hexDigits.idxOf c < 16 then hexDigits.idxOf c
      else hexDigits.idxOf c - 6) < 16) := by decide
  exact of_decide_eq_true (List.all_eq_true.mp hall d.1 d.2)

theorem isHexDigit_hexDigit (d : HexDigit) : Text.isHexDigit d.1 = true := by
  rw [Text.isHexDigit, digit?_hexDigit]
  rfl

theorem mem_hexDigits {c : Char} (h : Text.isHexDigit c = true) : c ∈ hexDigits := by
  have hsmall : ∀ n < 128, Text.isHexDigit (Char.ofNat n) → Char.ofNat n ∈ hexDigits := by
    decide +kernel
  have hc : c.toNat < 128 := by
    have hrange := Number.toNat_of_isHexDigit h
    omega
  have := hsmall c.toNat hc
  rw [Char.ofNat_toNat] at this
  exact this h

/-- A piece of a literal between such quotes. -/
inductive Segment (q : Char) where
  | plain (c : Char) (hquote : c ≠ q) (hslash : c ≠ '\\') (hline : c ≠ '\n')
  /-- A backslash and the character behind it. -/
  | escape (c : Char) (hx : c ≠ 'x') (hu : c ≠ 'u')
  | byte (d₁ d₂ : HexDigit)
  | code (d₁ d₂ d₃ d₄ : HexDigit)

namespace Segment

variable {q : Char} {x y : List Char}

def spelling : Segment q → List Char
  | plain c .. => [c]
  | escape c .. => ['\\', c]
  | byte d₁ d₂ => ['\\', 'x', d₁.1, d₂.1]
  | code d₁ d₂ d₃ d₄ => ['\\', 'u', d₁.1, d₂.1, d₃.1, d₄.1]

def controls : List (Char × Nat) :=
  [('0', 0), ('b', 8), ('t', 9), ('n', 10), ('v', 11), ('f', 12), ('r', 13)]

/-- What a backslash in front of a character stands for. An escaped line break stands for nothing,
and what is no escape of a control character for itself. -/
def escapeValue (c : Char) : List Char :=
  if c = '\n' then []
  else
    match controls.lookup c with
    | some n => [Char.ofNat n]
    | none => [c]

def codeValue (n : Nat) : Char :=
  if 0xd800 ≤ n ∧ n ≤ 0xdfff then '\uFFFD' else Char.ofNat n

def value : Segment q → List Char
  | plain c .. => [c]
  | escape c .. => escapeValue c
  | byte d₁ d₂ => [codeValue (16 * d₁.value + d₂.value)]
  | code d₁ d₂ d₃ d₄ =>
    [codeValue (4096 * d₁.value + 256 * d₂.value + 16 * d₃.value + d₄.value)]

theorem escapeValue_eq {c : Char} (hline : c ≠ '\n') : escapeValue c = [Scan.escaped c] := by
  unfold escapeValue
  rw [if_neg hline]
  by_cases hcontrol : c ∈ controls.map Prod.fst
  · simp only [controls, List.map_cons, List.map_nil, List.mem_cons, List.not_mem_nil,
      or_false] at hcontrol
    rcases hcontrol with rfl | rfl | rfl | rfl | rfl | rfl | rfl <;> rfl
  · have hnone : controls.lookup c = none := by
      rw [List.lookup_eq_none_iff]
      intro entry hentry
      rw [bne_iff_ne]
      rintro rfl
      exact hcontrol (List.mem_map_of_mem hentry)
    simp only [controls, List.map_cons, List.map_nil, List.mem_cons, List.not_mem_nil,
      or_false, not_or] at hcontrol
    rw [hnone]
    unfold Scan.escaped
    split <;> simp_all

theorem charOfCode_eq {n : Nat} (hn : n < 0x10000) : Scan.charOfCode n = codeValue n := by
  unfold Scan.charOfCode codeValue
  by_cases hhalf : 0xd800 ≤ n ∧ n ≤ 0xdfff
  · have hinvalid : ¬ n.isValidChar := by
      rintro (h | h) <;> omega
    rw [if_neg hinvalid, if_pos hhalf]
    rfl
  · have hvalid : n.isValidChar := by
      unfold Nat.isValidChar
      omega
    rw [if_pos hvalid, if_neg hhalf]

theorem charOfCode_byte (d₁ d₂ : HexDigit) :
    Scan.charOfCode (Scan.hexCode [d₁.1, d₂.1]) = codeValue (16 * d₁.value + d₂.value) := by
  have := d₁.value_lt
  have := d₂.value_lt
  have hcode : Scan.hexCode [d₁.1, d₂.1] = 16 * d₁.value + d₂.value := by
    simp only [Scan.hexCode, List.foldl_cons, List.foldl_nil, digit?_hexDigit, Option.getD_some]
    omega
  rw [hcode, charOfCode_eq (by omega)]

theorem charOfCode_code (d₁ d₂ d₃ d₄ : HexDigit) :
    Scan.charOfCode (Scan.hexCode [d₁.1, d₂.1, d₃.1, d₄.1]) =
      codeValue (4096 * d₁.value + 256 * d₂.value + 16 * d₃.value + d₄.value) := by
  have := d₁.value_lt
  have := d₂.value_lt
  have := d₃.value_lt
  have := d₄.value_lt
  have hcode : Scan.hexCode [d₁.1, d₂.1, d₃.1, d₄.1] =
      4096 * d₁.value + 256 * d₂.value + 16 * d₃.value + d₄.value := by
    simp only [Scan.hexCode, List.foldl_cons, List.foldl_nil, digit?_hexDigit, Option.getD_some]
    omega
  rw [hcode, charOfCode_eq (by omega)]

/-- A piece in front of other pieces or the closing quote is taken for what it is. -/
theorem append_inj {a b : Segment q} (h : a.spelling ++ x = b.spelling ++ y) : a = b ∧ x = y := by
  cases a with
  | plain c hquote hslash hline =>
    cases b with
    | plain =>
      obtain ⟨rfl, rfl⟩ := List.cons.inj h
      exact ⟨rfl, rfl⟩
    | _ => exact absurd (List.cons.inj h).1 hslash
  | escape c hx hu =>
    cases b with
    | plain _ _ hslash => exact absurd (List.cons.inj h).1.symm hslash
    | escape =>
      obtain ⟨rfl, rfl⟩ := List.cons.inj (List.cons.inj h).2
      exact ⟨rfl, rfl⟩
    | byte => exact absurd (List.cons.inj (List.cons.inj h).2).1 hx
    | code => exact absurd (List.cons.inj (List.cons.inj h).2).1 hu
  | byte d₁ d₂ =>
    cases b with
    | plain _ _ hslash => exact absurd (List.cons.inj h).1.symm hslash
    | escape _ hx => exact absurd (List.cons.inj (List.cons.inj h).2).1.symm hx
    | byte => simpa [spelling, Subtype.val_inj, and_assoc] using h
    | code => simp [spelling] at h
  | code d₁ d₂ d₃ d₄ =>
    cases b with
    | plain _ _ hslash => exact absurd (List.cons.inj h).1.symm hslash
    | escape _ _ hu => exact absurd (List.cons.inj (List.cons.inj h).2).1.symm hu
    | byte => simp [spelling] at h
    | code => simpa [spelling, Subtype.val_inj, and_assoc] using h

theorem spelling_ne_quote (hslash : q ≠ '\\') (a : Segment q) : a.spelling ++ x ≠ q :: y := by
  intro h
  cases a with
  | plain c hquote => exact hquote (List.cons.inj h).1
  | _ => exact hslash (List.cons.inj h).1.symm

/-- The pieces of a literal can be told from what it is spelled like. -/
theorem flatMap_inj (hslash : q ≠ '\\') {as bs : List (Segment q)}
    (h : as.flatMap spelling ++ q :: x = bs.flatMap spelling ++ q :: y) : as = bs ∧ x = y := by
  induction as generalizing bs with
  | nil =>
    cases bs with
    | nil => exact ⟨rfl, (List.cons.inj h).2⟩
    | cons b bs =>
      rw [List.flatMap_cons, List.append_assoc] at h
      exact absurd h.symm (b.spelling_ne_quote hslash)
  | cons a as ih =>
    rw [List.flatMap_cons, List.append_assoc] at h
    cases bs with
    | nil => exact absurd h (a.spelling_ne_quote hslash)
    | cons b bs =>
      rw [List.flatMap_cons, List.append_assoc] at h
      obtain ⟨rfl, hrest⟩ := append_inj h
      obtain ⟨rfl, hback⟩ := ih hrest
      exact ⟨rfl, hback⟩

def ofChar (hq : Scan.isQuote q = true) (c : Char) : Segment q :=
  if hslash : c = '\\' then .escape '\\' (by decide) (by decide)
  else if hquote : c = q then .escape q (by rintro rfl; cases hq) (by rintro rfl; cases hq)
  else if hline : c = '\n' then .escape 'n' (by decide) (by decide)
  else .plain c hquote hslash hline

theorem value_ofChar (hq : Scan.isQuote q = true) (c : Char) : (ofChar hq c).value = [c] := by
  have hquote : q = '"' ∨ q = '\'' := by simpa [Scan.isQuote] using hq
  unfold ofChar
  split_ifs with hslash hc hline
  · rw [hslash]
    rfl
  · subst hc
    rcases hquote with rfl | rfl <;> rfl
  · rw [hline]
    rfl
  · rfl

end Segment

namespace Scan

variable {lets : Bool} {l : Location} {q c : Char} {x rest : List Char} {n : Nat}

theorem stringBody_segment (hq : isQuote q = true) (s : Segment q) :
    stringBody q (s.spelling ++ x) =
      (stringBody q x).map (prepend s.value s.spelling.length) := by
  obtain ⟨-, hslash⟩ := isQuote_ne hq
  cases s with
  | plain c hquote hslash hline => exact stringBody_plain hquote hslash hline
  | escape c hx hu =>
    by_cases hline : c = '\n'
    · subst hline
      exact stringBody_lineBreak hslash
    · rw [Segment.value, Segment.escapeValue_eq hline]
      exact stringBody_escape hslash hx hu hline
  | byte d₁ d₂ =>
    rw [Segment.value, ← Segment.charOfCode_byte]
    exact (stringBody_hex hslash).trans (if_pos (by simp [isHexDigit_hexDigit]))
  | code d₁ d₂ d₃ d₄ =>
    rw [Segment.value, ← Segment.charOfCode_code]
    exact (stringBody_unicode hslash).trans (if_pos (by simp [isHexDigit_hexDigit]))

theorem stringBody_segments (hq : isQuote q = true) (segs : List (Segment q)) :
    stringBody q (segs.flatMap Segment.spelling ++ q :: x) =
      .ok (segs.flatMap Segment.value, (segs.flatMap Segment.spelling).length + 1) := by
  induction segs with
  | nil => exact stringBody_quote (isQuote_ne hq).1
  | cons s segs ih =>
    rw [List.flatMap_cons, List.append_assoc, stringBody_segment hq, ih]
    simp [Except.map, prepend, Nat.add_assoc]

def IsRead (q : Char) (x : List Char) (r : List Char × Nat) : Prop :=
  ∃ (segs : List (Segment q)) (back : List Char), x = segs.flatMap Segment.spelling ++ q :: back ∧
    r = (segs.flatMap Segment.value, (segs.flatMap Segment.spelling).length + 1)

theorem IsRead.step (hq : isQuote q = true) (s : Segment q)
    (ih : ∀ r, stringBody q x = .ok r → IsRead q x r) {r : List Char × Nat}
    (h : stringBody q (s.spelling ++ x) = .ok r) : IsRead q (s.spelling ++ x) r := by
  rw [stringBody_segment hq] at h
  cases hx : stringBody q x with
  | error fault =>
    rw [hx] at h
    cases h
  | ok r' =>
    rw [hx] at h
    cases h
    obtain ⟨segs, back, rfl, rfl⟩ := ih r' hx
    refine ⟨s :: segs, back, ?_, ?_⟩
    · simp
    · simp [prepend, Nat.add_assoc]

theorem isRead_of_stringBody (hq : isQuote q = true) {r : List Char × Nat}
    (h : stringBody q x = .ok r) : IsRead q x r := by
  obtain ⟨hquote, hslash⟩ := isQuote_ne hq
  -- Along the recursion of the literal: each of its successful cases is one kind of segment.
  induction x using stringBody.induct q generalizing r with
  | case1 => cases h
  | case2 rest =>
    rw [stringBody_newline] at h
    cases h
  | case3 rest =>
    rw [stringBody_quote hquote] at h
    cases h
    exact ⟨[], rest, rfl, rfl⟩
  | case4 =>
    rw [stringBody_backslash hslash] at h
    cases h
  | case5 d₁ d₂ more hhex _ _ ih =>
    simp only [List.all_cons, List.all_nil, Bool.and_true, Bool.and_eq_true] at hhex
    exact IsRead.step hq (.byte ⟨d₁, mem_hexDigits hhex.1⟩ ⟨d₂, mem_hexDigits hhex.2⟩)
      (fun r hr => ih hr) h
  | case6 d₁ d₂ more hhex =>
    rw [stringBody_hex hslash, if_neg hhex] at h
    cases h
  | case7 d₁ d₂ d₃ d₄ more hhex _ _ ih =>
    simp only [List.all_cons, List.all_nil, Bool.and_true, Bool.and_eq_true] at hhex
    obtain ⟨h₁, h₂, h₃, h₄⟩ := hhex
    exact IsRead.step hq (.code ⟨d₁, mem_hexDigits h₁⟩ ⟨d₂, mem_hexDigits h₂⟩
      ⟨d₃, mem_hexDigits h₃⟩ ⟨d₄, mem_hexDigits h₄⟩) (fun r hr => ih hr) h
  | case8 d₁ d₂ d₃ d₄ more hhex =>
    rw [stringBody_unicode hslash, if_neg hhex] at h
    cases h
  | case9 tail =>
    rw [stringBody.eq_def] at h
    simp [Ne.symm hslash] at h
  | case10 tail =>
    rw [stringBody.eq_def] at h
    simp [Ne.symm hslash] at h
  | case11 more _ _ ih =>
    exact IsRead.step hq (.escape '\n' (by decide) (by decide)) (fun r hr => ih hr) h
  | case12 e more _ _ hx hu he _ _ ih =>
    exact IsRead.step hq (.escape e hx hu) (fun r hr => ih hr) h
  | case13 c rest hc hq' hback ih =>
    exact IsRead.step hq (.plain c hq' hback hc) (fun r hr => ih hr) h

end Scan

/-- A string literal. -/
structure TextLiteral where
  quote : Char
  isQuote : Scan.isQuote quote = true
  segments : List (Segment quote)

namespace TextLiteral

def spelling (t : TextLiteral) : List Char :=
  t.quote :: (t.segments.flatMap Segment.spelling ++ [t.quote])

def value (t : TextLiteral) : String :=
  String.ofList (t.segments.flatMap Segment.value)

theorem spelling_injective : Function.Injective spelling := by
  rintro ⟨q, hq, as⟩ ⟨q', hq', bs⟩ h
  obtain ⟨hquote, hsegments⟩ := List.cons.inj h
  dsimp only at hquote
  subst hquote
  obtain ⟨rfl, -⟩ := Segment.flatMap_inj (Scan.isQuote_ne hq).2 hsegments
  rfl

def ofString (q : Char) (hq : Scan.isQuote q = true) (s : String) : TextLiteral :=
  ⟨q, hq, s.toList.map (Segment.ofChar hq)⟩

theorem value_ofString (q : Char) (hq : Scan.isQuote q = true) (s : String) :
    (ofString q hq s).value = s := by
  rw [value, ofString, List.flatMap_map]
  simp only [Segment.value_ofChar, List.flatMap_singleton', String.ofList_toList]

variable {lets : Bool} {l : Location}

theorem begins (t : TextLiteral) (x : List Char) : Scan.Begins t.quote x := by
  have hquote : t.quote = '"' ∨ t.quote = '\'' := by simpa [Scan.isQuote] using t.isQuote
  rcases hquote with h | h
  · rw [h]
    exact ⟨rfl, by decide, rfl, rfl⟩
  · rw [h]
    exact ⟨rfl, by decide, rfl, rfl⟩

theorem scanFrom_spelling (t : TextLiteral) :
    Scan.scanFrom lets (.blank false) l t.spelling =
      .ok ⟨[⟨.text t.value, l, false⟩], l.advance t.spelling, false⟩ := by
  apply (t.begins _).scanFrom_alone
  rw [Scan.lexeme_quote t.isQuote, Scan.stringBody_segments t.isQuote, List.length_append]
  rfl

/-- What is a text token is spelled as a literal. -/
theorem exists_of_lexeme {c : Char} {rest : List Char} {s : String} {n : Nat}
    (h : Scan.lexeme lets c rest = .ok (.text s, n)) :
    ∃ t : TextLiteral, c :: rest.take n = t.spelling ∧ t.value = s := by
  cases hq : Scan.isQuote c with
  | true =>
    rw [Scan.lexeme_quote hq] at h
    cases hbody : Scan.stringBody c rest with
    | error fault => simp [hbody, Except.map, Except.mapError] at h
    | ok r =>
      rw [hbody] at h
      cases h
      obtain ⟨segs, back, rfl, rfl⟩ := Scan.isRead_of_stringBody hq hbody
      have hrest : segs.flatMap Segment.spelling ++ c :: back =
          (segs.flatMap Segment.spelling ++ [c]) ++ back := by simp
      refine ⟨⟨c, hq, segs⟩, ?_, rfl⟩
      rw [hrest, List.take_left' (by simp)]
      rfl
  | false =>
    have hq : ¬(c = '"' || c = '\'') = true := Bool.eq_false_iff.mp hq
    unfold Scan.lexeme at h
    rw [if_neg hq] at h
    -- No other kind of token is a text.
    split at h
    · split at h
      · split at h <;> cases h
      · cases h
    split at h
    · dsimp only at h
      split at h <;> cases h
    · split at h <;> cases h

end TextLiteral

namespace Tokens

/-- String literals and text tokens agree. Every literal is one token with the text that its pieces
stand for. Every text token of a source stands there as a literal, which is the only one that is
spelled so, and has the text of it. And there is a literal for every text, in every kind of
quotes. -/
theorem text_as_spelled (lets : Bool) (k : Nat) :
    (∀ literal : TextLiteral, ofSource lets k (String.ofList literal.spelling) =
      .ok ⟨[⟨.text literal.value, .start k, false⟩], (Location.start k).advance literal.spelling,
        false⟩) ∧
    (∀ source ts, ofSource lets k source = .ok ts → ∀ t ∈ ts.items, ∀ s, t.kind = .text s →
      ∃ literal : TextLiteral, (∃ front back, source.toList = front ++ (literal.spelling ++ back) ∧
          t.place = (Location.start k).advance front) ∧
        t.spelling lets source = literal.spelling ∧ literal.value = s ∧
        ∀ other : TextLiteral, t.spelling lets source = other.spelling → other = literal) ∧
    ∀ q, Scan.isQuote q = true → ∀ s, ∃ literal : TextLiteral,
      literal.quote = q ∧ ofSource lets k (String.ofList literal.spelling) =
        .ok ⟨[⟨.text s, .start k, false⟩], (Location.start k).advance literal.spelling, false⟩ := by
  have alone (literal : TextLiteral) : ofSource lets k (String.ofList literal.spelling) =
      .ok ⟨[⟨.text literal.value, .start k, false⟩],
        (Location.start k).advance literal.spelling, false⟩ := by
    rw [ofSource, String.toList_ofList]
    exact literal.scanFrom_spelling
  refine ⟨alone, fun source ts h t ht s hs => ?_, fun q hq s => ?_⟩
  · obtain ⟨front, c, rest, n, hsource, hspells, hspelling⟩ := exists_spelling h ht
    have hread := hspells.reads
    rw [hs] at hread
    obtain ⟨literal, hliteral, hvalue⟩ := TextLiteral.exists_of_lexeme hread
    rw [hspelling, hliteral]
    refine ⟨literal, ⟨front, rest.drop n, ?_, hspells.place⟩, rfl, hvalue, fun other hother => ?_⟩
    · rw [hsource, ← hliteral, List.cons_append, List.take_append_drop]
    -- Where a segment ends can be told from its own characters, so the cut is the only one.
    · exact (TextLiteral.spelling_injective hother).symm
  · refine ⟨.ofString q hq s, rfl, ?_⟩
    rw [alone, TextLiteral.value_ofString]

def mixedLiteral : TextLiteral :=
  ⟨'"', rfl, [.escape 't' (by decide) (by decide), .escape 'n' (by decide) (by decide),
    .byte ⟨'4', by decide⟩ ⟨'1', by decide⟩,
    .code ⟨'D', by decide⟩ ⟨'8', by decide⟩ ⟨'0', by decide⟩ ⟨'0', by decide⟩,
    .escape '\n' (by decide) (by decide)]⟩

theorem text_as_spelled_mixed :
    (∃ ts t literal, ofSource true 1 "\"\\t\\n\\x41\\uD800\\\n\"" = .ok ts ∧ t ∈ ts.items ∧
      t.kind = .text "\t\nA\uFFFD" ∧
      t.spelling true "\"\\t\\n\\x41\\uD800\\\n\"" = TextLiteral.spelling literal ∧
      literal.value = "\t\nA\uFFFD") ∧
    Scan.isQuote '\'' = true ∧ ∃ literal, TextLiteral.quote literal = '\'' ∧
      ofSource true 1 (String.ofList literal.spelling) =
        .ok ⟨[⟨.text "it's\n", .start 1, false⟩], (Location.start 1).advance literal.spelling,
          false⟩ := by
  obtain ⟨halone, hspelled, hevery⟩ := text_as_spelled true 1
  have hmixed : String.ofList mixedLiteral.spelling = "\"\\t\\n\\x41\\uD800\\\n\"" := rfl
  have hvalue : mixedLiteral.value = "\t\nA\uFFFD" := by decide +kernel
  have hsource := halone mixedLiteral
  rw [hmixed, hvalue] at hsource
  obtain ⟨literal, -, hliteral, htext, -⟩ := hspelled _ _ hsource _ (.head _) _ rfl
  exact ⟨⟨_, _, literal, hsource, .head _, rfl, hliteral, htext⟩, rfl, hevery '\'' rfl "it's\n"⟩

end Tokens

end ScriptShell
