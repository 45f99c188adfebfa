import ScriptShell.Proofs.Token.Numeral

namespace ScriptShell

namespace Scan

variable {lets : Bool} {l : Location} {c q : Char} {x rest : List Char} {value : Float} {n : Nat}
  {fault : ParseFault}

/-- The spelling of a number token is a numeral. -/
theorem isNumeral_of_lexeme (h : lexeme lets c rest = .ok (.number value, n)) :
    IsNumeral (c :: rest.take n) value := by
  unfold lexeme at h
  split at h
  · split at h <;> cases h
  split at h
  · cases hread : numberAt (c :: rest) with
    | error fault => simp [hread] at h
    | ok number =>
      rw [hread] at h
      dsimp only at h
      split at h
      · cases h
      cases h
      obtain ⟨word, back, htext, hlength, hword⟩ := exists_isNumeral hread
      obtain ⟨d, word, rfl, -⟩ := hword.startsNumber
      obtain ⟨rfl, hrest⟩ : c = d ∧ rest = word ++ back := List.cons.inj htext
      rwa [← hlength, List.length_cons, Nat.add_sub_cancel, hrest, List.take_left]
  split at h
  · dsimp only at h
    split at h <;> cases h
  · split at h <;> cases h

theorem lexeme_of_isNumeral (h : IsNumeral (c :: rest) value) :
    lexeme lets c rest = .ok (.number value, rest.length) := by
  obtain ⟨d, back, hcons, hstarts⟩ := h.startsNumber
  obtain ⟨rfl, rfl⟩ := List.cons.inj hcons
  have hquote : ¬(c = '"' || c = '\'') = true := by
    intro hquote
    simp only [Bool.or_eq_true, decide_eq_true_eq] at hquote
    rcases hquote with rfl | rfl <;> cases hstarts
  unfold lexeme
  rw [if_neg hquote, if_pos hstarts, numberAt_of_isNumeral h]
  simp

theorem fault_of_stringBody (hslash : q ≠ '\\') (h : stringBody q x = .error fault) :
    fault = .unterminatedString ∨ fault = .malformedEscape := by
  have step {r : Except ParseFault (List Char × Nat)} {chars : List Char} {size : Nat}
      (ih : r = .error fault → fault = .unterminatedString ∨ fault = .malformedEscape)
      (h : r.map (prepend chars size) = .error fault) :
      fault = .unterminatedString ∨ fault = .malformedEscape := by
    cases r with
    | ok => cases h
    | error fault' => exact ih h
  induction x using stringBody.induct q with
  | case1 => exact .inl (Except.error.inj h).symm
  | case2 rest =>
    rw [stringBody_newline] at h
    exact .inl (Except.error.inj h).symm
  | case3 rest hline =>
    rw [stringBody_quote hline] at h
    cases h
  | case4 =>
    rw [stringBody_backslash hslash] at h
    exact .inl (Except.error.inj h).symm
  | case5 d₁ d₂ more hhex _ _ ih =>
    rw [stringBody_hex hslash, if_pos hhex] at h
    exact step ih h
  | case6 d₁ d₂ more hhex =>
    rw [stringBody_hex hslash, if_neg hhex] at h
    exact .inr (Except.error.inj h).symm
  | case7 d₁ d₂ d₃ d₄ more hhex _ _ ih =>
    rw [stringBody_unicode hslash, if_pos hhex] at h
    exact step ih h
  | case8 d₁ d₂ d₃ d₄ more hhex =>
    rw [stringBody_unicode hslash, if_neg hhex] at h
    exact .inr (Except.error.inj h).symm
  | case9 tail hshort | case10 tail hshort =>
    rw [stringBody.eq_def] at h
    simp only [Ne.symm hslash] at h
    exact .inr (by simpa using h.symm)
  | case11 more _ _ ih =>
    rw [stringBody_lineBreak hslash] at h
    exact step ih h
  | case12 e more _ _ hx hu he _ _ ih =>
    rw [stringBody_escape hslash hx hu he] at h
    exact step ih h
  | case13 c rest hc hq hback ih =>
    rw [stringBody_plain hq hback hc] at h
    exact step ih h

theorem leadingDigits_ne_nil (hdigit : (x.head?.map Char.isDigit).getD false = true) :
    Number.leadingDigits x ≠ [] := by
  cases x with
  | nil => cases hdigit
  | cons c x => simp_all [Number.leadingDigits]

theorem exists_literalAt?_of_startsNumber (hstarts : startsNumber c rest = true) :
    ∃ l, Number.literalAt? (c :: rest) = some l := by
  have hdigits : Number.leadingDigits (c :: rest) ≠ [] ∨
      (pointAt (Number.afterDigits (c :: rest))).2.1 ≠ [] := by
    by_cases hdigit : c.isDigit
    · exact .inl (leadingDigits_ne_nil hdigit)
    · have hpoint : c = '.' ∧ (rest.head?.map Char.isDigit).getD false = true := by
        simpa [startsNumber, hdigit] using hstarts
      obtain ⟨rfl, hrest⟩ := hpoint
      exact .inr (leadingDigits_ne_nil hrest)
  obtain ⟨l, hl, -⟩ := Number.exists_literalAt? hdigits
  exact ⟨l, hl⟩

theorem fault_of_numberAt (hstarts : startsNumber c rest = true)
    (h : numberAt (c :: rest) = .error fault) : fault = .missingHexDigits := by
  rcases isHexMark_or_decimal (c :: rest) with ⟨m, y, hcons, hm⟩ | hdecimal
  · rw [hcons, numberAt_hex hm] at h
    split at h <;> cases h
    rfl
  · obtain ⟨l, hl⟩ := exists_literalAt?_of_startsNumber hstarts
    rw [numberAt_decimal hdecimal, hl] at h
    cases h

/-- No token fails as a malformed number. -/
theorem fault_of_lexeme {e : LexemeError} (h : lexeme lets c rest = .error e) :
    e.1 ≠ .malformedNumber := by
  cases hq : isQuote c with
  | true =>
    rw [lexeme_quote hq] at h
    cases hbody : stringBody c rest with
    | ok r => simp [hbody, Except.map, Except.mapError] at h
    | error fault =>
      rw [hbody] at h
      obtain rfl := Except.error.inj h
      rcases fault_of_stringBody (isQuote_ne hq).2 hbody with rfl | rfl <;> nofun
  | false =>
    have hq : ¬(c = '"' || c = '\'') = true := Bool.eq_false_iff.mp hq
    unfold lexeme at h
    rw [if_neg hq] at h
    split at h
    next hstarts =>
      cases hread : numberAt (c :: rest) with
      | error fault =>
        rw [hread] at h
        obtain rfl := Except.error.inj h
        rw [fault_of_numberAt hstarts hread]
        nofun
      | ok number =>
        rw [hread] at h
        dsimp only at h
        split at h <;> cases h
        nofun
    split at h
    · dsimp only at h
      split at h <;> cases h
    · split at h <;> cases h
      nofun

/-- A source is no sequence of tokens if a comment is open at its end, or at a place where there
is no token. -/
theorem fault_of_scanFrom {st : State} {e : ParseError} (h : scanFrom lets st l x = .error e) :
    e.fault = .unterminatedComment ∨ ∃ c rest n, lexeme lets c rest = .error (e.fault, n) := by
  induction x generalizing st l e with
  | nil => cases st <;> cases h <;> exact .inl rfl
  | cons c x ih =>
    cases st with
    | blank newline =>
      rw [scanFrom_blank] at h
      split_ifs at h
      iterate 4 exact ih h
      cases hread : lexeme lets c x with
      | error failed =>
        rw [hread] at h
        obtain rfl := Except.error.inj h
        exact .inr ⟨c, x, failed.2, hread⟩
      | ok r =>
        rw [hread] at h
        dsimp only at h
        cases hus : scanFrom lets (.afterFirst r.2) (l.after c) x with
        | ok us => simp [hus, Except.map] at h
        | error e' =>
          rw [hus] at h
          obtain rfl := Except.error.inj h
          exact ih hus
    | blockComment newline opened =>
      rw [scanFrom_blockComment] at h
      split_ifs at h <;> exact ih h
    | _ => exact ih h

theorem scanFrom_isNumeral (h : IsNumeral x value) :
    scanFrom lets (.blank false) l x =
      .ok ⟨[⟨.number value, l, false⟩], l.advance x, false⟩ := by
  obtain ⟨c, rest, rfl, hstarts⟩ := h.startsNumber
  have hslash : c ≠ '/' := by
    rintro rfl
    cases hstarts
  have hline : (c = '\n' || c = '\r') = false := by
    simp only [Bool.or_eq_false_iff, decide_eq_false_iff_not]
    constructor <;> rintro rfl <;> cases hstarts
  have hbegins : Begins c rest :=
    ⟨hline, h.isBlank c List.mem_cons_self, by simp [hslash], by simp [hslash]⟩
  exact hbegins.scanFrom_alone (lexeme_of_isNumeral h)

end Scan

namespace Tokens

/-- Numbers in a source and texts that are converted to numbers agree. A number token has the value
that its spelling is converted to. A text without blanks that begins with a digit or a point, and
that is converted to a number, is that number as a single token. And nothing that begins like a
number is malformed for want of digits. -/
theorem number_as_converted (lets : Bool) (k : Nat) :
    (∀ source ts, ofSource lets k source = .ok ts → ∀ t ∈ ts.items, ∀ x, t.kind = .number x →
      (∃ front back, source.toList = front ++ (t.spelling lets source ++ back) ∧
        t.place = (Location.start k).advance front) ∧
      Number.ofText (String.ofList (t.spelling lets source)) = x) ∧
    (∀ text : String, (∃ c ∈ text.toList.head?, c.isDigit ∨ c = '.') →
      (∀ c ∈ text.toList, Text.isBlank c = false) → (Number.ofText text).isNaN = false →
      ofSource lets k text = .ok ⟨[⟨.number (Number.ofText text), .start k, false⟩],
        (Location.start k).advance text.toList, false⟩) ∧
    ∀ source e, ofSource lets k source = .error e → e.fault ≠ .malformedNumber := by
  refine ⟨fun source ts h t ht x hx => ?_, fun text hletter hblank hnumber => ?_,
    fun source e h => ?_⟩
  · obtain ⟨front, c, rest, n, hsource, hspells, hspelling⟩ := exists_spelling h ht
    have hread := hspells.reads
    rw [hx] at hread
    rw [hspelling]
    refine ⟨⟨front, rest.drop n, ?_, hspells.place⟩, ?_⟩
    · rw [hsource, List.cons_append, List.take_append_drop]
    · exact Scan.ofText_of_isNumeral (Scan.isNumeral_of_lexeme hread)
  · rw [← String.ofList_toList (s := text)] at hnumber
    have hnumeral := Scan.isNumeral_ofText hblank hletter hnumber
    rw [String.ofList_toList] at hnumeral
    exact Scan.scanFrom_isNumeral hnumeral
  · rcases Scan.fault_of_scanFrom h with hfault | ⟨c, rest, n, hread⟩
    · rw [hfault]
      nofun
    · exact Scan.fault_of_lexeme hread

/-- A fraction with an exponent, a hexadecimal number, and an exponent without digits. -/
theorem number_as_converted_exponents :
    (∃ ts t, ofSource true 1 "a=.5E+1" = .ok ts ∧ t ∈ ts.items ∧ t.kind = .number 5 ∧
      Number.ofText (String.ofList (t.spelling true "a=.5E+1")) = 5) ∧
    ((∃ c ∈ "0x1F".toList.head?, c.isDigit ∨ c = '.') ∧
      (∀ c ∈ "0x1F".toList, Text.isBlank c = false) ∧ (Number.ofText "0x1F").isNaN = false ∧
      ofSource true 1 "0x1F" = .ok ⟨[⟨.number (Number.ofText "0x1F"), .start 1, false⟩],
        (Location.start 1).advance "0x1F".toList, false⟩) ∧
    ∃ e, ofSource true 1 "1e+" = .error e ∧ e.fault ≠ .malformedNumber := by
  have hsource : ofSource true 1 "a=.5E+1" = .ok
      ⟨[⟨.name "a", ⟨1, 1, 0⟩, false⟩, ⟨.mark .eq, ⟨1, 2, 1⟩, false⟩,
        ⟨.number 5, ⟨1, 3, 2⟩, false⟩], ⟨1, 8, 7⟩, false⟩ := rfl
  have hletter : ∃ c ∈ "0x1F".toList.head?, c.isDigit ∨ c = '.' := ⟨'0', rfl, .inl rfl⟩
  have hblank : ∀ c ∈ "0x1F".toList, Text.isBlank c = false :=
    List.forall_iff_forall_mem.mp ⟨rfl, rfl, rfl, rfl⟩
  have hnumber : (Number.ofText "0x1F").isNaN = false := by decide +kernel
  obtain ⟨e, hfailed⟩ : ∃ e, ofSource true 1 "1e+" = .error e := ⟨_, rfl⟩
  obtain ⟨hspelled, hsingle, hfault⟩ := number_as_converted true 1
  refine ⟨⟨_, _, hsource, .tail _ (.tail _ (.head _)), rfl, ?_⟩,
    ⟨hletter, hblank, hnumber, hsingle _ hletter hblank hnumber⟩, e, hfailed, hfault _ e hfailed⟩
  exact (hspelled _ _ hsource _ (.tail _ (.tail _ (.head _))) 5 rfl).2

end Tokens

end ScriptShell
