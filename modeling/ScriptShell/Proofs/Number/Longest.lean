import ScriptShell.Proofs.Number.Order
import ScriptShell.Proofs.Token.Numeral

namespace ScriptShell.Number

variable {text word digits t : List Char}

/-- A text spells a number: an infinity or a decimal literal, with or without a sign. -/
def IsNumber (word : List Char) : Prop :=
  ∃ sign negative body, IsSign sign negative ∧ word = sign ++ body ∧
    (body = "Infinity".toList ∨ ∃ l : Literal, l.IsSpelled body)

/-- The longest first part of a text that spells a number. -/
structure IsLongest (word text : List Char) : Prop where
  front : word <+: text
  isNumber : IsNumber word
  longest : ∀ other, other <+: text → IsNumber other → other.length ≤ word.length

theorem IsLongest.eq {other : List Char} (h : IsLongest word text) (h' : IsLongest other text) :
    word = other := by
  apply List.IsPrefix.eq_of_length (List.prefix_of_prefix_length_le h.front h'.front ?_)
  · exact Nat.le_antisymm (h'.longest word h.front h.isNumber) (h.longest other h'.front h'.isNumber)
  · exact h'.longest word h.front h.isNumber

section Lengths

theorem IsExponent.length_le {e : Int} (h : IsExponent word e) (t : List Char) :
    word.length ≤ (exponentAt (word ++ t)).2 := by
  cases h with
  | absent => exact Nat.zero_le _
  | @present mark sign digits negative hmark hsign hne hdigits =>
    have hmark' : (mark = 'e' || mark = 'E') = true := by simpa using hmark
    have hsplit : splitSign (sign ++ (digits ++ t)) = (negative, digits ++ t) := by
      refine splitSign_of_isSign hsign fun c hc => ne_sign_of_isDigit (hdigits c ?_)
      rw [List.head?_append_of_ne_nil _ hne] at hc
      exact List.mem_of_mem_head? hc
    rw [List.cons_append, List.append_assoc]
    unfold exponentAt
    simp only [hmark', if_true, hsplit, leadingDigits_of_digits hdigits, List.isEmpty_iff,
      List.append_eq_nil_iff, hne, false_and, if_false, List.length_append, List.length_cons]
    omega

theorem tailLength_point (hdigits : ∀ c ∈ digits, c.isDigit) (t : List Char) :
    tailLength ('.' :: (digits ++ t)) =
      1 + (digits.length + (leadingDigits t).length) + (exponentAt (afterDigits t)).2 := by
  change 1 + (leadingDigits (digits ++ t)).length + (exponentAt (afterDigits (digits ++ t))).2 = _
  rw [leadingDigits_of_digits hdigits, afterDigits_of_digits hdigits, List.length_append]

theorem tailLength_of_ne (ht : ∀ c ∈ t.head?, c ≠ '.') : tailLength t = (exponentAt t).2 := by
  cases t with
  | nil => rfl
  | cons c t =>
    rw [tailLength, Scan.pointAt_of_ne (ht c rfl)]
    exact Nat.zero_add _

theorem head?_of_exponent {e : Int} (h : IsExponent word e) (hne : word ≠ []) (t : List Char) :
    ∀ c ∈ (word ++ t).head?, c ≠ '.' ∧ c.isDigit = false := by
  intro c hc
  rw [List.head?_append_of_ne_nil _ hne] at hc
  rcases head?_of_isExponent h c hc with rfl | rfl <;> decide

variable {fraction exponent : List Char} {e : Int}

theorem length_le_tailLength (hfraction : IsFraction fraction digits)
    (hexponent : IsExponent exponent e) (t : List Char) :
    (fraction ++ exponent).length ≤ tailLength (fraction ++ (exponent ++ t)) := by
  have hlength := hexponent.length_le t
  by_cases hne : exponent = []
  · subst hne
    cases hfraction with
    | absent => exact Nat.zero_le _
    | present hdigits =>
      simp only [List.cons_append, tailLength_point hdigits, List.append_nil, List.length_cons]
      omega
  · have hhead := head?_of_exponent hexponent hne t
    cases hfraction with
    | absent =>
      rw [List.nil_append, List.nil_append, tailLength_of_ne fun c hc => (hhead c hc).1]
      exact hlength
    | present hdigits =>
      have hdrop := afterDigits_eq_self fun c hc => (hhead c hc).2
      simp only [List.cons_append, tailLength_point hdigits, hdrop, List.length_cons,
        List.length_append]
      omega

theorem head?_of_tail (hfraction : IsFraction fraction digits) (hexponent : IsExponent exponent e)
    (hne : fraction ++ exponent ≠ []) (t : List Char) :
    ∀ c ∈ (fraction ++ (exponent ++ t)).head?, c.isDigit = false := by
  cases hfraction with
  | absent => exact fun c hc => (head?_of_exponent hexponent hne t c hc).2
  | present =>
    rintro c ⟨⟩
    rfl

/-- A literal at the front of a text is no longer than the one that is read there. -/
theorem exists_length_le {l : Literal} (h : l.IsSpelled word) (t : List Char) :
    ∃ l', literalAt? (word ++ t) = some l' ∧ word.length ≤ l'.length := by
  obtain ⟨hwhole, hfraction, hsome, hexponent, -⟩ := h
  obtain ⟨whole, digits, e, length⟩ := l
  rename_i fraction exponent
  dsimp only at hwhole hfraction hsome hexponent ⊢
  have hlead := leadingDigits_of_digits hwhole (fraction ++ (exponent ++ t))
  have hafter := afterDigits_of_digits hwhole (fraction ++ (exponent ++ t))
  rw [List.append_assoc, List.append_assoc]
  by_cases hne : fraction ++ exponent = []
  · have hdigits : whole ≠ [] := by
      refine hsome.resolve_right fun h => h ?_
      cases hfraction with
      | absent => rfl
      | present => cases hne
    obtain ⟨l', hl', hlength⟩ := exists_literalAt? (.inl (by rw [hlead]; simp [hdigits]))
    refine ⟨l', hl', ?_⟩
    rw [hlength, hlead, hne, List.append_nil, List.length_append]
    omega
  · have hhead := head?_of_tail hfraction hexponent hne t
    rw [leadingDigits_eq_nil hhead, List.append_nil] at hlead
    rw [afterDigits_eq_self hhead] at hafter
    have hread : leadingDigits (whole ++ (fraction ++ (exponent ++ t))) ≠ [] ∨
        (Scan.pointAt (afterDigits (whole ++ (fraction ++ (exponent ++ t))))).2.1 ≠ [] := by
      rw [hlead, hafter]
      refine hsome.imp_right fun h => ?_
      cases hfraction with
      | absent => exact absurd rfl h
      | present hdigits =>
        change leadingDigits (digits ++ (exponent ++ t)) ≠ []
        rw [leadingDigits_of_digits hdigits]
        simp [h]
    obtain ⟨l', hl', hlength⟩ := exists_literalAt? hread
    refine ⟨l', hl', ?_⟩
    have htail := length_le_tailLength hfraction hexponent t
    rw [hlength, hlead, hafter, List.length_append]
    omega

end Lengths

section Values

theorem isNaN_value (l : Literal) : l.value.isNaN = false := by
  unfold Literal.value ofDecimal
  split_ifs
  · decide +kernel
  · decide +kernel
  · decide +kernel
  · exact isNaN_of_le (zero_le_ofRatio _ _)

theorem isNaN_nan : nan.isNaN = true := by decide +kernel

def withSign (negative : Bool) (x : Float) : Float :=
  if negative then -x else x

theorem isNaN_withSign {x : Float} (h : x.isNaN = false) (negative : Bool) :
    (withSign negative x).isNaN = false := by
  cases negative with
  | false => exact h
  | true => exact isNaN_neg h

theorem ofText_infinity {sign : List Char} {negative : Bool} (hsign : IsSign sign negative) :
    ofText (String.ofList (sign ++ "Infinity".toList)) = withSign negative infinity := by
  cases hsign <;> rfl

theorem ofText_literal {sign : List Char} {negative : Bool} {l : Literal}
    (hsign : IsSign sign negative) (hword : l.IsSpelled word) :
    ofText (String.ofList (sign ++ word)) = withSign negative l.value :=
  Scan.ofText_of_ofSignedDecimal?
    (ofSignedDecimal?_eq_some_iff.mpr ⟨sign, negative, word, l, rfl, hsign, hword, rfl⟩)

end Values

theorem head_of_body {body : List Char}
    (h : body = "Infinity".toList ∨ ∃ l : Literal, l.IsSpelled body) :
    ∃ c y, body = c :: y ∧ c ≠ '-' ∧ c ≠ '+' := by
  rcases h with rfl | ⟨l, hl⟩
  · exact ⟨'I', _, rfl, by decide⟩
  · obtain ⟨c, y, hcons, hstarts⟩ := hl.startsNumber
    exact ⟨c, y, hcons, ne_sign_of_startsNumber hstarts⟩

theorem IsNumber.exists_body {sign rest : List Char} {negative : Bool}
    (hsplit : splitSign text = (negative, rest)) (htext : text = sign ++ rest)
    (hword : IsNumber word) (hfront : word <+: text) : ∃ body t, word = sign ++ body ∧
      rest = body ++ t ∧ (body = "Infinity".toList ∨ ∃ l : Literal, l.IsSpelled body) := by
  obtain ⟨sign', negative', body, hsign', rfl, hbody⟩ := hword
  obtain ⟨t, ht⟩ := hfront
  obtain ⟨c, y, rfl, hc⟩ := head_of_body hbody
  have hsplit' : splitSign text = (negative', c :: y ++ t) := by
    rw [← ht, List.append_assoc]
    apply splitSign_of_isSign hsign'
    rintro d ⟨⟩
    exact hc
  obtain ⟨-, rfl⟩ := Prod.mk.inj (hsplit.symm.trans hsplit')
  rw [← ht, List.append_assoc] at htext
  rw [List.append_cancel_right htext]
  exact ⟨c :: y, t, rfl, rfl, hbody⟩

section Reading

variable {sign rest : List Char} {negative : Bool}

theorem isLongest_of_body {body : List Char} (hsplit : splitSign text = (negative, rest))
    (htext : text = sign ++ rest) (hsign : IsSign sign negative)
    (hbody : body = "Infinity".toList ∨ ∃ l : Literal, l.IsSpelled body) (hfront : body <+: rest)
    (hlongest : ∀ other, other <+: rest →
      (other = "Infinity".toList ∨ ∃ l : Literal, l.IsSpelled other) →
      other.length ≤ body.length) : IsLongest (sign ++ body) text where
  front := by
    rw [htext]
    exact (List.prefix_append_right_inj sign).mpr hfront
  isNumber := ⟨sign, negative, body, hsign, rfl, hbody⟩
  longest := by
    intro word hword hnumber
    obtain ⟨other, t, rfl, hrest, hother⟩ := hnumber.exists_body hsplit htext hword
    have := hlongest other ⟨t, hrest.symm⟩ hother
    rw [List.length_append, List.length_append]
    omega

theorem isLongest_infinity (hsplit : splitSign text = (negative, rest))
    (htext : text = sign ++ rest) (hsign : IsSign sign negative)
    (hinfinity : "Infinity".toList <+: rest) : IsLongest (sign ++ "Infinity".toList) text := by
  apply isLongest_of_body hsplit htext hsign (.inl rfl) hinfinity
  rintro other hother (rfl | ⟨l, hl⟩)
  · exact Nat.le_refl _
  · obtain ⟨c, y, rfl, -⟩ := hl.startsNumber
    obtain ⟨t, rfl⟩ := hinfinity
    have hhead : c = 'I' := (List.cons_prefix_cons.mp hother).1
    exact absurd (hl.mem List.mem_cons_self) (hhead ▸ by decide)

theorem isLongest_literal {l : Literal} (hsplit : splitSign text = (negative, rest))
    (htext : text = sign ++ rest) (hsign : IsSign sign negative)
    (hinfinity : ¬"Infinity".toList <+: rest) (hread : literalAt? rest = some l)
    (hword : l.IsSpelled word) (hfront : word <+: rest) : IsLongest (sign ++ word) text := by
  apply isLongest_of_body hsplit htext hsign (.inr ⟨l, hword⟩) hfront
  rintro other hother (rfl | ⟨l', hl'⟩)
  · exact absurd hother hinfinity
  · obtain ⟨t, rfl⟩ := hother
    obtain ⟨l'', hread', hlength⟩ := exists_length_le hl' t
    obtain rfl := Option.some.inj (hread.symm.trans hread')
    exact hword.length_eq ▸ hlength

theorem not_isNumber (hsplit : splitSign text = (negative, rest)) (htext : text = sign ++ rest)
    (hinfinity : ¬"Infinity".toList <+: rest) (hread : literalAt? rest = none)
    (hfront : word <+: text) : ¬IsNumber word := by
  intro hnumber
  obtain ⟨body, t, rfl, rfl, rfl | ⟨l, hl⟩⟩ := hnumber.exists_body hsplit htext hfront
  · exact hinfinity (List.prefix_append _ _)
  · obtain ⟨l', hread', -⟩ := exists_length_le hl t
    cases hread.symm.trans hread'

end Reading

/-- What is at the front of a text: the longest number with its value, or no number. -/
theorem exists_isLongest (text : String) :
    (∃ word, IsLongest word (Text.trimStart text.toList) ∧
      ofTextPrefix text = ofText (String.ofList word) ∧ (ofTextPrefix text).isNaN = false) ∨
    (∀ word, word <+: Text.trimStart text.toList → ¬IsNumber word) ∧
      (ofTextPrefix text).isNaN = true := by
  obtain ⟨sign, htext, hsign⟩ := exists_isSign (Text.trimStart text.toList)
  rcases hsplit : splitSign (Text.trimStart text.toList) with ⟨negative, rest⟩
  rw [hsplit] at htext hsign
  -- The word for infinity is no literal, so it is told apart first.
  by_cases hinfinity : "Infinity".toList <+: rest
  · have hvalue : ofTextPrefix text = withSign negative infinity := by
      simp only [ofTextPrefix, hsplit, List.isPrefixOf_iff_prefix.mpr hinfinity, if_true]
      rfl
    refine .inl ⟨_, isLongest_infinity hsplit htext hsign hinfinity, ?_, ?_⟩
    · rw [hvalue, ofText_infinity hsign]
    · rw [hvalue]
      exact isNaN_withSign (by decide +kernel) negative
  · have hvalue : ofTextPrefix text =
        withSign negative (((literalAt? rest).map Literal.value).getD nan) := by
      simp only [ofTextPrefix, hsplit, List.isPrefixOf_iff_prefix, hinfinity, if_false]
      rfl
    cases hread : literalAt? rest with
    | none =>
      refine .inr ⟨fun word => not_isNumber hsplit htext hinfinity hread, ?_⟩
      rw [hvalue, hread]
      cases negative <;> exact isNaN_nan
    | some l =>
      rw [hread] at hvalue
      obtain ⟨word, t, hrest, hword⟩ := exists_isSpelled hread
      refine .inl ⟨_, isLongest_literal hsplit htext hsign hinfinity hread hword ⟨t, hrest.symm⟩,
        ?_, ?_⟩
      · rw [ofText_literal hsign hword]
        exact hvalue
      · rw [hvalue]
        exact isNaN_withSign (isNaN_value l) negative

end ScriptShell.Number
