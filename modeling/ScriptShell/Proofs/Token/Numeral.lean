import Mathlib.Data.List.TakeWhile
import ScriptShell.Proofs.Number.Digits
import ScriptShell.Proofs.Token.Spelling

namespace ScriptShell

namespace Number

variable {digits text t word : List Char}

/-- A sign, true for a minus, or none. -/
inductive IsSign : List Char → Bool → Prop where
  | none : IsSign [] false
  | plus : IsSign ['+'] false
  | minus : IsSign ['-'] true

/-- The exponent of a decimal literal: nothing, or a mark, perhaps a sign, and digits. -/
inductive IsExponent : List Char → Int → Prop where
  | absent : IsExponent [] 0
  | present {mark : Char} {sign digits : List Char} {negative : Bool}
      (hmark : mark = 'e' ∨ mark = 'E') (hsign : IsSign sign negative) (hne : digits ≠ [])
      (hdigits : ∀ c ∈ digits, c.isDigit) :
      IsExponent (mark :: (sign ++ digits))
        (if negative then -(exponentSize digits : Int) else exponentSize digits)

/-- What follows the whole part of a decimal literal: nothing, or a point and the digits of the
fraction, of which there may be none. -/
inductive IsFraction : List Char → List Char → Prop where
  | absent : IsFraction [] []
  | present {digits : List Char} (hdigits : ∀ c ∈ digits, c.isDigit) :
      IsFraction ('.' :: digits) digits

/-- A text spells a decimal literal: digits, perhaps a point and further digits, at least one digit
in all, and perhaps an exponent. -/
inductive Literal.IsSpelled (l : Literal) : List Char → Prop where
  | parts {fraction exponent : List Char} (hwhole : ∀ c ∈ l.whole, c.isDigit)
      (hfraction : IsFraction fraction l.fraction) (hsome : l.whole ≠ [] ∨ l.fraction ≠ [])
      (hexponent : IsExponent exponent l.exponent)
      (hlength : l.length = (l.whole ++ (fraction ++ exponent)).length) :
      l.IsSpelled (l.whole ++ (fraction ++ exponent))

theorem isDigit_of_mem_leadingDigits {c : Char} (h : c ∈ leadingDigits text) : c.isDigit :=
  List.all_eq_true.mp List.all_takeWhile c h

theorem leadingDigits_append_afterDigits : leadingDigits text ++ afterDigits text = text :=
  List.takeWhile_append_dropWhile

theorem leadingDigits_of_digits (hdigits : ∀ c ∈ digits, c.isDigit) (t : List Char) :
    leadingDigits (digits ++ t) = digits ++ leadingDigits t :=
  List.takeWhile_append_of_pos hdigits

theorem afterDigits_of_digits (hdigits : ∀ c ∈ digits, c.isDigit) (t : List Char) :
    afterDigits (digits ++ t) = afterDigits t :=
  List.dropWhile_append_of_pos hdigits

theorem leadingDigits_eq_nil (ht : ∀ c ∈ t.head?, c.isDigit = false) : leadingDigits t = [] := by
  cases t with
  | nil => rfl
  | cons c t => exact List.takeWhile_cons_of_neg (by simp [ht c rfl])

theorem afterDigits_eq_self (ht : ∀ c ∈ t.head?, c.isDigit = false) : afterDigits t = t := by
  cases t with
  | nil => rfl
  | cons c t => exact List.dropWhile_cons_of_neg (by simp [ht c rfl])

theorem leadingDigits_append (hdigits : ∀ c ∈ digits, c.isDigit)
    (ht : ∀ c ∈ t.head?, c.isDigit = false) : leadingDigits (digits ++ t) = digits := by
  rw [leadingDigits_of_digits hdigits, leadingDigits_eq_nil ht, List.append_nil]

theorem afterDigits_append (hdigits : ∀ c ∈ digits, c.isDigit)
    (ht : ∀ c ∈ t.head?, c.isDigit = false) : afterDigits (digits ++ t) = t := by
  rw [afterDigits_of_digits hdigits, afterDigits_eq_self ht]

theorem splitSign_of_isSign {sign : List Char} {negative : Bool} (h : IsSign sign negative)
    (ht : ∀ c ∈ t.head?, c ≠ '-' ∧ c ≠ '+') : splitSign (sign ++ t) = (negative, t) := by
  cases h with
  | none =>
    cases t with
    | nil => rfl
    | cons c t => simp [splitSign, ht c rfl]
  | plus | minus => rfl

theorem exists_isSign (text : List Char) :
    ∃ sign, text = sign ++ (splitSign text).2 ∧ IsSign sign (splitSign text).1 := by
  unfold splitSign
  split
  · exact ⟨['-'], rfl, .minus⟩
  · exact ⟨['+'], rfl, .plus⟩
  · exact ⟨[], rfl, .none⟩

theorem ne_sign_of_isDigit {c : Char} (h : c.isDigit) : c ≠ '-' ∧ c ≠ '+' := by
  constructor <;> rintro rfl <;> cases h

theorem exponentAt_of_isExponent {e : Int} (h : IsExponent word e) :
    exponentAt word = (e, word.length) := by
  cases h with
  | absent => rfl
  | @present mark sign digits negative hmark hsign hne hdigits =>
    have hmark' : (mark = 'e' || mark = 'E') = true := by simpa using hmark
    have hsplit : splitSign (sign ++ digits) = (negative, digits) :=
      splitSign_of_isSign hsign fun c hc =>
        ne_sign_of_isDigit (hdigits c (List.mem_of_mem_head? hc))
    have hleading : leadingDigits digits = digits := by
      simpa using leadingDigits_append hdigits (t := []) nofun
    unfold exponentAt
    simp only [hmark', if_true, hsplit, hleading, List.isEmpty_iff, hne, if_false,
      List.length_append, List.length_cons]
    congr 1
    omega

theorem exists_isExponent (text : List Char) : ∃ word rest, text = word ++ rest ∧
    IsExponent word (exponentAt text).1 ∧ word.length = (exponentAt text).2 := by
  cases text with
  | nil => exact ⟨[], [], rfl, .absent, rfl⟩
  | cons mark text =>
    obtain ⟨sign, htext, hsign⟩ := exists_isSign text
    unfold exponentAt
    by_cases hmark : (mark = 'e' || mark = 'E') = true
    · simp only [hmark, if_true]
      by_cases hne : leadingDigits (splitSign text).2 = []
      · simp only [hne, List.isEmpty_nil, if_true]
        exact ⟨[], mark :: text, rfl, .absent, rfl⟩
      · have hlength := congrArg List.length htext
        rw [List.length_append] at hlength
        simp only [List.isEmpty_iff, hne, if_false]
        refine ⟨mark :: (sign ++ leadingDigits (splitSign text).2), afterDigits (splitSign text).2,
          ?_, .present (by simpa using hmark) hsign hne fun c => isDigit_of_mem_leadingDigits, ?_⟩
        · rw [List.cons_append, List.append_assoc, leadingDigits_append_afterDigits, ← htext]
        · rw [List.length_cons, List.length_append]
          omega
    · simp only [hmark, Bool.false_eq_true, if_false]
      exact ⟨[], mark :: text, rfl, .absent, rfl⟩

theorem head?_of_isExponent {e : Int} (h : IsExponent word e) :
    ∀ c ∈ word.head?, c = 'e' ∨ c = 'E' := by
  cases h with
  | absent => nofun
  | present hmark =>
    intro c hc
    exact Option.some.inj hc ▸ hmark

theorem pointAt_of_isFraction {fraction exponent digits : List Char} {e : Int}
    (h : IsFraction fraction digits) (he : IsExponent exponent e) :
    ∃ point, Scan.pointAt (fraction ++ exponent) = (point, digits, exponent) ∧
      point + digits.length = fraction.length := by
  cases h with
  | absent =>
    refine ⟨0, ?_, rfl⟩
    cases exponent with
    | nil => rfl
    | cons c exponent =>
      refine Scan.pointAt_of_ne ?_ exponent
      rcases head?_of_isExponent he c rfl with rfl | rfl <;> decide
  | present hdigits =>
    have hhead : ∀ c ∈ exponent.head?, c.isDigit = false := fun c hc => by
      rcases head?_of_isExponent he c hc with rfl | rfl <;> rfl
    refine ⟨1, ?_, by simp [Nat.add_comm]⟩
    change (1, leadingDigits (digits ++ exponent), afterDigits (digits ++ exponent)) = _
    rw [leadingDigits_append hdigits hhead, afterDigits_append hdigits hhead]

theorem exists_isFraction (text : List Char) :
    ∃ word, text = word ++ (Scan.pointAt text).2.2 ∧ IsFraction word (Scan.pointAt text).2.1 ∧
      word.length = (Scan.pointAt text).1 + (Scan.pointAt text).2.1.length := by
  unfold Scan.pointAt
  split
  · next rest =>
    refine ⟨'.' :: leadingDigits rest, ?_, .present fun c => isDigit_of_mem_leadingDigits, ?_⟩
    · rw [List.cons_append, leadingDigits_append_afterDigits]
    · exact Nat.add_comm _ _
  · exact ⟨[], rfl, .absent, rfl⟩

def tailLength (text : List Char) : Nat :=
  (Scan.pointAt text).1 + (Scan.pointAt text).2.1.length + (exponentAt (Scan.pointAt text).2.2).2

theorem exists_literalAt?
    (h : leadingDigits text ≠ [] ∨ (Scan.pointAt (afterDigits text)).2.1 ≠ []) :
    ∃ l, literalAt? text = some l ∧
      l.length = (leadingDigits text).length + tailLength (afterDigits text) := by
  have hne : ¬((leadingDigits text).isEmpty && (Scan.pointAt (afterDigits text)).2.1.isEmpty) =
      true := by
    simpa [List.isEmpty_iff, imp_iff_not_or] using h
  rw [Scan.literalAt?_eq, if_neg hne]
  refine ⟨_, rfl, ?_⟩
  dsimp only [tailLength]
  omega

namespace Literal.IsSpelled

variable {l : Literal}

/-- A decimal literal is written in digits, points, signs and marks of exponents. -/
theorem mem (h : l.IsSpelled word) {c : Char} (hc : c ∈ word) :
    c.isDigit ∨ c ∈ ['.', 'e', 'E', '+', '-'] := by
  obtain ⟨whole, digits, e, length⟩ := l
  obtain ⟨hwhole, hfraction, -, hexponent, -⟩ := h
  dsimp only at hwhole hfraction hexponent
  simp only [List.mem_append] at hc
  rcases hc with hc | hc | hc
  · exact .inl (hwhole c hc)
  · cases hfraction with
    | absent => cases hc
    | present hdigits =>
      rcases List.mem_cons.mp hc with rfl | hc
      · exact .inr (by decide)
      · exact .inl (hdigits c hc)
  · cases hexponent with
    | absent => cases hc
    | present hmark hsign _ hdigits =>
      simp only [List.mem_cons, List.mem_append] at hc
      rcases hc with rfl | hc | hc
      · exact .inr (by rcases hmark with rfl | rfl <;> decide)
      · cases hsign with
        | none => cases hc
        | plus | minus => exact .inr (by obtain rfl := List.mem_singleton.mp hc; decide)
      · exact .inl (hdigits c hc)

theorem literalAt? (h : l.IsSpelled word) : Number.literalAt? word = some l := by
  obtain ⟨hwhole, hfraction, hsome, hexponent, hlength⟩ := h
  obtain ⟨whole, digits, e, length⟩ := l
  rename_i fraction exponent
  obtain ⟨point, hpoint, hwidth⟩ := pointAt_of_isFraction hfraction hexponent
  have hhead : ∀ c ∈ (fraction ++ exponent).head?, c.isDigit = false := by
    intro c hc
    cases hfraction with
    | absent =>
      rcases head?_of_isExponent hexponent c hc with rfl | rfl <;> rfl
    | present => exact Option.some.inj hc ▸ rfl
  have hne : ¬(whole.isEmpty && digits.isEmpty) = true := by
    simpa [List.isEmpty_iff, imp_iff_not_or] using hsome
  rw [Scan.literalAt?_eq, leadingDigits_append hwhole hhead, afterDigits_append hwhole hhead,
    hpoint, exponentAt_of_isExponent hexponent, if_neg hne]
  simp only [List.length_append] at hlength hwidth
  rw [hlength, ← hwidth, Nat.add_assoc, Nat.add_assoc, Nat.add_assoc]

theorem length_eq (h : l.IsSpelled word) : l.length = word.length := by
  obtain ⟨-, -, -, -, hlength⟩ := h
  exact hlength

theorem startsNumber (h : l.IsSpelled word) :
    ∃ c rest, word = c :: rest ∧ Scan.startsNumber c rest = true := by
  obtain ⟨whole, digits, e, length⟩ := l
  obtain ⟨hwhole, hfraction, hsome, -, -⟩ := h
  dsimp only at hwhole hfraction hsome ⊢
  unfold Scan.startsNumber
  cases whole with
  | cons c whole => exact ⟨c, _, rfl, by simp [hwhole c List.mem_cons_self]⟩
  | nil =>
    have hdigits := hsome.resolve_left (· rfl)
    cases hfraction with
    | absent => exact absurd rfl hdigits
    | present hall =>
      cases digits with
      | nil => exact absurd rfl hdigits
      | cons d digits => exact ⟨'.', _, rfl, by simp [hall d List.mem_cons_self]⟩

end Literal.IsSpelled

theorem exists_isSpelled {l : Literal} (h : literalAt? text = some l) :
    ∃ word rest, text = word ++ rest ∧ l.IsSpelled word := by
  rw [Scan.literalAt?_eq] at h
  split at h
  · cases h
  next hsome =>
  obtain ⟨fraction, hrest, hfraction, hwidth⟩ := exists_isFraction (afterDigits text)
  obtain ⟨exponent, rest, hend, hexponent, hlength⟩ :=
    exists_isExponent (Scan.pointAt (afterDigits text)).2.2
  obtain rfl := Option.some.inj h
  refine ⟨leadingDigits text ++ (fraction ++ exponent), rest, ?_,
    .parts (fun c => isDigit_of_mem_leadingDigits) hfraction ?_ hexponent ?_⟩
  · rw [List.append_assoc, List.append_assoc, ← hend, ← hrest, leadingDigits_append_afterDigits]
  · simpa [List.isEmpty_iff, imp_iff_not_or] using hsome
  · simp only [List.length_append, hwidth, hlength]
    omega

theorem ne_sign_of_startsNumber {c : Char} {rest : List Char}
    (h : Scan.startsNumber c rest = true) : c ≠ '-' ∧ c ≠ '+' := by
  constructor <;> rintro rfl <;> cases h

/-- Exactly the decimal literals, with or without a sign, are read as such. -/
theorem ofSignedDecimal?_eq_some_iff {x : Float} : ofSignedDecimal? text = some x ↔
    ∃ sign negative word, ∃ l : Literal, text = sign ++ word ∧ IsSign sign negative ∧
      l.IsSpelled word ∧ x = if negative then -l.value else l.value := by
  unfold ofSignedDecimal?
  constructor
  · intro h
    obtain ⟨sign, htext, hsign⟩ := exists_isSign text
    split at h
    next negative word hsplit =>
    rw [hsplit] at htext hsign
    cases hread : literalAt? word with
    | none => simp [hread] at h
    | some l =>
      obtain ⟨front, rest, rfl, hfront⟩ := exists_isSpelled hread
      simp only [hread, hfront.length_eq, List.length_append] at h
      by_cases hrest : rest = []
      · rw [hrest, List.length_nil, Nat.add_zero, if_pos rfl] at h
        rw [hrest, List.append_nil] at htext
        exact ⟨sign, negative, front, l, htext, hsign, hfront, (Option.some.inj h).symm⟩
      · have hpos := List.length_pos_iff.mpr hrest
        rw [if_neg (by omega)] at h
        cases h
  · rintro ⟨sign, negative, word, l, rfl, hsign, hword, rfl⟩
    obtain ⟨c, rest, rfl, hstarts⟩ := hword.startsNumber
    have hhead : ∀ d ∈ (c :: rest).head?, d ≠ '-' ∧ d ≠ '+' := by
      rintro d ⟨⟩
      exact ne_sign_of_startsNumber hstarts
    rw [splitSign_of_isSign hsign hhead]
    simp only [hword.literalAt?, hword.length_eq, if_true]

end Number

namespace Scan

open Number

variable {text word : List Char} {c : Char} {rest : List Char} {x : Float}

/-- An unsigned number in writing: hexadecimal digits behind their mark, or a decimal literal. -/
inductive IsNumeral : List Char → Float → Prop where
  | hex {mark : Char} {digits : List Char} (hmark : mark = 'x' ∨ mark = 'X') (hne : digits ≠ [])
      (hdigits : ∀ c ∈ digits, Text.isHexDigit c) :
      IsNumeral ('0' :: mark :: digits) (ofHexDigits digits)
  | decimal {l : Literal} {word : List Char} (h : l.IsSpelled word) : IsNumeral word l.value

theorem ne_hexMark_of_isSpelled {l : Literal} (h : l.IsSpelled word) :
    ∀ m y, word = '0' :: m :: y → ¬(m = 'x' ∨ m = 'X') := by
  rintro m y rfl hm
  have hmem := h.mem (List.mem_cons_of_mem '0' List.mem_cons_self)
  rcases hm with rfl | rfl <;> exact absurd hmem (by decide)

/-- What the scanner takes for a number is a numeral, -/
theorem exists_isNumeral {n : Nat} (h : numberAt text = .ok (x, n)) :
    ∃ word rest, text = word ++ rest ∧ word.length = n ∧ IsNumeral word x := by
  rcases isHexMark_or_decimal text with ⟨m, y, rfl, hm⟩ | hdecimal
  · rw [numberAt_hex hm] at h
    split at h
    · cases h
    next hne =>
    obtain ⟨rfl, rfl⟩ := Prod.mk.inj (Except.ok.inj h)
    refine ⟨'0' :: m :: y.takeWhile Text.isHexDigit, y.dropWhile Text.isHexDigit, ?_, rfl,
      .hex hm (by simpa using hne) fun c hc => List.all_eq_true.mp List.all_takeWhile c hc⟩
    rw [List.cons_append, List.cons_append, List.takeWhile_append_dropWhile]
  · rw [numberAt_decimal hdecimal] at h
    cases hread : literalAt? text with
    | none => simp [hread] at h
    | some l =>
      rw [hread] at h
      obtain ⟨rfl, rfl⟩ := Prod.mk.inj (Except.ok.inj h)
      obtain ⟨word, rest, htext, hword⟩ := exists_isSpelled hread
      exact ⟨word, rest, htext, hword.length_eq.symm, .decimal hword⟩

theorem numberAt_of_isNumeral (h : IsNumeral word x) : numberAt word = .ok (x, word.length) := by
  cases h with
  | @hex mark digits hmark hne hdigits =>
    have hall := List.takeWhile_eq_self_iff.mpr hdigits
    rw [numberAt_hex hmark, hall, if_neg (by simpa using hne)]
    rfl
  | decimal h =>
    rw [numberAt_decimal (ne_hexMark_of_isSpelled h), h.literalAt?, ← h.length_eq]
    rfl

theorem IsNumeral.startsNumber (h : IsNumeral word x) :
    ∃ c rest, word = c :: rest ∧ startsNumber c rest = true := by
  cases h with
  | hex => exact ⟨'0', _, rfl, rfl⟩
  | decimal h => exact h.startsNumber

end Scan

namespace Text

variable {text : List Char} {c : Char}

theorem isBlank_of_visible (h : 32 < c.toNat) (h' : c.toNat < 128) : isBlank c = false := by
  have hspace : c ≠ ' ' := by
    rintro rfl
    exact absurd h (by decide)
  simp only [isBlank, hspace, decide_false, Bool.false_or, Bool.or_eq_false_iff,
    Bool.and_eq_false_iff, decide_eq_false_iff_not]
  omega

theorem trimStart_eq_self (h : ∀ c ∈ text, isBlank c = false) : trimStart text = text := by
  cases text with
  | nil => rfl
  | cons c text => simp [trimStart, h c List.mem_cons_self]

theorem trim_eq_self (h : ∀ c ∈ text, isBlank c = false) : trim text = text := by
  unfold trim
  rw [trimStart_eq_self h, trimStart_eq_self fun c hc => h c (List.mem_reverse.mp hc),
    List.reverse_reverse]

theorem isBlank_of_isDigit (h : c.isDigit) : isBlank c = false := by
  obtain ⟨hle, hlt⟩ := Number.toNat_of_isDigit h
  have hzero : '0'.toNat = 48 := rfl
  exact isBlank_of_visible (by omega) (by omega)

theorem isBlank_of_isHexDigit (h : isHexDigit c) : isBlank c = false := by
  have hrange := Number.toNat_of_isHexDigit h
  exact isBlank_of_visible (by omega) (by omega)

end Text

namespace Scan

open Number

variable {text word : List Char} {c : Char} {x : Float}

theorem isBlank_of_mem (h : c.isDigit ∨ c ∈ ['.', 'e', 'E', '+', '-']) :
    Text.isBlank c = false := by
  have hmarks : ['.', 'e', 'E', '+', '-'].Forall (Text.isBlank · = false) :=
    ⟨rfl, rfl, rfl, rfl, rfl⟩
  exact h.elim Text.isBlank_of_isDigit (List.forall_iff_forall_mem.mp hmarks c)

theorem IsNumeral.isBlank (h : IsNumeral word x) : ∀ c ∈ word, Text.isBlank c = false := by
  intro c hc
  cases h with
  | hex hmark _ hdigits =>
    simp only [List.mem_cons] at hc
    rcases hc with rfl | rfl | hc
    · rfl
    · rcases hmark with rfl | rfl <;> rfl
    · exact Text.isBlank_of_isHexDigit (hdigits c hc)
  | decimal h => exact isBlank_of_mem (h.mem hc)

theorem ofText_decimal (hblank : ∀ c ∈ text, Text.isBlank c = false)
    (hhex : ∀ m y, text = '0' :: m :: y → ¬(m = 'x' ∨ m = 'X'))
    (hletter : ∀ c ∈ text.head?, c.isDigit ∨ c = '.') (hne : text ≠ []) :
    ofText (String.ofList text) = (ofSignedDecimal? text).getD nan := by
  have hinfinity : text ≠ "Infinity".toList ∧ text ≠ "+Infinity".toList ∧
      text ≠ "-Infinity".toList := by
    refine ⟨?_, ?_, ?_⟩ <;> rintro rfl <;> exact absurd (hletter _ rfl) (by decide)
  unfold ofText
  rw [String.toList_ofList, Text.trim_eq_self hblank]
  split
  · exact absurd rfl hne
  · exact absurd (.inl rfl) (hhex _ _ rfl)
  · exact absurd (.inr rfl) (hhex _ _ rfl)
  · simp only [hinfinity, decide_false, Bool.or_self, Bool.false_eq_true, if_false]

/-- A decimal literal is converted to its value, with or without a sign. -/
theorem ofText_of_ofSignedDecimal? (h : ofSignedDecimal? text = some x) :
    ofText (String.ofList text) = x := by
  obtain ⟨sign, negative, word, l, htext, hsign, hword, -⟩ := ofSignedDecimal?_eq_some_iff.mp h
  have hmem : ∀ c ∈ text, c.isDigit ∨ c ∈ ['.', 'e', 'E', '+', '-'] := by
    intro c hc
    rw [htext, List.mem_append] at hc
    rcases hc with hc | hc
    · cases hsign with
      | none => cases hc
      | plus | minus => exact .inr (by obtain rfl := List.mem_singleton.mp hc; decide)
    · exact hword.mem hc
  have hletter : 'I' ∉ text := fun hc => absurd (hmem 'I' hc) (by decide)
  have hinfinity : text ≠ "Infinity".toList ∧ text ≠ "+Infinity".toList ∧
      text ≠ "-Infinity".toList := by
    refine ⟨?_, ?_, ?_⟩ <;> rintro rfl <;> exact hletter (by decide)
  have hhex (m : Char) (y : List Char) (heq : text = '0' :: m :: y) : ¬(m = 'x' ∨ m = 'X') := by
    cases hsign with
    | none => exact ne_hexMark_of_isSpelled hword m y (htext.symm.trans heq)
    | plus | minus => cases htext.symm.trans heq
  unfold ofText
  rw [String.toList_ofList, Text.trim_eq_self fun c hc => isBlank_of_mem (hmem c hc)]
  split
  · cases h
  · exact absurd (.inl rfl) (hhex _ _ rfl)
  · exact absurd (.inr rfl) (hhex _ _ rfl)
  · simp only [hinfinity, decide_false, Bool.or_self, Bool.false_eq_true, if_false, h,
      Option.getD_some]

theorem ofText_hex {mark : Char} {digits : List Char} (hmark : mark = 'x' ∨ mark = 'X')
    (hblank : ∀ c ∈ '0' :: mark :: digits, Text.isBlank c = false) :
    ofText (String.ofList ('0' :: mark :: digits)) =
      if digits.isEmpty || !digits.all Text.isHexDigit then nan else ofHexDigits digits := by
  unfold ofText
  rw [String.toList_ofList, Text.trim_eq_self hblank]
  rcases hmark with rfl | rfl <;> rfl

theorem ofText_of_isNumeral (h : IsNumeral word x) : ofText (String.ofList word) = x := by
  have hblank := h.isBlank
  cases h with
  | hex hmark hne hdigits =>
    rw [ofText_hex hmark hblank, if_neg (by simpa [hne] using hdigits)]
  | @decimal l _ h =>
    exact ofText_of_ofSignedDecimal?
      (ofSignedDecimal?_eq_some_iff.mpr ⟨[], false, word, l, rfl, .none, h, rfl⟩)

/-- A text without blanks that begins like an unsigned number and is converted to a number is a
numeral. -/
theorem isNumeral_ofText (hblank : ∀ c ∈ text, Text.isBlank c = false)
    (hletter : ∃ c ∈ text.head?, c.isDigit ∨ c = '.')
    (hnumber : (ofText (String.ofList text)).isNaN = false) :
    IsNumeral text (ofText (String.ofList text)) := by
  have hnan : nan.isNaN = true := by decide +kernel
  rcases isHexMark_or_decimal text with ⟨m, digits, rfl, hm⟩ | hdecimal
  · rw [ofText_hex hm hblank] at hnumber ⊢
    split at hnumber
    · cases hnan.symm.trans hnumber
    next hdigits =>
    rw [if_neg hdigits]
    simp only [Bool.or_eq_true, not_or, Bool.not_eq_true, Bool.not_eq_false', List.isEmpty_iff,
      List.all_eq_true] at hdigits
    exact .hex hm hdigits.1 hdigits.2
  · obtain ⟨c, hhead, hc⟩ := hletter
    have hletter : ∀ c ∈ text.head?, c.isDigit ∨ c = '.' := fun d hd =>
      Option.some.inj (hhead.symm.trans hd) ▸ hc
    have hne : text ≠ [] := by
      rintro rfl
      cases hhead
    rw [ofText_decimal hblank hdecimal hletter hne] at hnumber ⊢
    cases hread : ofSignedDecimal? text with
    | none =>
      rw [hread] at hnumber
      cases hnan.symm.trans hnumber
    | some value =>
      obtain ⟨sign, negative, word, l, rfl, hsign, hword, rfl⟩ :=
        ofSignedDecimal?_eq_some_iff.mp hread
      -- A signed word does not begin with a digit or a point.
      cases hsign with
      | none => exact .decimal hword
      | plus => exact absurd (hletter '+' rfl) (by decide)
      | minus => exact absurd (hletter '-' rfl) (by decide)

end Scan

end ScriptShell
