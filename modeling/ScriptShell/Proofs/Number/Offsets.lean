import ScriptShell.Proofs.Number.Digits
import ScriptShell.Proofs.Number.Longest
import ScriptShell.Proofs.Text.Slice

namespace ScriptShell.Number

open Text

variable {digits fraction : List Char}

def signEnd (bytes : List UInt8) (i : Nat) : Nat :=
  if byteIs ['+', '-'].contains bytes i then i + 1 else i

def digitsEnd (bytes : List UInt8) (i : Nat) : Nat :=
  i + countFrom Char.isDigit bytes i

def mantissaEnd (bytes : List UInt8) (i : Nat) : Nat :=
  let stop := digitsEnd bytes i
  if byteIs ['.'].contains bytes stop then digitsEnd bytes (stop + 1) else stop

/-- Behind an exponent, which is given back if it has no digits. -/
def exponentEnd (bytes : List UInt8) (i : Nat) : Nat :=
  if byteIs ['e', 'E'].contains bytes i then
    let start := signEnd bytes (i + 1)
    let stop := digitsEnd bytes start
    if start < stop then stop else i
  else i

/-- The decimal literal that begins at an offset of a text, with all that stands in front of it,
and not a number if there is none. -/
def ofDecimalAt? (text : List Char) (start : Nat) : Option Float := do
  let bytes := encode text
  let stop := mantissaEnd bytes start
  if stop = start then return nan
  let (_, rest) ← cutAt? start text
  let (mantissa, _) ← cutAt? (stop - start) rest
  if mantissa = ['.'] then return nan
  let (front, _) ← cutAt? (exponentEnd bytes stop) text
  return (ofSignedDecimal? front).getD nan

/-- The longest number at the front of a text, after white space. There is no result if a cut
would lie inside a character. -/
def ofTextPrefixBytes? (text : String) : Option Float := do
  let text := trimStart text.toList
  let start := signEnd (encode text) 0
  let (_, rest) ← cutAt? start text
  if "Infinity".toList.isPrefixOf rest then
    let (front, _) ← cutAt? (start + byteSize "Infinity".toList) text
    return ofText (String.ofList front)
  ofDecimalAt? text start

section Ends

theorem isAscii_isDigit : IsAscii Char.isDigit := by
  intro c hc
  have hlt := (toNat_of_isDigit hc).2
  have hzero : '0'.toNat = 48 := rfl
  omega

theorem isAscii_contains {marks : List Char} (h : marks.all (·.toNat < 128) = true) :
    IsAscii marks.contains := by
  intro c hc
  simpa using List.all_eq_true.mp h c (List.contains_iff_mem.mp hc)

theorem exists_signEnd (front text : List Char) : ∃ sign, text = sign ++ (splitSign text).2 ∧
    IsSign sign (splitSign text).1 ∧
    signEnd (encode (front ++ text)) (byteSize front) = byteSize (front ++ sign) := by
  unfold signEnd
  rw [byteIs_encode (isAscii_contains rfl)]
  unfold splitSign
  split
  · exact ⟨['-'], rfl, .minus, by rw [byteSize_append]; rfl⟩
  · exact ⟨['+'], rfl, .plus, by rw [byteSize_append]; rfl⟩
  next hminus hplus =>
    refine ⟨[], rfl, .none, ?_⟩
    cases text with
    | nil => simp
    | cons c text =>
      have hc : c ≠ '+' ∧ c ≠ '-' :=
        ⟨fun h => hplus text (h ▸ rfl), fun h => hminus text (h ▸ rfl)⟩
      simp [hc]

theorem digitsEnd_encode (front text : List Char) :
    digitsEnd (encode (front ++ text)) (byteSize front) =
      byteSize (front ++ leadingDigits text) := by
  rw [digitsEnd, countFrom_encode isAscii_isDigit, byteSize_append]
  rfl

/-- Behind a whole part. -/
theorem exists_fractionEnd (front text : List Char) : ∃ fraction,
    text = fraction ++ (Scan.pointAt text).2.2 ∧ IsFraction fraction (Scan.pointAt text).2.1 ∧
    (if byteIs ['.'].contains (encode (front ++ text)) (byteSize front) then
      digitsEnd (encode (front ++ text)) (byteSize front + 1) else byteSize front) =
        byteSize (front ++ fraction) := by
  rw [byteIs_encode (isAscii_contains rfl)]
  unfold Scan.pointAt
  split
  next rest =>
    refine ⟨'.' :: leadingDigits rest, ?_, .present fun c => isDigit_of_mem_leadingDigits, ?_⟩
    · rw [List.cons_append, leadingDigits_append_afterDigits]
    · have hend := digitsEnd_encode (front ++ ['.']) rest
      rw [List.append_assoc, List.append_assoc, byteSize_append] at hend
      exact hend
  next hpoint =>
    refine ⟨[], rfl, .absent, ?_⟩
    cases text with
    | nil => simp
    | cons c text =>
      have hc : c ≠ '.' := fun h => hpoint text (h ▸ rfl)
      simp [hc]

theorem exists_mantissaEnd (front text : List Char) : ∃ fraction,
    text = leadingDigits text ++ (fraction ++ (Scan.pointAt (afterDigits text)).2.2) ∧
    IsFraction fraction (Scan.pointAt (afterDigits text)).2.1 ∧
    mantissaEnd (encode (front ++ text)) (byteSize front) =
      byteSize (front ++ (leadingDigits text ++ fraction)) := by
  obtain ⟨fraction, hrest, hfraction, hend⟩ :=
    exists_fractionEnd (front ++ leadingDigits text) (afterDigits text)
  refine ⟨fraction, ?_, hfraction, ?_⟩
  · rw [← hrest, leadingDigits_append_afterDigits]
  · rw [List.append_assoc, leadingDigits_append_afterDigits, List.append_assoc] at hend
    rw [← hend, ← digitsEnd_encode]
    rfl

theorem exists_exponentEnd (front text : List Char) : ∃ word rest, text = word ++ rest ∧
    IsExponent word (exponentAt text).1 ∧
    exponentEnd (encode (front ++ text)) (byteSize front) = byteSize (front ++ word) := by
  unfold exponentEnd
  rw [byteIs_encode (isAscii_contains rfl)]
  cases text with
  | nil => exact ⟨[], [], rfl, .absent, by simp⟩
  | cons mark text =>
    by_cases hmark : mark = 'e' ∨ mark = 'E'
    · have hmark' : (mark = 'e' || mark = 'E') = true := by simpa using hmark
      have hsize : byteSize (front ++ [mark]) = byteSize front + 1 := by
        rw [byteSize_append]
        rcases hmark with rfl | rfl <;> rfl
      obtain ⟨sign, htext, hsign, hstart⟩ := exists_signEnd (front ++ [mark]) text
      have hstop := digitsEnd_encode (front ++ [mark] ++ sign) (splitSign text).2
      rw [hsize, List.append_assoc, List.singleton_append] at hstart
      rw [List.append_assoc (front ++ [mark]), ← htext, List.append_assoc front,
        List.singleton_append] at hstop
      have hhead : (((mark :: text).head?.map ['e', 'E'].contains).getD false) = true := by
        simpa using hmark
      simp only [hhead, if_true, hstart, hstop, byteSize_lt_append, exponentAt, hmark',
        List.isEmpty_iff]
      -- A mark without digits is no exponent and is given back.
      by_cases hne : leadingDigits (splitSign text).2 = []
      · refine ⟨[], mark :: text, rfl, ?_, ?_⟩
        · simp [hne, IsExponent.absent]
        · simp [hne]
      · refine ⟨mark :: (sign ++ leadingDigits (splitSign text).2),
          afterDigits (splitSign text).2, ?_, ?_, ?_⟩
        · rw [List.cons_append, List.append_assoc, leadingDigits_append_afterDigits, ← htext]
        · simp only [hne, if_false]
          exact .present hmark hsign hne fun c => isDigit_of_mem_leadingDigits
        · rw [if_pos hne, List.append_assoc, List.append_assoc, List.singleton_append]
    · refine ⟨[], mark :: text, rfl, ?_, ?_⟩
      · simp [exponentAt, not_or.mp hmark, IsExponent.absent]
      · simp [not_or.mp hmark]

end Ends

section Cuts

variable {sign rest : List Char} {negative : Bool}

theorem mantissa_iff {whole : List Char} (hwhole : ∀ c ∈ whole, c.isDigit)
    (hfraction : IsFraction fraction digits) :
    whole ++ fraction = [] ∨ whole ++ fraction = ['.'] ↔ whole = [] ∧ digits = [] := by
  cases whole with
  | nil => cases hfraction <;> simp
  | cons c whole =>
    have hc : c ≠ '.' := by
      rintro rfl
      exact absurd (hwhole '.' List.mem_cons_self) (by decide)
    simp [hc]

theorem withSign_nan (negative : Bool) : withSign negative nan = nan := by
  cases negative <;> rfl

/-- Where the ends lie between characters every cut is made. -/
theorem ofDecimalAt?_of_ends (front mantissa exponent t : List Char)
    (hmantissa : mantissaEnd (encode (front ++ (mantissa ++ (exponent ++ t)))) (byteSize front) =
      byteSize (front ++ mantissa))
    (hexponent : exponentEnd (encode (front ++ (mantissa ++ (exponent ++ t))))
      (byteSize (front ++ mantissa)) = byteSize (front ++ (mantissa ++ exponent))) :
    ofDecimalAt? (front ++ (mantissa ++ (exponent ++ t))) (byteSize front) =
      some (if mantissa = [] ∨ mantissa = ['.'] then nan
        else (ofSignedDecimal? (front ++ (mantissa ++ exponent))).getD nan) := by
  have hcut := cutAt?_byteSize (front ++ (mantissa ++ exponent)) t
  rw [List.append_assoc, List.append_assoc] at hcut
  unfold ofDecimalAt?
  simp only [hmantissa, hexponent, cutAt?_byteSize, hcut, Option.bind_eq_bind, Option.bind_some]
  by_cases hne : mantissa = []
  · simp [hne]
  · have hlt : byteSize front < byteSize (front ++ mantissa) := byteSize_lt_append.mpr hne
    have hsub : byteSize (front ++ mantissa) - byteSize front = byteSize mantissa := by
      rw [byteSize_append, Nat.add_sub_cancel_left]
    simp only [if_neg (Nat.ne_of_gt hlt), hsub, cutAt?_byteSize, hne, false_or, Option.bind_some]
    split_ifs <;> rfl

theorem ofDecimalAt?_eq (hsign : IsSign sign negative) (rest : List Char) :
    ofDecimalAt? (sign ++ rest) (byteSize sign) =
      some (withSign negative (((literalAt? rest).map Literal.value).getD nan)) := by
  obtain ⟨fraction, hrest, hfraction, hmantissa⟩ := exists_mantissaEnd sign rest
  obtain ⟨exponent, t, htail, hexponent, hend⟩ := exists_exponentEnd
    (sign ++ (leadingDigits rest ++ fraction)) (Scan.pointAt (afterDigits rest)).2.2
  have hwhole : ∀ c ∈ leadingDigits rest, c.isDigit := fun c => isDigit_of_mem_leadingDigits
  have htext : rest = (leadingDigits rest ++ fraction) ++ (exponent ++ t) := by
    rw [← htail, List.append_assoc, ← hrest]
  rw [htail, List.append_assoc sign, ← htext, List.append_assoc sign] at hend
  have hcuts := ofDecimalAt?_of_ends sign (leadingDigits rest ++ fraction) exponent t
    (by rwa [← htext]) (by rwa [← htext])
  rw [← htext] at hcuts
  simp only [hcuts, mantissa_iff hwhole hfraction, Scan.literalAt?_eq, Bool.and_eq_true,
    List.isEmpty_iff]
  by_cases hnone : leadingDigits rest = [] ∧ (Scan.pointAt (afterDigits rest)).2.1 = []
  · rw [if_pos hnone, if_pos hnone]
    exact congrArg some (withSign_nan negative).symm
  · have hword : Literal.IsSpelled
        ⟨leadingDigits rest, _, _, (leadingDigits rest ++ (fraction ++ exponent)).length⟩ _ :=
      .parts hwhole hfraction (not_and_or.mp hnone) hexponent rfl
    rw [if_neg hnone, if_neg hnone, List.append_assoc, ofSignedDecimal?_eq_some_iff.mpr
      ⟨sign, negative, _, _, rfl, hsign, hword, rfl⟩]
    rfl

end Cuts

theorem ofTextPrefixBytes?_eq (text : String) :
    ofTextPrefixBytes? text = some (ofTextPrefix text) := by
  obtain ⟨sign, htext, hsign, hstart⟩ := exists_signEnd [] (trimStart text.toList)
  rcases hsplit : splitSign (trimStart text.toList) with ⟨negative, rest⟩
  rw [hsplit] at htext hsign
  dsimp only at htext hsign
  rw [List.nil_append, byteSize_nil, List.nil_append] at hstart
  unfold ofTextPrefixBytes? ofTextPrefix
  simp only [hstart, hsplit]
  rw [htext]
  simp only [cutAt?_byteSize, Option.bind_eq_bind, Option.bind_some]
  by_cases hinfinity : "Infinity".toList <+: rest
  · obtain ⟨t, rfl⟩ := hinfinity
    have hcut := cutAt?_byteSize (sign ++ "Infinity".toList) t
    rw [byteSize_append, List.append_assoc] at hcut
    simp only [List.isPrefixOf_iff_prefix, List.prefix_append, if_true, hcut, Option.bind_some]
    exact congrArg some (ofText_infinity hsign)
  · simp only [List.isPrefixOf_iff_prefix, hinfinity, if_false]
    exact ofDecimalAt?_eq hsign rest

/-- The longest number at the front of a text is what is read, as it is read by itself; it is not a
number only if there is none. All cuts lie between characters. -/
theorem ofTextPrefix_longest (text : String) :
    (∀ word, IsLongest word (trimStart text.toList) →
      ofTextPrefix text = ofText (String.ofList word)) ∧
    ((ofTextPrefix text).isNaN = true ↔
      ∀ word, word <+: trimStart text.toList → ¬IsNumber word) ∧
    ((∃ word, word <+: trimStart text.toList ∧ IsNumber word) →
      ∃ word, IsLongest word (trimStart text.toList)) ∧
    ofTextPrefixBytes? text = some (ofTextPrefix text) := by
  have hbytes := ofTextPrefixBytes?_eq text
  rcases exists_isLongest text with ⟨word, hword, hvalue, hnumber⟩ | ⟨hnone, hnan⟩
  · refine ⟨?_, ?_, fun _ => ⟨word, hword⟩, hbytes⟩
    · intro word' hword'
      rw [hvalue, hword.eq hword']
    · rw [hnumber]
      exact ⟨nofun, fun h => absurd hword.isNumber (h word hword.front)⟩
  · refine ⟨?_, ⟨fun _ => hnone, fun _ => hnan⟩, ?_, hbytes⟩
    · intro word hword
      exact absurd hword.isNumber (hnone word hword.front)
    · rintro ⟨word, hfront, hnumber⟩
      exact absurd hnumber (hnone word hfront)

def thousand : Literal := ⟨['1'], [], 3, 3⟩

theorem isSpelled_thousand : thousand.IsSpelled "1e3".toList := by
  have hwhole : ∀ c ∈ thousand.whole, c.isDigit := by simp [thousand]
  have hdigits : ∀ c ∈ ['3'], c.isDigit := by simp
  have hexponent : IsExponent "e3".toList thousand.exponent :=
    .present (.inl rfl) .none (by simp) hdigits
  exact .parts hwhole .absent (.inl (by simp [thousand])) hexponent rfl

theorem isLongest_thousand : IsLongest "-1e3".toList (trimStart "-1e3x".toList) := by
  have hread : literalAt? "1e3x".toList = some thousand := rfl
  have hsplit : splitSign (trimStart "-1e3x".toList) = (true, "1e3x".toList) := rfl
  exact isLongest_literal hsplit rfl .minus (by decide) hread isSpelled_thousand ⟨['x'], rfl⟩

theorem ofTextPrefix_longest_thousand :
    ofTextPrefix "-1e3x" = ofText (String.ofList "-1e3".toList) ∧
      ¬(ofTextPrefix "-1e3x").isNaN = true ∧ ∃ word, IsLongest word (trimStart "-1e3x".toList) := by
  obtain ⟨hvalue, hnan, hexists, -⟩ := ofTextPrefix_longest "-1e3x"
  have hnumber := isLongest_thousand.isNumber
  have hfront := isLongest_thousand.front
  exact ⟨hvalue _ isLongest_thousand, fun h => hnan.mp h _ hfront hnumber,
    hexists ⟨_, hfront, hnumber⟩⟩

end ScriptShell.Number
