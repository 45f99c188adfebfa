import ScriptShell.Proofs.Invocation
import ScriptShell.Proofs.Number.Offsets

namespace ScriptShell

namespace Text

theorem eq_false_of_dropWhile {p : Char → Bool} {text : List Char} :
    ∀ c ∈ (text.dropWhile p).head?, p c = false := by
  intro c hc
  have hhead := List.head?_dropWhile_not p text
  rwa [Option.mem_def.mp hc] at hhead

end Text

open Text

namespace Number

def saturatingMul (a b : Int64) : Int64 :=
  Int64.ofIntClamp (a.toInt * b.toInt)

def saturatingAdd (a b : Int64) : Int64 :=
  Int64.ofIntClamp (a.toInt + b.toInt)

def neg? (a : Int64) : Option Int64 :=
  if a = Int64.minValue then none else some (-a)

def subByte? (a b : UInt8) : Option UInt8 :=
  if b ≤ a then some (a - b) else none

/-- Reads one more digit. -/
def takeDigit? (n : Int64) (b : UInt8) : Option Int64 := do
  let digit ← subByte? b '0'.toUInt8
  return saturatingAdd (saturatingMul n 10) (Int64.ofNat digit.toNat)

def digitsWord? (bytes : List UInt8) : Option Int64 :=
  (bytes.takeWhile fun b => (Char.ofUInt8 b).isDigit).foldlM takeDigit? 0

def nearestWord (n : Nat) : Int64 :=
  Int64.ofIntClamp n

section Words

variable {b : UInt8} {digits : List Char}

theorem toInt_ofIntClamp (n : Int) :
    (Int64.ofIntClamp n).toInt = max minInt64 (min maxInt64 n) := by
  have hmin : Int64.minValue.toInt = minInt64 := rfl
  have hmax : Int64.maxValue.toInt = maxInt64 := rfl
  have hle : minInt64 ≤ maxInt64 := by decide
  unfold Int64.ofIntClamp
  split_ifs
  · rw [Int64.toInt_ofIntLE]
    omega
  · omega
  · omega

theorem toInt_nearestWord (n : Nat) : (nearestWord n).toInt = min maxInt64 n := by
  rw [nearestWord, toInt_ofIntClamp]
  unfold minInt64 maxInt64
  omega

theorem saturatingAdd_saturatingMul (n : Nat) {d : Nat} (hd : d < 10) :
    saturatingAdd (saturatingMul (nearestWord n) 10) (Int64.ofNat d) = nearestWord (n * 10 + d) := by
  -- A product that is cut off is the largest word, and so is its sum with a digit.
  have hten : (10 : Int64).toInt = 10 := rfl
  have hdigit : (Int64.ofNat d).toInt = d := Int64.toInt_ofNat_of_lt (by omega)
  apply Int64.toInt_inj.mp
  rw [saturatingAdd, saturatingMul, toInt_ofIntClamp, toInt_ofIntClamp, toInt_nearestWord,
    toInt_nearestWord, hten, hdigit]
  unfold minInt64 maxInt64
  omega

theorem toNat_ofUInt8 (b : UInt8) : (Char.ofUInt8 b).toNat = b.toNat :=
  UInt8.toNat_toUInt32 b

theorem takeDigit?_nearestWord (hb : (Char.ofUInt8 b).isDigit) (n : Nat) :
    takeDigit? (nearestWord n) b =
      some (nearestWord (n * 10 + ((Char.ofUInt8 b).toNat - '0'.toNat))) := by
  obtain ⟨hle, hlt⟩ := toNat_of_isDigit hb
  rw [toNat_ofUInt8] at hle hlt ⊢
  have hle' : '0'.toUInt8 ≤ b := UInt8.le_iff_toNat_le.mpr hle
  have hsub : subByte? b '0'.toUInt8 = some (b - '0'.toUInt8) := if_pos hle'
  have hdigit : (b - '0'.toUInt8).toNat = b.toNat - '0'.toNat := UInt8.toNat_sub_of_le _ _ hle'
  simp only [takeDigit?, hsub, Option.bind_eq_bind, Option.bind_some, hdigit]
  exact congrArg some (saturatingAdd_saturatingMul n hlt)

theorem foldlM_takeDigit? (hdigits : ∀ c ∈ digits, c.isDigit) (n : Nat) :
    (encode digits).foldlM takeDigit? (nearestWord n) =
      some (nearestWord (ofDigitsFrom n digits)) := by
  induction digits generalizing n with
  | nil => rfl
  | cons c digits ih =>
    obtain ⟨hc, hrest⟩ := List.forall_mem_cons.mp hdigits
    -- A digit is the one byte that it is encoded as.
    rcases utf8EncodeChar_cases c with ⟨b, hencode, rfl⟩ | ⟨hlarge, -⟩
    · rw [encode_cons, hencode, List.singleton_append, List.foldlM_cons,
        takeDigit?_nearestWord hc]
      exact ih hrest _
    · exact absurd (isAscii_isDigit c hc) (by omega)

theorem digitsWord?_encode (text : List Char) :
    digitsWord? (encode text) = some (nearestWord (ofDigitsFrom 0 (leadingDigits text))) := by
  rw [digitsWord?, takeWhile_encode isAscii_isDigit]
  exact foldlM_takeDigit? (fun c => isDigit_of_mem_leadingDigits) 0

theorem neg?_nearestWord (n : Nat) :
    ∃ w, neg? (nearestWord n) = some w ∧ w.toInt = -min maxInt64 n := by
  have hvalue := toInt_nearestWord n
  have hrange : 0 ≤ min maxInt64 (n : Int) ∧ min maxInt64 (n : Int) < 2 ^ 63 := by
    unfold maxInt64
    omega
  have hne : nearestWord n ≠ Int64.minValue := by
    intro heq
    rw [heq, Int64.toInt_minValue] at hvalue
    omega
  refine ⟨_, if_neg hne, ?_⟩
  rw [Int64.toInt_neg, hvalue, Int.bmod_eq_of_le (by omega) (by omega)]

end Words

section Signs

variable {text : List Char}

theorem byteIs_minus (text : List Char) :
    byteIs ['-'].contains (encode text) 0 = (splitSign text).1 := by
  have hmark : IsAscii ['-'].contains := isAscii_contains rfl
  have hbyte := byteIs_encode hmark [] text
  rw [List.nil_append, byteSize_nil] at hbyte
  rw [hbyte]
  unfold splitSign
  split
  · rfl
  · rfl
  next hminus _ =>
    cases text with
    | nil => rfl
    | cons c text =>
      have hc : c ≠ '-' := fun h => hminus text (h ▸ rfl)
      simp [hc]

theorem ne_sign_of_splitSign (h : (splitSign text).2 = text) :
    ∀ c ∈ text.head?, c ≠ '-' ∧ c ≠ '+' := by
  intro c hc
  obtain ⟨rest, rfl⟩ := List.head?_eq_some_iff.mp hc
  constructor <;> rintro rfl <;> simp [splitSign] at h

end Signs

end Number

namespace Invocation

open Number

/-- A text in the parts that an integer is read from: white space, perhaps a sign, digits and the
rest. -/
structure IntegerParts where
  blanks : List Char
  sign : List Char
  negative : Bool
  digits : List Char
  rest : List Char

/-- Whether a text is made up of these parts, each as long as it can be. -/
structure IntegerParts.MakeUp (p : IntegerParts) (text : List Char) : Prop where
  joined : text = p.blanks ++ (p.sign ++ (p.digits ++ p.rest))
  blanks : ∀ c ∈ p.blanks, isBlank c
  behindBlanks : ∀ c ∈ (p.sign ++ (p.digits ++ p.rest)).head?, isBlank c = false
  sign : IsSign p.sign p.negative
  behindSign : p.sign = [] → ∀ c ∈ (p.digits ++ p.rest).head?, c ≠ '-' ∧ c ≠ '+'
  digits : ∀ c ∈ p.digits, c.isDigit
  behindDigits : ∀ c ∈ p.rest.head?, c.isDigit = false

/-- The integer at the front of a text, worked out on the words for its bytes. There is no result
if an operation leaves its range, or if the sign were not cut off between characters. -/
def leadingWord? (text : String) : Option Int64 := do
  let text := trimStart text.toList
  let bytes := encode text
  let (_, rest) ← cutAt? (signEnd bytes 0) text
  let n ← digitsWord? (encode rest)
  if byteIs ['-'].contains bytes 0 then neg? n else return n

namespace IntegerParts.MakeUp

variable {p q : IntegerParts} {text : List Char}

theorem trimStart_eq (h : p.MakeUp text) : trimStart text = p.sign ++ (p.digits ++ p.rest) := by
  rw [h.joined, trimStart, List.dropWhile_append_of_pos h.blanks]
  have hbehind := h.behindBlanks
  cases hrest : p.sign ++ (p.digits ++ p.rest) with
  | nil => rfl
  | cons c rest =>
    rw [hrest] at hbehind
    rw [List.dropWhile_cons, hbehind c rfl]
    rfl

theorem splitSign_eq (h : p.MakeUp text) :
    splitSign (trimStart text) = (p.negative, p.digits ++ p.rest) := by
  rw [h.trimStart_eq]
  obtain ⟨blanks, sign, negative, digits, rest⟩ := p
  have hbehind := h.behindSign
  have hsign : IsSign sign negative := h.sign
  cases hsign with
  | none => exact splitSign_of_isSign .none (hbehind rfl)
  | plus | minus => rfl

theorem leadingDigits_eq (h : p.MakeUp text) :
    leadingDigits (splitSign (trimStart text)).2 = p.digits := by
  rw [h.splitSign_eq]
  exact leadingDigits_append h.digits h.behindDigits

theorem eq (hp : p.MakeUp text) (hq : q.MakeUp text) : p = q := by
  have hsplit := hp.splitSign_eq.symm.trans hq.splitSign_eq
  have hdigits := hp.leadingDigits_eq.symm.trans hq.leadingDigits_eq
  have htrim := hp.trimStart_eq.symm.trans hq.trimStart_eq
  have htext := hp.joined.symm.trans hq.joined
  obtain ⟨blanks, sign, negative, digits, rest⟩ := p
  obtain ⟨blanks', sign', negative', digits', rest'⟩ := q
  dsimp only at hsplit hdigits htrim htext
  obtain ⟨rfl, hbehind⟩ := Prod.mk.inj hsplit
  subst hdigits
  obtain rfl := List.append_cancel_left hbehind
  obtain rfl := List.append_cancel_right htrim
  obtain rfl := List.append_cancel_right htext
  rfl

end IntegerParts.MakeUp

theorem exists_makeUp (text : List Char) : ∃ p : IntegerParts, p.MakeUp text := by
  obtain ⟨sign, htrim, hsign⟩ := exists_isSign (trimStart text)
  rcases hsplit : splitSign (trimStart text) with ⟨negative, behind⟩
  rw [hsplit] at htrim hsign
  dsimp only at htrim hsign
  have hbehind : leadingDigits behind ++ afterDigits behind = behind :=
    leadingDigits_append_afterDigits
  refine ⟨⟨text.takeWhile isBlank, sign, negative, leadingDigits behind, afterDigits behind⟩,
    ?_, ?_, ?_, hsign, ?_, ?_, ?_⟩
  · rw [hbehind, ← htrim]
    exact List.takeWhile_append_dropWhile.symm
  · exact List.all_eq_true.mp List.all_takeWhile
  · rw [hbehind, ← htrim]
    exact eq_false_of_dropWhile
  · intro hnone
    obtain rfl : sign = [] := hnone
    obtain rfl : trimStart text = behind := htrim
    rw [hbehind]
    exact ne_sign_of_splitSign (congrArg Prod.snd hsplit)
  · exact fun c => isDigit_of_mem_leadingDigits
  · exact eq_false_of_dropWhile

theorem leadingWord?_eq (text : String) :
    ∃ w, leadingWord? text = some w ∧ w.toInt = leadingInteger text := by
  obtain ⟨sign, htext, -, hend⟩ := exists_signEnd [] (trimStart text.toList)
  rw [List.nil_append, byteSize_nil, List.nil_append] at hend
  have hcut := cutAt?_byteSize sign (splitSign (trimStart text.toList)).2
  rw [← htext] at hcut
  simp only [leadingWord?, hend, hcut, digitsWord?_encode, byteIs_minus, Option.bind_eq_bind,
    Option.bind_some, leadingInteger_eq]
  cases (splitSign (trimStart text.toList)).1 with
  | false => exact ⟨_, rfl, by simp [toInt_nearestWord]⟩
  | true => simpa using neg?_nearestWord _

/-- White space, a sign and digits are found at the front of a text in one way, and the integer there
is what the digits denote, or the largest word if they denote more, with the sign. No operation on
words leaves its range on the way: behind every digit there is the word for the digits so far, and
in the end the word for the integer. -/
theorem leadingInteger_saturates (text : String) :
    (∃! p : IntegerParts, p.MakeUp text.toList) ∧
    (∀ p : IntegerParts, p.MakeUp text.toList →
      leadingInteger text = (if p.negative then -1 else 1) *
        min (Nat.ofDigitChars 10 p.digits 0 : Int) (2 ^ 63 - 1) ∧
      ∀ front, front <+: p.digits → ∃ w, (encode front).foldlM takeDigit? 0 = some w ∧
        w.toInt = min (Nat.ofDigitChars 10 front 0 : Int) (2 ^ 63 - 1)) ∧
    ∃ w, leadingWord? text = some w ∧ w.toInt = leadingInteger text := by
  have hmax : maxInt64 = 2 ^ 63 - 1 := rfl
  refine ⟨?_, ?_, leadingWord?_eq text⟩
  · obtain ⟨p, hp⟩ := exists_makeUp text.toList
    exact ⟨p, hp, fun q hq => hq.eq hp⟩
  intro p hp
  constructor
  · rw [leadingInteger_eq, hp.leadingDigits_eq, hp.splitSign_eq, ofDigitsFrom_eq_ofDigitChars,
      hmax, Int.min_comm]
  · intro front hfront
    have hdigits : ∀ c ∈ front, c.isDigit := fun c hc => hp.digits c (hfront.subset hc)
    refine ⟨_, foldlM_takeDigit? hdigits 0, ?_⟩
    rw [toInt_nearestWord, ofDigitsFrom_eq_ofDigitChars, hmax, Int.min_comm]

def farBelow : IntegerParts :=
  ⟨['\t'], ['-'], true, "92233720368547758080".toList, ['k']⟩

theorem makeUp_farBelow : farBelow.MakeUp "\t-92233720368547758080k".toList where
  joined := rfl
  blanks := by simp [farBelow, isBlank]
  behindBlanks := by
    rintro c ⟨⟩
    rfl
  sign := .minus
  behindSign := nofun
  digits := by simp [farBelow]
  behindDigits := by
    rintro c ⟨⟩
    rfl

theorem leadingInteger_saturates_farBelow :
    leadingInteger "\t-92233720368547758080k" = -9223372036854775807 ∧
      (∃ w, (encode "922337203685477580".toList).foldlM takeDigit? 0 = some w ∧
        w.toInt = 922337203685477580) ∧
      ∃ w, leadingWord? "\t-92233720368547758080k" = some w ∧ w.toInt = -9223372036854775807 := by
  obtain ⟨-, hparts, hword⟩ := leadingInteger_saturates "\t-92233720368547758080k"
  obtain ⟨hvalue, hfronts⟩ := hparts farBelow makeUp_farBelow
  have hinteger : leadingInteger "\t-92233720368547758080k" = -9223372036854775807 :=
    hvalue.trans (by decide)
  obtain ⟨w, hw, hfront⟩ := hfronts "922337203685477580".toList ⟨['8', '0'], rfl⟩
  exact ⟨hinteger, ⟨w, hw, hfront.trans (by decide)⟩, hinteger ▸ hword⟩

end Invocation

end ScriptShell
