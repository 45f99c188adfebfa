import Mathlib
import ScriptShell.Proofs.Heap.Comparison
import ScriptShell.Proofs.Heap.Properties

namespace ScriptShell.Number

open Float.Model Float.Model.UnpackedFloat

def signOf (negative : Bool) : Sign :=
  if negative then .negative else .positive

def exponentField (bits : Nat) : Nat :=
  bits / leadingBit % 2048

section Bits

variable (bits : UInt64) (x : Float)

theorem toNat_unpackMantissa :
    (@unpackMantissa .binary64 bits.toBitVec).toNat = bits.toNat % leadingBit := by
  rw [unpackMantissa_def, BitVec.extractLsb'_toNat, Nat.shiftRight_zero]
  rfl

theorem toNat_unpackExponent :
    (@unpackExponent .binary64 bits.toBitVec).toNat = exponentField bits.toNat := by
  rw [unpackExponent_def, BitVec.extractLsb'_toNat, Nat.shiftRight_eq_div_pow]
  rfl

theorem ofFloat_negative :
    (Binary.ofFloat x).negative = decide (x.toBits.toNat / 0x8000000000000000 = 1) := by
  unfold Binary.ofFloat
  dsimp only
  split <;> rfl

theorem ofBitVec_unpackSign :
    Sign.ofBitVec (@unpackSign .binary64 x.toBits.toBitVec) =
      signOf (Binary.ofFloat x).negative := by
  have hlt : x.toBits.toNat < 2 ^ 64 := x.toBits.toNat_lt
  have hbit : (@unpackSign .binary64 x.toBits.toBitVec).toNat =
      x.toBits.toNat / 0x8000000000000000 := by
    rw [unpackSign_def, BitVec.extractLsb'_toNat, Nat.shiftRight_eq_div_pow]
    exact Nat.mod_eq_of_lt (by change x.toBits.toNat / 0x8000000000000000 < 2; omega)
  rw [ofFloat_negative, ← hbit, Sign.ofBitVec, signOf]
  obtain h | h := BitVec.eq_zero_or_eq_one (@unpackSign .binary64 x.toBits.toBitVec)
  all_goals rw [h]; rfl

theorem toBits_ofBits {bits : UInt64}
    (h : exponentField bits.toNat ≠ 2047 ∨ bits.toNat % leadingBit = 0) :
    (Float.ofBits bits).toBits = bits := by
  have hnan : @isNaNBits .binary64 bits.toBitVec = false := by
    rw [isNaNBits, decide_eq_false_iff_not]
    rintro ⟨hlast, hfraction⟩
    obtain h | h := h
    · exact h (toNat_unpackExponent bits ▸ congrArg BitVec.toNat hlast)
    · exact hfraction (BitVec.eq_of_toNat_eq ((toNat_unpackMantissa bits).trans h))
  have hpack := @UnpackedFloat.pack_unpack .binary64 bits.toBitVec (by decide)
  rw [hnan] at hpack
  exact UInt64.toBitVec_inj.mp hpack

end Bits

variable {x y : Float}

theorem unpack_of_last (h : exponentField x.toBits.toNat = 2047) :
    x.toModel.unpack = .infinity (signOf (Binary.ofFloat x).negative) ∨
      x.toModel.unpack = .notANumber := by
  have hlast : @unpackExponent .binary64 x.toBits.toBitVec = -1#11 :=
    BitVec.eq_of_toNat_eq ((toNat_unpackExponent x.toBits).trans h)
  rw [← ofBitVec_unpackSign]
  change UnpackedFloat.unpack Format.binary64 x.toBits.toBitVec = _ ∨
    UnpackedFloat.unpack Format.binary64 x.toBits.toBitVec = _
  unfold UnpackedFloat.unpack
  dsimp only
  rw [if_pos hlast]
  split
  · exact .inl rfl
  · exact .inr rfl

theorem ofFloat_of_field_zero (h : exponentField x.toBits.toNat = 0) :
    (Binary.ofFloat x).mantissa = x.toBits.toNat % leadingBit ∧
      (Binary.ofFloat x).exponent = -1074 := by
  have hb : Binary.ofFloat x = ⟨_, x.toBits.toNat % leadingBit, -1074⟩ := if_pos h
  rw [hb]
  exact ⟨rfl, rfl⟩

theorem ofFloat_of_field_ne_zero (h : exponentField x.toBits.toNat ≠ 0) :
    (Binary.ofFloat x).mantissa = leadingBit + x.toBits.toNat % leadingBit ∧
      (Binary.ofFloat x).exponent = (exponentField x.toBits.toNat : Int) - 1075 := by
  have hb : Binary.ofFloat x = ⟨_, leadingBit + x.toBits.toNat % leadingBit,
      (exponentField x.toBits.toNat : Int) - 1075⟩ := if_neg h
  rw [hb]
  exact ⟨rfl, rfl⟩

theorem unpack_of_ne_last (h : exponentField x.toBits.toNat ≠ 2047) :
    x.toModel.unpack =
      if hm : 0 < (Binary.ofFloat x).mantissa then
        .finite (signOf (Binary.ofFloat x).negative) (Binary.ofFloat x).mantissa
          (Binary.ofFloat x).exponent hm
      else .zero (signOf (Binary.ofFloat x).negative) := by
  have hfraction := toNat_unpackMantissa x.toBits
  have hfield := toNat_unpackExponent x.toBits
  have hlast : @unpackExponent .binary64 x.toBits.toBitVec ≠ -1#11 := fun hlast =>
    h (hfield ▸ congrArg BitVec.toNat hlast)
  rw [← ofBitVec_unpackSign]
  change UnpackedFloat.unpack Format.binary64 x.toBits.toBitVec = _
  unfold UnpackedFloat.unpack
  dsimp only
  rw [if_neg hlast]
  by_cases hzero : exponentField x.toBits.toNat = 0
  · obtain ⟨hmantissa, hexponent⟩ := ofFloat_of_field_zero hzero
    have hvec : @unpackExponent .binary64 x.toBits.toBitVec = 0#11 :=
      BitVec.eq_of_toNat_eq (hfield.trans hzero)
    rw [if_pos hvec]
    by_cases hempty : x.toBits.toNat % leadingBit = 0
    · have hvec : @unpackMantissa .binary64 x.toBits.toBitVec = 0#52 :=
        BitVec.eq_of_toNat_eq (hfraction.trans hempty)
      rw [dif_pos hvec, dif_neg (by omega)]
    · rw [dif_neg fun hvec => hempty (hfraction ▸ congrArg BitVec.toNat hvec), dif_pos (by omega),
        UnpackedFloat.finite.injEq, hmantissa, hexponent, hfraction, hfield, hzero]
      exact ⟨rfl, rfl, rfl⟩
  · obtain ⟨hmantissa, hexponent⟩ := ofFloat_of_field_ne_zero hzero
    rw [if_neg fun hvec => hzero (hfield ▸ congrArg BitVec.toNat hvec),
      dif_pos (by rw [hmantissa]; exact Nat.add_pos_left (by decide) _), UnpackedFloat.finite.injEq,
      hmantissa, hexponent, hfield, ← hfraction, BitVec.toNat_append,
      ← Nat.shiftLeft_add_eq_or_of_lt (BitVec.isLt _)]
    exact ⟨rfl, rfl, rfl⟩

theorem isFinite_iff : x.isFinite = true ↔ exponentField x.toBits.toNat ≠ 2047 := by
  unfold Float.isFinite Float.Model.isFinite
  constructor
  · intro h hlast
    obtain hx | hx := unpack_of_last hlast <;> rw [hx] at h <;> cases h
  · intro h
    rw [unpack_of_ne_last h]
    split <;> rfl

/-- The mantissa has its full length unless the exponent is the least one. -/
structure Binary.IsCanonical (b : Binary) : Prop where
  exponent_ge : -1074 ≤ b.exponent
  mantissa_lt : b.mantissa < 2 * leadingBit
  leadingBit_le : -1074 < b.exponent → leadingBit ≤ b.mantissa

theorem isCanonical_ofFloat (x : Float) : (Binary.ofFloat x).IsCanonical := by
  have hlt : x.toBits.toNat % leadingBit < leadingBit := Nat.mod_lt _ (by decide)
  by_cases hzero : exponentField x.toBits.toNat = 0
  · obtain ⟨hmantissa, hexponent⟩ := ofFloat_of_field_zero hzero
    exact ⟨by omega, by omega, by omega⟩
  · obtain ⟨hmantissa, hexponent⟩ := ofFloat_of_field_ne_zero hzero
    exact ⟨by omega, by omega, by omega⟩

def stepsOfOne : Nat :=
  2 ^ 1074

theorem stepsOfOne_pos : 0 < stepsOfOne := by
  decide +kernel

def Binary.steps (b : Binary) : Nat :=
  b.mantissa * 2 ^ (b.exponent + 1074).toNat

namespace Binary.IsCanonical

variable {a b : Binary}

theorem steps_lt (ha : a.IsCanonical) (hb : b.IsCanonical) (h : a.exponent < b.exponent) :
    a.steps < b.steps := by
  have hge := ha.exponent_ge
  have hle := hb.leadingBit_le (by omega)
  obtain ⟨k, hk⟩ : ∃ k, (b.exponent + 1074).toNat = (a.exponent + 1074).toNat + 1 + k :=
    ⟨(b.exponent - a.exponent - 1).toNat, by omega⟩
  calc a.mantissa * 2 ^ (a.exponent + 1074).toNat
      < 2 * leadingBit * 2 ^ (a.exponent + 1074).toNat :=
        Nat.mul_lt_mul_of_pos_right ha.mantissa_lt (Nat.two_pow_pos _)
    _ = leadingBit * 2 ^ ((a.exponent + 1074).toNat + 1) := by ring
    _ ≤ leadingBit * 2 ^ (b.exponent + 1074).toNat :=
        Nat.mul_le_mul_left _ (Nat.pow_le_pow_right (by decide) (by omega))
    _ ≤ b.mantissa * 2 ^ (b.exponent + 1074).toNat := Nat.mul_le_mul_right _ hle

theorem compare_steps (ha : a.IsCanonical) (hb : b.IsCanonical) :
    (compare a.exponent b.exponent).then (compare a.mantissa b.mantissa) =
      compare a.steps b.steps := by
  obtain h | h | h := lt_trichotomy a.exponent b.exponent
  · rw [compare_lt_iff_lt.mpr h, compare_lt_iff_lt.mpr (ha.steps_lt hb h)]
    rfl
  · have hpos : 0 < 2 ^ (b.exponent + 1074).toNat := Nat.two_pow_pos _
    rw [h, compare_eq_iff_eq.mpr rfl, Ordering.eq_then, steps, steps, h]
    obtain hm | hm | hm := lt_trichotomy a.mantissa b.mantissa
    · rw [compare_lt_iff_lt.mpr hm, compare_lt_iff_lt.mpr (Nat.mul_lt_mul_of_pos_right hm hpos)]
    · rw [hm, compare_eq_iff_eq.mpr rfl, compare_eq_iff_eq.mpr rfl]
    · rw [compare_gt_iff_gt.mpr hm, compare_gt_iff_gt.mpr (Nat.mul_lt_mul_of_pos_right hm hpos)]
  · rw [compare_gt_iff_gt.mpr h, compare_gt_iff_gt.mpr (hb.steps_lt ha h)]
    rfl

end Binary.IsCanonical

def steps (x : Float) : Int :=
  if (Binary.ofFloat x).negative then -(Binary.ofFloat x).steps else (Binary.ofFloat x).steps

theorem compare_natCast (m n : Nat) : compare (m : Int) n = compare m n := by
  obtain h | h | h := lt_trichotomy m n
  · rw [compare_lt_iff_lt.mpr h, compare_lt_iff_lt.mpr (Int.ofNat_lt.mpr h)]
  · rw [h, compare_eq_iff_eq.mpr rfl, compare_eq_iff_eq.mpr rfl]
  · rw [compare_gt_iff_gt.mpr h, compare_gt_iff_gt.mpr (Int.ofNat_lt.mpr h)]

theorem compare_neg_natCast (m n : Nat) : compare (-m : Int) (-n) = (compare m n).swap := by
  obtain h | h | h := lt_trichotomy m n
  · rw [compare_lt_iff_lt.mpr h, compare_gt_iff_gt.mpr (by omega)]
    rfl
  · rw [h, compare_eq_iff_eq.mpr rfl, compare_eq_iff_eq.mpr rfl]
    rfl
  · rw [compare_gt_iff_gt.mpr h, compare_lt_iff_lt.mpr (by omega)]
    rfl

/-- Finite numbers are ordered by their exact values. -/
theorem compare_unpack (hx : x.isFinite = true) (hy : y.isFinite = true) :
    x.toModel.unpack.compare y.toModel.unpack = some (compare (steps x) (steps y)) := by
  have hsteps := (isCanonical_ofFloat x).compare_steps (isCanonical_ofFloat y)
  rw [unpack_of_ne_last (isFinite_iff.mp hx), unpack_of_ne_last (isFinite_iff.mp hy), steps, steps]
  have hpos {b : Binary} (h : 0 < b.mantissa) : 0 < b.steps :=
    Nat.mul_pos h (Nat.two_pow_pos _)
  have hempty {b : Binary} (h : ¬ 0 < b.mantissa) : b.steps = 0 := by
    rw [Binary.steps, Nat.eq_zero_of_not_pos h, Nat.zero_mul]
  -- Zeros have no sign of their own in the order: they are told apart from the other numbers first.
  split
  · next h =>
    split
    · next h' =>
      have := hpos h
      have := hpos h'
      cases (Binary.ofFloat x).negative <;> cases (Binary.ofFloat y).negative
      · exact congrArg some (hsteps.trans (compare_natCast _ _).symm)
      · exact congrArg some (compare_gt_iff_gt.mpr (by simp; omega)).symm
      · exact congrArg some (compare_lt_iff_lt.mpr (by simp; omega)).symm
      · exact congrArg some ((congrArg Ordering.swap hsteps).trans (compare_neg_natCast _ _).symm)
    · next h' =>
      have := hpos h
      rw [hempty h', Nat.cast_zero, Int.neg_zero, ite_self]
      cases (Binary.ofFloat x).negative
      · exact congrArg some (compare_gt_iff_gt.mpr (by simpa)).symm
      · exact congrArg some (compare_lt_iff_lt.mpr (by simpa)).symm
  · next h =>
    rw [hempty h, Nat.cast_zero, Int.neg_zero, ite_self]
    split
    · next h' =>
      have := hpos h'
      cases (Binary.ofFloat y).negative
      · exact congrArg some (compare_lt_iff_lt.mpr (by simpa)).symm
      · exact congrArg some (compare_gt_iff_gt.mpr (by simpa)).symm
    · next h' =>
      rw [hempty h', Nat.cast_zero, Int.neg_zero, ite_self]
      rfl

theorem le_iff_compare :
    x ≤ y ↔ (x.toModel.unpack.compare y.toModel.unpack).any (·.isLE) = true :=
  decide_eq_true_iff

theorem lt_iff_compare : x < y ↔ x.toModel.unpack.compare y.toModel.unpack = some .lt :=
  decide_eq_true_iff.trans beq_iff_eq

theorem le_iff (hx : x.isFinite = true) (hy : y.isFinite = true) : x ≤ y ↔ steps x ≤ steps y := by
  rw [le_iff_compare, compare_unpack hx hy, Option.any_some, Std.isLE_compare]

theorem lt_iff (hx : x.isFinite = true) (hy : y.isFinite = true) : x < y ↔ steps x < steps y := by
  rw [lt_iff_compare, compare_unpack hx hy, Option.some_inj, compare_lt_iff_lt]

theorem two_pow_eq_mul {e : Int} {k : Nat} (h : -k ≤ e) (he : ¬ 0 ≤ e) :
    2 ^ k = 2 ^ (-e).toNat * 2 ^ (e + k).toNat := by
  have hsum : k = (-e).toNat + (e + k).toNat := by omega
  rw [← Nat.pow_add, ← hsum]

theorem wholePart_eq (m : Nat) {e : Int} {k : Nat} (h : -k ≤ e) :
    wholePart m e = m * 2 ^ (e + k).toNat / 2 ^ k := by
  rw [wholePart]
  split
  · have hshift : (e + k).toNat = e.toNat + k := by omega
    rw [hshift, Nat.pow_add, ← Nat.mul_assoc, Nat.mul_div_cancel _ (Nat.two_pow_pos _)]
    rfl
  · next he =>
    rw [two_pow_eq_mul h he, Nat.mul_div_mul_right _ _ (Nat.two_pow_pos _)]
    rfl

theorem wholePart_ofFloat (x : Float) :
    wholePart (Binary.ofFloat x).mantissa (Binary.ofFloat x).exponent =
      (Binary.ofFloat x).steps / stepsOfOne :=
  wholePart_eq (k := 1074) _ (isCanonical_ofFloat x).exponent_ge

theorem integerPart_eq (x : Float) : integerPart x = (steps x).tdiv stepsOfOne := by
  rw [integerPart, steps, wholePart_ofFloat]
  split
  · rw [Int.neg_tdiv]
    norm_cast
  · norm_cast

theorem integerPart_le (hx : x.isFinite = true) (hy : y.isFinite = true) (h : x ≤ y) :
    integerPart x ≤ integerPart y := by
  rw [integerPart_eq, integerPart_eq]
  exact Int.tdiv_le_tdiv (Int.natCast_pos.mpr stepsOfOne_pos) ((le_iff hx hy).mp h)

theorem nearestBits_le (num den : Nat) : nearestBits num den ≤ 2047 * leadingBit := by
  rw [nearestBits]
  split
  · exact Nat.zero_le _
  · exact Nat.min_le_right ..

/-- Numbers nearest to ratios of natural ones are not negative. -/
theorem zero_le_ofRatio (num den : Nat) : 0 ≤ ofRatio num den := by
  have hle : nearestBits num den ≤ 2047 * leadingBit := nearestBits_le num den
  have hbits : (nearestBits num den).toUInt64.toNat = nearestBits num den :=
    Nat.mod_eq_of_lt (Nat.lt_of_le_of_lt hle (by decide))
  have hofRatio : ofRatio num den = Float.ofBits (nearestBits num den).toUInt64 := rfl
  by_cases hmax : nearestBits num den = 2047 * leadingBit
  · rw [hofRatio, hmax]
    decide +kernel
  · have hfield : exponentField (nearestBits num den) ≠ 2047 := by
      have hdiv : nearestBits num den / leadingBit < 2047 :=
        Nat.div_lt_of_lt_mul (by rw [Nat.mul_comm]; omega)
      rw [exponentField, Nat.mod_eq_of_lt (by omega)]
      omega
    have htoBits : (ofRatio num den).toBits.toNat = nearestBits num den := by
      rw [hofRatio, toBits_ofBits (.inl (hbits.symm ▸ hfield)), hbits]
    have hfinite : (ofRatio num den).isFinite = true := isFinite_iff.mpr (htoBits.symm ▸ hfield)
    have hsign : (Binary.ofFloat (ofRatio num den)).negative = false := by
      have hlt : nearestBits num den < 0x8000000000000000 := Nat.lt_of_le_of_lt hle (by decide)
      rw [ofFloat_negative, htoBits, Nat.div_eq_of_lt hlt]
      rfl
    have hzero : steps 0 = 0 := by decide +kernel
    rw [le_iff (by decide +kernel) hfinite, hzero, steps, hsign]
    exact Int.natCast_nonneg _

theorem zero_le_ofNat (n : Nat) : 0 ≤ ofNat n :=
  zero_le_ofRatio n 1

section Truncate

theorem cleared_div_mod (bits : Nat) {k : Nat} (hk : k ≤ 52) :
    (bits - bits % 2 ^ k) / leadingBit = bits / leadingBit ∧
      (bits - bits % 2 ^ k) % leadingBit = bits % leadingBit - bits % 2 ^ k := by
  have hdvd : 2 ^ k ∣ leadingBit := Nat.pow_dvd_pow 2 hk
  have hlt : bits % leadingBit < leadingBit := Nat.mod_lt _ (by decide)
  have hle : bits % 2 ^ k ≤ bits % leadingBit :=
    Nat.mod_mod_of_dvd bits hdvd ▸ Nat.mod_le _ _
  have hsplit : bits - bits % 2 ^ k =
      leadingBit * (bits / leadingBit) + (bits % leadingBit - bits % 2 ^ k) := by
    have := Nat.div_add_mod bits leadingBit
    omega
  have hrest : bits % leadingBit - bits % 2 ^ k < leadingBit := by omega
  constructor
  · rw [hsplit, Nat.mul_add_div (by decide), Nat.div_eq_of_lt hrest, Nat.add_zero]
  · rw [hsplit, Nat.mul_add_mod, Nat.mod_eq_of_lt hrest]

theorem fractionBits_of_lt {bits : Nat} (h : exponentField bits < 1023) : fractionBits bits = 63 :=
  if_pos h

theorem fractionBits_of_le {bits : Nat} (h : 1023 ≤ exponentField bits) :
    fractionBits bits = 1075 - exponentField bits :=
  if_neg (Nat.not_lt.mpr h)

theorem cleared_of_lt {bits : Nat} (h : exponentField bits < 1023) :
    bits - bits % 2 ^ fractionBits bits = leadingBit * (2048 * (bits / 0x8000000000000000)) := by
  rw [fractionBits_of_lt h]
  have := Nat.div_add_mod bits 0x8000000000000000
  change bits - bits % 0x8000000000000000 = 0x10000000000000 * (2048 * (bits / 0x8000000000000000))
  omega

theorem exponentField_cleared (bits : Nat) :
    exponentField (bits - bits % 2 ^ fractionBits bits) =
      if exponentField bits < 1023 then 0 else exponentField bits := by
  split
  · next h =>
    rw [cleared_of_lt h, exponentField, Nat.mul_div_cancel_left _ (by decide), Nat.mul_mod_right]
  · next h =>
    rw [exponentField, fractionBits_of_le (by omega), (cleared_div_mod bits (by omega)).1]
    rfl

theorem toNat_toBits_truncate (hx : x.isFinite = true) :
    (truncate x).toBits.toNat =
      x.toBits.toNat - x.toBits.toNat % 2 ^ fractionBits x.toBits.toNat := by
  have hlt : x.toBits.toNat < 2 ^ 64 := x.toBits.toNat_lt
  have hbits : (x.toBits.toNat - x.toBits.toNat % 2 ^ fractionBits x.toBits.toNat).toUInt64.toNat =
      x.toBits.toNat - x.toBits.toNat % 2 ^ fractionBits x.toBits.toNat :=
    Nat.mod_eq_of_lt (Nat.lt_of_le_of_lt (Nat.sub_le _ _) hlt)
  have hfield := isFinite_iff.mp hx
  refine (congrArg UInt64.toNat (toBits_ofBits (.inl ?_))).trans hbits
  change exponentField (x.toBits.toNat - x.toBits.toNat % 2 ^ _).toUInt64.toNat ≠ 2047
  rw [hbits, exponentField_cleared]
  split
  · decide
  · exact hfield

theorem truncate_of_not_isFinite (hx : x.isFinite = false) : truncate x = x := by
  have hfield : exponentField x.toBits.toNat = 2047 := by
    by_contra h
    rw [isFinite_iff.mpr h] at hx
    cases hx
  have hnone : fractionBits x.toBits.toNat = 0 := by
    rw [fractionBits_of_le (by omega), hfield]
  have hall : truncate x = Float.ofBits (x.toBits.toNat -
    x.toBits.toNat % 2 ^ fractionBits x.toBits.toNat).toUInt64 := rfl
  rw [hall, hnone, Nat.pow_zero, Nat.mod_one, Nat.sub_zero]
  have hback : x.toBits.toNat.toUInt64 = x.toBits := UInt64.ofNat_toNat
  rw [hback, Float.ofBits_toBits]

theorem isFinite_truncate (hx : x.isFinite = true) : (truncate x).isFinite = true := by
  rw [isFinite_iff, toNat_toBits_truncate hx, exponentField_cleared]
  split
  · decide
  · exact isFinite_iff.mp hx

theorem wholePart_mul (m : Nat) {e : Int} {k : Nat} (h : -k ≤ e) :
    wholePart m e * 2 ^ k = (m - m % 2 ^ (-e).toNat) * 2 ^ (e + k).toNat := by
  have hcut : m - m % 2 ^ (-e).toNat = m / 2 ^ (-e).toNat * 2 ^ (-e).toNat := by
    have := Nat.div_add_mod' m (2 ^ (-e).toNat)
    omega
  rw [hcut, wholePart]
  split
  · have hnone : (-e).toNat = 0 := by omega
    have hshift : (e + k).toNat = e.toNat + k := by omega
    rw [hnone, hshift, Nat.pow_zero, Nat.div_one, Nat.mul_one, Nat.pow_add, ← Nat.mul_assoc]
    rfl
  · next he =>
    rw [two_pow_eq_mul h he, ← Nat.mul_assoc]
    rfl

theorem negative_truncate (hx : x.isFinite = true) :
    (Binary.ofFloat (truncate x)).negative = (Binary.ofFloat x).negative := by
  rw [ofFloat_negative, ofFloat_negative, toNat_toBits_truncate hx]
  have htop (n : Nat) : n / 0x8000000000000000 = n / leadingBit / 2048 :=
    (Nat.div_div_eq_div_mul n leadingBit 2048).symm
  by_cases hsmall : exponentField x.toBits.toNat < 1023
  · rw [cleared_of_lt hsmall, htop, Nat.mul_div_cancel_left _ (by decide),
      Nat.mul_div_cancel_left _ (by decide)]
  · rw [htop, fractionBits_of_le (by omega), (cleared_div_mod _ (by omega)).1, ← htop]

theorem wholePart_of_lt (h : exponentField x.toBits.toNat < 1023) :
    wholePart (Binary.ofFloat x).mantissa (Binary.ofFloat x).exponent = 0 := by
  have hexponent : (Binary.ofFloat x).exponent ≤ -53 := by
    by_cases hzero : exponentField x.toBits.toNat = 0
    · rw [(ofFloat_of_field_zero hzero).2]
      decide
    · rw [(ofFloat_of_field_ne_zero hzero).2]
      omega
  rw [wholePart, if_neg (by omega)]
  refine Nat.div_eq_of_lt (Nat.lt_of_lt_of_le (isCanonical_ofFloat x).mantissa_lt ?_)
  have hpow : 2 ^ 53 ≤ 2 ^ (-(Binary.ofFloat x).exponent).toNat :=
    Nat.pow_le_pow_right (by decide) (by omega)
  exact hpow

/-- Cutting a magnitude leaves its whole part. -/
theorem binarySteps_truncate (hx : x.isFinite = true) :
    (Binary.ofFloat (truncate x)).steps =
      wholePart (Binary.ofFloat x).mantissa (Binary.ofFloat x).exponent * stepsOfOne := by
  have hbits := toNat_toBits_truncate hx
  have hfield := exponentField_cleared x.toBits.toNat
  rw [← hbits] at hfield
  by_cases hsmall : exponentField x.toBits.toNat < 1023
  · rw [if_pos hsmall] at hfield
    rw [wholePart_of_lt hsmall, Binary.steps, (ofFloat_of_field_zero hfield).1, hbits,
      cleared_of_lt hsmall, Nat.mul_mod_right, Nat.zero_mul, Nat.zero_mul]
  · rw [if_neg hsmall] at hfield
    rw [fractionBits_of_le (by omega)] at hbits
    obtain ⟨hmantissa, hexponent⟩ := ofFloat_of_field_ne_zero (x := x) (by omega)
    obtain ⟨hmantissa', hexponent'⟩ := ofFloat_of_field_ne_zero (x := truncate x) (by omega)
    have hplaces : (-(Binary.ofFloat x).exponent).toNat = 1075 - exponentField x.toBits.toNat := by
      omega
    have hdvd : 2 ^ (1075 - exponentField x.toBits.toNat) ∣ leadingBit :=
      Nat.pow_dvd_pow 2 (n := 52) (by omega)
    have hmod : (Binary.ofFloat x).mantissa % 2 ^ (1075 - exponentField x.toBits.toNat) =
        x.toBits.toNat % 2 ^ (1075 - exponentField x.toBits.toNat) := by
      obtain ⟨d, hd⟩ := id hdvd
      rw [hmantissa, ← Nat.mod_mod_of_dvd x.toBits.toNat hdvd]
      conv_lhs => rw [hd, Nat.mul_add_mod, ← hd]
    rw [stepsOfOne, wholePart_mul (k := 1074) _ (isCanonical_ofFloat x).exponent_ge, Binary.steps,
      hplaces, hmod, hmantissa, hmantissa', hbits, (cleared_div_mod _ (by omega)).2, hexponent,
      hexponent', hfield]
    have hle : x.toBits.toNat % 2 ^ (1075 - exponentField x.toBits.toNat) ≤
        x.toBits.toNat % leadingBit :=
      Nat.mod_mod_of_dvd x.toBits.toNat hdvd ▸ Nat.mod_le _ _
    rw [Nat.add_sub_assoc hle]
    rfl

theorem steps_truncate (hx : x.isFinite = true) :
    steps (truncate x) = integerPart x * stepsOfOne := by
  rw [steps, integerPart, negative_truncate hx, binarySteps_truncate hx]
  split
  all_goals
    push_cast
    ring

theorem integerPart_truncate (hx : x.isFinite = true) :
    integerPart (truncate x) = integerPart x := by
  rw [integerPart_eq, steps_truncate hx]
  exact Int.mul_tdiv_cancel _ (Int.natCast_pos.mpr stepsOfOne_pos).ne'

end Truncate

section Bounded

theorem not_lt_of_le (h : x ≤ y) : ¬ y < x := by
  intro hlt
  rw [le_iff_compare, ← compare_swap, lt_iff_compare.mp hlt] at h
  cases h

theorem isNaN_of_le (h : x ≤ y) : y.isNaN = false := by
  rw [le_iff_compare] at h
  change y.toModel.unpack.isNaN = false
  cases hy : y.toModel.unpack with
  | notANumber =>
    rw [hy] at h
    cases hx : x.toModel.unpack <;> rw [hx] at h <;> cases h
  | _ => rfl

theorem isNaN_unpack {bits : BitVec Format.binary64.numBits} (h : unpackExponent bits ≠ -1#11) :
    (UnpackedFloat.unpack .binary64 bits).isNaN = false := by
  unfold UnpackedFloat.unpack
  dsimp only
  rw [if_neg h]
  split
  · split <;> rfl
  · rfl

/-- A finite number that is packed may become infinite, but it stays a number. -/
theorem isNaN_pack_finite (s : Sign) (m : Nat) (e : Int) (hm : 0 < m) :
    (UnpackedFloat.unpack .binary64
      (UnpackedFloat.pack .binary64 (.finite s m e hm))).isNaN = false := by
  unfold UnpackedFloat.pack
  dsimp only
  split
  · cases s <;> decide +kernel
  next hsmall =>
  split
  · apply isNaN_unpack
    rw [unpackExponent_packComponents]
    intro hlast
    have hfield := congrArg BitVec.toNat hlast
    rw [BitVec.toNat_ofNat] at hfield
    change _ % 2048 = 2047 at hfield
    change ¬ 2048 ≤ _ at hsmall
    omega
  · apply isNaN_unpack
    rw [unpackExponent_packComponents]
    decide

theorem isNaN_neg (h : x.isNaN = false) : (-x).isNaN = false := by
  change x.toModel.unpack.isNaN = false at h
  change (Float.Model.pack x.toModel.unpack.neg).unpack.isNaN = false
  cases hx : x.toModel.unpack with
  | notANumber =>
    rw [hx] at h
    cases h
  | infinity s => cases s <;> decide +kernel
  | zero s => cases s <;> decide +kernel
  | finite s m e hm => exact isNaN_pack_finite (-s) m e hm

theorem eq_of_le_of_not_lt (hx : x.isFinite = false) (hle : x ≤ y) (hlt : ¬ x < y) : x = y := by
  have hbeq : (x == y) = true := by
    change (x.toModel.unpack.compare y.toModel.unpack == some .eq) = true
    rw [le_iff_compare] at hle
    rw [lt_iff_compare] at hlt
    cases hxy : x.toModel.unpack.compare y.toModel.unpack with
    | none => rw [hxy] at hle; cases hle
    | some o => rw [hxy] at hle hlt; cases o <;> trivial
  obtain ⟨-, -, rfl | ⟨rfl, -⟩ | ⟨rfl, -⟩⟩ := Float.beq_iff_ne_nan_and_eq.mp hbeq
  · rfl
  · exact absurd hx (by decide +kernel)
  · exact absurd hx (by decide +kernel)

/-- A number above a finite one that has no finite one below it is finite. -/
theorem isFinite_of_le {n : Float} (hx : x.isFinite = true) (hle : x ≤ y)
    (hn : n.isFinite = true) (hlt : ¬ n < y) : y.isFinite = true := by
  have hnan := isNaN_of_le hle
  rw [le_iff_compare] at hle
  rw [lt_iff_compare] at hlt
  change x.toModel.unpack.isFinite = true at hx
  change n.toModel.unpack.isFinite = true at hn
  change y.toModel.unpack.isNaN = false at hnan
  change y.toModel.unpack.isFinite = true
  cases hy : y.toModel.unpack with
  | zero | finite => rfl
  | notANumber =>
    rw [hy] at hnan
    cases hnan
  | infinity s =>
    rw [hy] at hle hlt
    cases s with
    | positive => cases hvalue : n.toModel.unpack <;> rw [hvalue] at hn hlt <;> trivial
    | negative => cases hvalue : x.toModel.unpack <;> rw [hvalue] at hx hle <;> trivial

/-- Cutting toward zero a number that is no larger than a bound does not change the size. -/
theorem toSize_truncate (hle : x ≤ y) :
    toSize (if truncate x < y then truncate x else y) = toSize x := by
  cases hx : x.isFinite with
  | false =>
    -- An infinite number is its own integer part, and not below the bound only if it is the bound.
    rw [truncate_of_not_isFinite hx]
    split
    · rfl
    · next hlt => rw [eq_of_le_of_not_lt hx hle hlt]
  | true =>
    have hn := isFinite_truncate hx
    split
    · rw [toSize_of_isFinite hn, toSize_of_isFinite hx, integerPart_truncate hx]
    · next hlt =>
      -- No fraction is cut off beyond the bound: both have the same integer part.
      have hy := isFinite_of_le hx hle hn hlt
      have hback : y ≤ truncate x := (le_iff hy hn).mpr (Int.not_lt.mp (mt (lt_iff hn hy).mpr hlt))
      have hwhole : integerPart y = integerPart x :=
        Int.le_antisymm (integerPart_truncate hx ▸ integerPart_le hy hn hback)
          (integerPart_le hx hy hle)
      rw [toSize_of_isFinite hy, toSize_of_isFinite hx, hwhole]

theorem not_truncate_lt_zero (h : 0 ≤ x) : ¬ truncate x < 0 := by
  cases hx : x.isFinite with
  | false =>
    rw [truncate_of_not_isFinite hx]
    exact not_lt_of_le h
  | true =>
    have hzero : (0 : Float).isFinite = true := by decide +kernel
    have hnone : integerPart 0 = 0 := by decide +kernel
    have hsteps : steps 0 = 0 := by decide +kernel
    have hwhole : 0 ≤ integerPart x := hnone ▸ integerPart_le hzero hx h
    rw [lt_iff (isFinite_truncate hx) hzero, steps_truncate hx, hsteps]
    exact Int.not_lt.mpr (Int.mul_nonneg hwhole (Int.natCast_nonneg _))

end Bounded

section Large

theorem dvd_wholePart {m : Nat} {e : Int} (hm : m < 2 * leadingBit) (h : 2 ^ 63 ≤ wholePart m e) :
    2 ^ 11 ∣ wholePart m e := by
  rw [wholePart] at h ⊢
  change m < 2 ^ 53 at hm
  split
  · next he =>
    rw [if_pos he] at h
    have hlarge : 11 ≤ e.toNat := by
      by_contra hsmall
      have hpow : 2 ^ e.toNat ≤ 2 ^ 10 := Nat.pow_le_pow_right (by decide) (by omega)
      have hlt : m * 2 ^ e.toNat < 2 ^ 63 :=
        calc m * 2 ^ e.toNat ≤ m * 2 ^ 10 := Nat.mul_le_mul_left m hpow
          _ < 2 ^ 53 * 2 ^ 10 := Nat.mul_lt_mul_of_pos_right hm (by decide)
      exact absurd h (Nat.not_le.mpr hlt)
    exact Dvd.dvd.mul_left (Nat.pow_dvd_pow 2 hlarge) m
  · next he =>
    rw [if_neg he] at h
    have := Nat.div_le_self m (Nat.pow 2 (-e).toNat)
    omega

theorem dvd_integerPart (h : 2 ^ 63 ≤ (integerPart x).natAbs) : 2 ^ 11 ∣ integerPart x := by
  have habs : (integerPart x).natAbs =
      wholePart (Binary.ofFloat x).mantissa (Binary.ofFloat x).exponent := by
    rw [integerPart]
    split
    · exact (Int.natAbs_neg _).trans (Int.natAbs_natCast _)
    · exact Int.natAbs_natCast _
  rw [habs] at h
  have hdvd := dvd_wholePart (isCanonical_ofFloat x).mantissa_lt h
  exact Int.natCast_dvd.mpr (habs ▸ hdvd)

end Large

end ScriptShell.Number
