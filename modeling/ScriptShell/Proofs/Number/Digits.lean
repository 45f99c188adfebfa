import Mathlib.Algebra.Group.Nat.Defs
import Mathlib.Data.List.Induction
import ScriptShell.Number.Literal

namespace ScriptShell.Number

theorem ofDigitsFrom_eq_ofDigitChars (digits : List Char) :
    ofDigitsFrom 0 digits = Nat.ofDigitChars 10 digits 0 := by
  simp only [ofDigitsFrom, Nat.ofDigitChars_eq_foldl, Nat.mul_comm 10]

theorem ofDigitsFrom_toDigits (n : Nat) : ofDigitsFrom 0 (Nat.toDigits 10 n) = n := by
  rw [ofDigitsFrom_eq_ofDigitChars, Nat.ofDigitChars_ten_toDigits]

theorem toNat_of_isDigit {c : Char} (hc : c.isDigit) :
    '0'.toNat ≤ c.toNat ∧ c.toNat - '0'.toNat < 10 := by
  have hle : (48 : UInt32) ≤ c.val ∧ c.val ≤ 57 := by simpa [Char.isDigit] using hc
  have : (48 : Nat) ≤ c.toNat ∧ c.toNat ≤ 57 := hle
  have : '0'.toNat = 48 := rfl
  omega

theorem toNat_of_isHexDigit {c : Char} (h : Text.isHexDigit c) :
    (48 ≤ c.toNat ∧ c.toNat ≤ 57) ∨ (65 ≤ c.toNat ∧ c.toNat ≤ 90) ∨
      97 ≤ c.toNat ∧ c.toNat ≤ 122 := by
  by_cases hdigit : c.isDigit
  · obtain ⟨hle, hlt⟩ := toNat_of_isDigit hdigit
    have hzero : '0'.toNat = 48 := rfl
    exact .inl (by omega)
  by_cases hupper : c.isUpper
  · have hbounds : c.val ≥ 'A'.val ∧ c.val ≤ 'Z'.val := of_decide_eq_true hupper
    exact .inr (.inl hbounds)
  by_cases hlower : c.isLower
  · have hbounds : (c.val ≥ 'a'.val && c.val ≤ 'z'.val) = true := hlower
    rw [Bool.and_eq_true, decide_eq_true_eq, decide_eq_true_eq] at hbounds
    exact .inr (.inr hbounds)
  simp [Text.isHexDigit, Text.digit?, hdigit, hlower, hupper] at h

theorem digitChar_of_isDigit {c : Char} (hc : c.isDigit) :
    Nat.digitChar (c.toNat - '0'.toNat) = c := by
  obtain ⟨hle, hlt⟩ := toNat_of_isDigit hc
  have hzero : '0'.toNat = 48 := rfl
  apply Char.toNat_inj.mp
  rw [Nat.toNat_digitChar_of_lt_ten hlt]
  omega

theorem ofDigitsFrom_append (n : Nat) (front back : List Char) :
    ofDigitsFrom n (front ++ back) = ofDigitsFrom (ofDigitsFrom n front) back :=
  List.foldl_append

theorem ofDigitsFrom_lt {digits : List Char} (hdigits : ∀ c ∈ digits, c.isDigit) :
    ofDigitsFrom 0 digits < 10 ^ digits.length := by
  induction digits using List.reverseRecOn with
  | nil => exact Nat.one_pos
  | append_singleton front c ih =>
    have hfront := ih fun d hd => hdigits d (List.mem_append_left _ hd)
    have hc := (toNat_of_isDigit (hdigits c (by simp))).2
    rw [ofDigitsFrom_append, List.length_append, List.length_singleton, Nat.pow_succ]
    change ofDigitsFrom 0 front * 10 + (c.toNat - '0'.toNat) < _
    omega

/-- Digits without leading zeros are those of the number that they denote. -/
theorem toDigits_ofDigitsFrom {digits : List Char} (hne : digits ≠ [])
    (hdigits : ∀ c ∈ digits, c.isDigit) (hzero : 1 < digits.length → digits.head? ≠ some '0') :
    Nat.toDigits 10 (ofDigitsFrom 0 digits) = digits := by
  induction digits using List.reverseRecOn with
  | nil => exact absurd rfl hne
  | append_singleton front c ih =>
    have hc := hdigits c (by simp)
    have hlast : Nat.toDigits 10 (c.toNat - '0'.toNat) = [c] := by
      rw [Nat.toDigits_of_lt_base (toNat_of_isDigit hc).2, digitChar_of_isDigit hc]
    rw [ofDigitsFrom_append]
    change Nat.toDigits 10 (ofDigitsFrom 0 front * 10 + (c.toNat - '0'.toNat)) = _
    cases front with
    | nil => simpa [ofDigitsFrom] using hlast
    | cons d front =>
      have hd : d ≠ '0' := fun heq => hzero (by simp) (by simp [heq])
      have hfront : Nat.toDigits 10 (ofDigitsFrom 0 (d :: front)) = d :: front :=
        ih (List.cons_ne_nil d front) (fun e he => hdigits e (List.mem_append_left _ he))
          fun _ heq => hd (Option.some.inj heq)
      have hpos : 0 < ofDigitsFrom 0 (d :: front) := by
        refine Nat.pos_of_ne_zero fun hvalue => hd ?_
        rw [hvalue, Nat.toDigits_zero] at hfront
        exact (List.cons.inj hfront).1.symm
      rw [Nat.mul_comm, ← Nat.toDigits_append_toDigits (by decide) hpos (toNat_of_isDigit hc).2,
        hfront, hlast]

theorem head?_toDigits (i : Nat) (hlong : 1 < (Nat.toDigits 10 i).length) :
    (Nat.toDigits 10 i).head? ≠ some '0' := by
  intro hhead
  obtain ⟨rest, hrest⟩ := List.head?_eq_some_iff.mp hhead
  have hvalue := ofDigitsFrom_toDigits i
  have hdigits : ∀ c ∈ rest, c.isDigit := fun c hc =>
    Nat.isDigit_of_mem_toDigits (b := 10) (n := i) (by decide) (by decide) (by simp [hrest, hc])
  rw [hrest] at hvalue hlong
  have hlt : i < 10 ^ rest.length := hvalue ▸ ofDigitsFrom_lt hdigits
  have hshort := (Nat.length_toDigits_le_iff (by decide) (by simpa using hlong)).mpr hlt
  rw [hrest, List.length_cons] at hshort
  omega

end ScriptShell.Number
