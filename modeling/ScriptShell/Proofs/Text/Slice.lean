import ScriptShell.Proofs.Location
import ScriptShell.Proofs.Text.Utf8

namespace ScriptShell.Text

variable {c : Char} {x y : List Char} {p : Char → Bool}

def cutAt? (n : Nat) (text : List Char) : Option (List Char × List Char) :=
  if byteSize (splitAtByte n text).1 = n then some (splitAtByte n text) else none

theorem cutAt?_byteSize (x y : List Char) : cutAt? (byteSize x) (x ++ y) = some (x, y) := by
  rw [cutAt?, splitAtByte_byteSize, if_pos rfl]

theorem byteSize_lt_append : byteSize x < byteSize (x ++ y) ↔ y ≠ [] := by
  rw [byteSize_append, Nat.lt_add_right_iff_pos]
  cases y with
  | nil => simp
  | cons c y => simp [Nat.add_pos_left c.utf8Size_pos]

theorem length_encode (x : List Char) : (encode x).length = byteSize x := by
  induction x with
  | nil => rfl
  | cons c x ih =>
    rw [encode_cons, List.length_append, String.length_utf8EncodeChar, ih, byteSize_cons]

theorem encode_append (x y : List Char) : encode (x ++ y) = encode x ++ encode y :=
  List.flatMap_append

theorem drop_encode (x y : List Char) : (encode (x ++ y)).drop (byteSize x) = encode y := by
  rw [encode_append, ← length_encode, List.drop_left]

def IsAscii (p : Char → Bool) : Prop :=
  ∀ c, p c = true → c.toNat < 128

def byteIs (p : Char → Bool) (bytes : List UInt8) (i : Nat) : Bool :=
  (bytes[i]?.map fun b => p (Char.ofUInt8 b)).getD false

def countFrom (p : Char → Bool) (bytes : List UInt8) (i : Nat) : Nat :=
  ((bytes.drop i).takeWhile fun b => p (Char.ofUInt8 b)).length

theorem utf8EncodeChar_cases (c : Char) :
    (∃ b, String.utf8EncodeChar c = [b] ∧ Char.ofUInt8 b = c) ∨
      128 ≤ c.toNat ∧ ∃ b more, String.utf8EncodeChar c = b :: more ∧
        128 ≤ (Char.ofUInt8 b).toNat := by
  obtain ⟨b, more, hc, hspells⟩ := spells_utf8EncodeChar c
  rcases hspells with ⟨hb, rfl, hv⟩ | ⟨hb, -⟩
  · exact .inl ⟨b, hc, Char.ext (UInt32.toNat_inj.mp hv.symm)⟩
  · refine .inr ⟨?_, b, more, hc, hb⟩
    have := (spells_of_utf8EncodeChar hc).cases
    omega

theorem IsAscii.eq_false (hp : IsAscii p) (h : 128 ≤ c.toNat) : p c = false := by
  cases hc : p c with
  | false => rfl
  | true => exact absurd (hp c hc) (by omega)

theorem byteIs_encode (hp : IsAscii p) (x y : List Char) :
    byteIs p (encode (x ++ y)) (byteSize x) = (y.head?.map p).getD false := by
  rw [byteIs, ← List.head?_drop, drop_encode]
  cases y with
  | nil => rfl
  | cons c y =>
    rw [encode_cons]
    rcases utf8EncodeChar_cases c with ⟨b, hc, hb⟩ | ⟨hlarge, b, more, hc, hb⟩
    · simp [hc, hb]
    · simp [hc, hp.eq_false hlarge, hp.eq_false hb]

theorem takeWhile_encode (hp : IsAscii p) (y : List Char) :
    (encode y).takeWhile (fun b => p (Char.ofUInt8 b)) = encode (y.takeWhile p) := by
  induction y with
  | nil => rfl
  | cons c y ih =>
    rw [encode_cons]
    rcases utf8EncodeChar_cases c with ⟨b, hc, hb⟩ | ⟨hlarge, b, more, hc, hb⟩
    · cases hpc : p c with
      | true => simp [hc, hb, hpc, encode_cons, ih]
      | false => simp [hc, hb, hpc, encode]
    · simp [hc, hp.eq_false hlarge, hp.eq_false hb, encode]

theorem countFrom_encode (hp : IsAscii p) (x y : List Char) :
    countFrom p (encode (x ++ y)) (byteSize x) = byteSize (y.takeWhile p) := by
  rw [countFrom, drop_encode, takeWhile_encode hp, length_encode]

end ScriptShell.Text
