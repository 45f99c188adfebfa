import Mathlib.Algebra.Group.Nat.Defs
import ScriptShell.Memory

namespace ScriptShell

/-- The bytes that can be reached, by their addresses. -/
abbrev Bytes := Nat → Option UInt8

def Bytes.overlay (bytes : Bytes) (address count : Nat) (f : Nat → UInt8) : Bytes := fun i =>
  if address ≤ i ∧ i < address + count then some (f (i - address)) else bytes i

def Bytes.HasRoom (bytes : Bytes) (address count : Nat) : Prop :=
  ∀ i < count, (bytes (address + i)).isSome = true

instance (bytes : Bytes) (address count : Nat) : Decidable (bytes.HasRoom address count) :=
  inferInstanceAs (Decidable (∀ i < count, (bytes (address + i)).isSome = true))

namespace Bytes

variable {bytes : Bytes} {address n : Nat} {f : Nat → UInt8}

theorem overlay_zero : bytes.overlay address 0 f = bytes :=
  funext fun _ => if_neg (by omega)

theorem overlay_succ :
    (bytes.overlay address n f).overlay (address + n) 1 (fun _ => f n) =
      bytes.overlay address (n + 1) f := by
  funext i
  unfold overlay
  by_cases hlast : i = address + n
  · subst hlast
    rw [if_pos (by omega), if_pos (by omega), Nat.add_sub_cancel_left]
  · rw [if_neg (by omega)]
    have hrange : address ≤ i ∧ i < address + n ↔ address ≤ i ∧ i < address + (n + 1) := by omega
    simp only [hrange]

theorem isSome_overlay (h : bytes.HasRoom address n) (i : Nat) :
    (bytes.overlay address n f i).isSome = (bytes i).isSome := by
  unfold overlay
  split
  · next hi =>
    have := h (i - address) (by omega)
    rw [Nat.add_sub_of_le hi.1] at this
    rw [this]
    rfl
  · rfl

theorem overlay_of_lt {i : Nat} (hi : i < n) :
    bytes.overlay address n f (address + i) = some (f i) := by
  rw [overlay, if_pos (by omega), Nat.add_sub_cancel_left]

end Bytes

namespace Region

theorem holds_set (r : Region) (i : Nat) (b : UInt8) (address : Nat) :
    { r with bytes := r.bytes.setIfInBounds i b }.holds address = r.holds address := by
  rw [holds, holds, Array.size_setIfInBounds]

end Region

namespace Memory

def byteIn (regions : List Region) (address : Nat) : Option UInt8 :=
  (regions.find? (·.holds address)).map fun r => r.bytes.getD (address - r.start) 0

/-- The byte at an address, nothing where there is no memory. -/
def byte? (m : Memory) : Bytes :=
  byteIn m.regions

variable {m : Memory} {regions : List Region} {address : Nat} {b : UInt8}

theorem readByte_of_byte? (h : m.byte? address = some b) : m.readByte address = .ok b := by
  unfold byte? byteIn at h
  unfold readByte
  cases hfind : m.regions.find? (·.holds address) with
  | none => rw [hfind] at h; cases h
  | some r =>
    rw [hfind] at h
    exact congrArg Except.ok (Option.some.inj h)

theorem byteIn_cons (r : Region) (address : Nat) :
    byteIn (r :: regions) address =
      if r.holds address then some (r.bytes.getD (address - r.start) 0)
      else byteIn regions address := by
  rw [byteIn, List.find?_cons]
  split <;> simp_all [byteIn]

/-- Writing a byte changes what is read at its address only. -/
theorem byteIn_writeIn (h : (byteIn regions address).isSome = true) (b : UInt8) :
    ∃ regions', writeIn address b regions = some regions' ∧
      ∀ i, byteIn regions' i = if i = address then some b else byteIn regions i := by
  -- The first region that holds an address is the one that is written to, and the one that is read.
  induction regions with
  | nil => cases h
  | cons r rest ih =>
    by_cases hr : r.holds address = true
    · refine ⟨_, by rw [writeIn, if_pos hr], fun i => ?_⟩
      rw [byteIn_cons, byteIn_cons, Region.holds_set]
      have hrange : r.start ≤ address ∧ address < r.start + r.bytes.size := by
        simpa [Region.holds] using hr
      by_cases hi : i = address
      · subst hi
        rw [if_pos hr, if_pos rfl, Array.getD_eq_getD_getElem?,
          Array.getElem?_setIfInBounds_self_of_lt (by omega)]
        rfl
      · rw [if_neg hi]
        by_cases hri : r.holds i = true
        · have hrange' : r.start ≤ i ∧ i < r.start + r.bytes.size := by
            simpa [Region.holds] using hri
          have hplace : address - r.start ≠ i - r.start := by omega
          rw [if_pos hri, if_pos hri, Array.getD_eq_getD_getElem?,
            Array.getElem?_setIfInBounds_ne hplace, ← Array.getD_eq_getD_getElem?]
        · rw [if_neg hri, if_neg hri]
    · rw [byteIn_cons, if_neg hr] at h
      obtain ⟨rest', hwrite, hread⟩ := ih h
      refine ⟨r :: rest', by rw [writeIn, if_neg hr, hwrite]; rfl, fun i => ?_⟩
      rw [byteIn_cons, byteIn_cons, hread]
      by_cases hi : i = address
      · subst hi
        rw [if_neg hr, if_pos rfl, if_pos rfl]
      · rw [if_neg hi, if_neg hi]

theorem writeByte_of_byte? (h : (m.byte? address).isSome = true) (b : UInt8) :
    ∃ m', m.writeByte address b = .ok m' ∧
      m'.byte? = m.byte?.overlay address 1 fun _ => b := by
  obtain ⟨regions', hwrite, hread⟩ := byteIn_writeIn h b
  refine ⟨⟨regions'⟩, by rw [writeByte, hwrite], funext fun i => ?_⟩
  refine (hread i).trans ?_
  have hone : address ≤ i ∧ i < address + 1 ↔ i = address := by omega
  simp only [Bytes.overlay, hone]
  rfl

theorem writeByte_next {bytes : Bytes} {n : Nat} {f : Nat → UInt8}
    (hm : m.byte? = bytes.overlay address n f) (hroom : (bytes (address + n)).isSome = true) :
    ∃ m', m.writeByte (address + n) (f n) = .ok m' ∧
      m'.byte? = bytes.overlay address (n + 1) f := by
  have hbyte : (m.byte? (address + n)).isSome = true := by
    rw [hm, Bytes.overlay, if_neg (by omega)]
    exact hroom
  obtain ⟨m', hwrite, hbytes⟩ := writeByte_of_byte? hbyte (f n)
  exact ⟨m', hwrite, by rw [hbytes, hm, Bytes.overlay_succ]⟩

def byteOf (w : UInt32) (i : Nat) : UInt8 :=
  UInt8.ofNat (w.toNat / 256 ^ i)

theorem toUInt8_shiftRight (w shift : UInt32) (i : Nat) (hshift : shift.toNat % 32 = 8 * i) :
    (w >>> shift).toUInt8 = byteOf w i := by
  refine UInt8.toNat_inj.mp ?_
  have hpow : 2 ^ (8 * i) = 256 ^ i := Nat.pow_mul 2 8 i
  rw [UInt32.toNat_toUInt8, UInt32.toNat_shiftRight, hshift, Nat.shiftRight_eq_div_pow, hpow]
  rfl

/-- Writing a word changes its four bytes. -/
theorem writeWord_of_byte? (h : m.byte?.HasRoom address 4) (word : Int32) :
    ∃ m', m.writeWord address word = .ok m' ∧
      m'.byte? = m.byte?.overlay address 4 (byteOf word.toUInt32) := by
  obtain ⟨m₁, hm₁, hb₁⟩ := writeByte_next Bytes.overlay_zero.symm (h 0 (by decide))
  obtain ⟨m₂, hm₂, hb₂⟩ := writeByte_next hb₁ (h 1 (by decide))
  obtain ⟨m₃, hm₃, hb₃⟩ := writeByte_next hb₂ (h 2 (by decide))
  obtain ⟨m₄, hm₄, hb₄⟩ := writeByte_next hb₃ (h 3 (by decide))
  refine ⟨m₄, ?_, hb₄⟩
  have hlow : word.toUInt32.toUInt8 = byteOf word.toUInt32 0 := by
    rw [← toUInt8_shiftRight _ 0 0 rfl, UInt32.shiftRight_zero]
  simp only [writeWord, bind, Except.bind, hlow, toUInt8_shiftRight _ 8 1 rfl,
    toUInt8_shiftRight _ 16 2 rfl, toUInt8_shiftRight _ 24 3 rfl]
  rw [Nat.add_zero] at hm₁
  rw [hm₁]
  dsimp only
  rw [hm₂]
  dsimp only
  rw [hm₃]
  exact hm₄

def ofBytes (f : Nat → UInt8) : Nat :=
  (f 0).toNat + (f 1).toNat * 256 + (f 2).toNat * 256 ^ 2 + (f 3).toNat * 256 ^ 3

theorem toNat_shifted (b : UInt8) (shift : UInt32) {k : Nat} (hshift : shift.toNat % 32 = k)
    (hk : k ≤ 24) : (b.toUInt32 <<< shift).toNat = 2 ^ k * b.toNat := by
  have hlt : b.toNat < 2 ^ 8 := b.toNat_lt
  have hpow : 2 ^ k ≤ 2 ^ 24 := Nat.pow_le_pow_right (by decide) hk
  have hsmall : 2 ^ k * b.toNat < 2 ^ 32 :=
    calc 2 ^ k * b.toNat ≤ 2 ^ 24 * b.toNat := Nat.mul_le_mul_right _ hpow
      _ < 2 ^ 24 * 2 ^ 8 := Nat.mul_lt_mul_of_pos_left hlt (by decide)
  rw [UInt32.toNat_shiftLeft, UInt8.toNat_toUInt32, hshift, Nat.shiftLeft_eq, Nat.mul_comm,
    Nat.mod_eq_of_lt hsmall]

/-- Reading a word reads its four bytes. -/
theorem readWord_of_byte? {f : Nat → UInt8} (h : ∀ i < 4, m.byte? (address + i) = some (f i)) :
    ∃ word, m.readWord address = .ok word ∧ word.toInt = Int.bmod (ofBytes f) (2 ^ 32) := by
  have hread (i : Nat) (hi : i < 4) := readByte_of_byte? (h i hi)
  have hlt (i : Nat) : (f i).toNat < 2 ^ 8 := (f i).toNat_lt
  have hlow : ((f 0).toUInt32 ||| (f 1).toUInt32 <<< 8).toNat =
      2 ^ 8 * (f 1).toNat + (f 0).toNat := by
    rw [UInt32.toNat_or, toNat_shifted _ 8 (k := 8) rfl (by decide), UInt8.toNat_toUInt32,
      Nat.or_comm, Nat.two_pow_add_eq_or_of_lt (hlt 0)]
  have hhigh : ((f 2).toUInt32 <<< 16 ||| (f 3).toUInt32 <<< 24).toNat =
      2 ^ 16 * (2 ^ 8 * (f 3).toNat + (f 2).toNat) := by
    have hbelow : 2 ^ 16 * (f 2).toNat < 2 ^ 24 := Nat.mul_lt_mul_of_pos_left (hlt 2) (by decide)
    rw [UInt32.toNat_or, toNat_shifted _ 16 (k := 16) rfl (by decide),
      toNat_shifted _ 24 (k := 24) rfl (by decide), Nat.or_comm,
      ← Nat.two_pow_add_eq_or_of_lt hbelow]
    omega
  have hall : (((f 0).toUInt32 ||| (f 1).toUInt32 <<< 8) |||
      ((f 2).toUInt32 <<< 16 ||| (f 3).toUInt32 <<< 24)).toNat = ofBytes f := by
    have hbelow : 2 ^ 8 * (f 1).toNat + (f 0).toNat < 2 ^ 16 := by
      have := hlt 0
      have := hlt 1
      omega
    rw [UInt32.toNat_or, hlow, hhigh, Nat.or_comm, ← Nat.two_pow_add_eq_or_of_lt hbelow, ofBytes]
    omega
  refine ⟨(((f 0).toUInt32 ||| (f 1).toUInt32 <<< 8) |||
    ((f 2).toUInt32 <<< 16 ||| (f 3).toUInt32 <<< 24)).toInt32, ?_, ?_⟩
  · have h₀ := hread 0 (by decide)
    rw [Nat.add_zero] at h₀
    simp only [readWord, bind, Except.bind, h₀, hread 1 (by decide), hread 2 (by decide),
      hread 3 (by decide)]
    rfl
  · rw [← hall]
    exact BitVec.toInt_eq_toNat_bmod _

end Memory

end ScriptShell
