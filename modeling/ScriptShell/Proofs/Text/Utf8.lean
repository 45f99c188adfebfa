import Mathlib.Data.List.Basic
import ScriptShell.Text.Utf8

namespace ScriptShell.Text

/-- The bytes of characters, one behind the other. -/
def encode (cs : List Char) : List UInt8 :=
  cs.flatMap String.utf8EncodeChar

theorem encode_cons (c : Char) (cs : List Char) :
    encode (c :: cs) = String.utf8EncodeChar c ++ encode cs :=
  List.flatMap_cons

def gathered (bits : Nat) (more : List UInt8) : Nat :=
  more.foldl (fun n b => n * 64 + (b.toNat - 0x80)) bits

theorem gathered_nil (bits : Nat) : gathered bits [] = bits := rfl

theorem gathered_cons (bits : Nat) (b : UInt8) (more : List UInt8) :
    gathered bits (b :: more) = gathered (bits * 64 + (b.toNat - 0x80)) more :=
  List.foldl_cons ..

def Continues (lo hi : Nat) : List UInt8 → Prop
  | [] => True
  | b :: more => lo ≤ b.toNat ∧ b.toNat ≤ hi ∧ Continues 0x80 0xBF more

def leadingMark (needed : Nat) : Nat :=
  if needed = 1 then 0xC0 else if needed = 2 then 0xE0 else 0xF0

theorem leadingMark_one : leadingMark 1 = 192 := rfl

theorem leadingMark_two : leadingMark 2 = 224 := rfl

theorem leadingMark_three : leadingMark 3 = 240 := rfl

theorem continuation_eq_truncated_iff {lo hi k bits size : Nat} {bytes : List UInt8} :
    continuation lo hi k bits size bytes = .truncated ↔
      Continues lo hi bytes ∧ bytes.length < k := by
  induction bytes generalizing lo hi k bits size with
  | nil => cases k <;> simp [continuation, Continues]
  | cons b more ih =>
    cases k with
    | zero => simp [continuation]
    | succ k =>
      rw [continuation, Continues, List.length_cons, Nat.add_lt_add_iff_right]
      split
      case isTrue h =>
        rw [Bool.and_eq_true, decide_eq_true_eq, decide_eq_true_eq] at h
        simp [ih, h]
      case isFalse h =>
        rw [Bool.and_eq_true, decide_eq_true_eq, decide_eq_true_eq] at h
        simp only [reduceCtorEq, false_iff]
        exact fun h' => h ⟨h'.1.1, h'.1.2.1⟩

theorem continuation_eq_char_iff {lo hi k bits size n : Nat} {bytes : List UInt8} {c : Char} :
    continuation lo hi k bits size bytes = .char c n ↔
      ∃ more rest, bytes = more ++ rest ∧ more.length = k ∧ Continues lo hi more ∧
        c = Char.ofNat (gathered bits more) ∧ n = size + k := by
  -- On the bytes still to come. Only the first is held to the narrower range.
  induction k generalizing lo hi bits size bytes with
  | zero =>
    rw [continuation, Utf8Piece.char.injEq]
    constructor
    · rintro ⟨rfl, rfl⟩
      exact ⟨[], bytes, rfl, rfl, trivial, rfl, rfl⟩
    · rintro ⟨more, rest, -, hmore, -, rfl, rfl⟩
      rw [List.eq_nil_of_length_eq_zero hmore]
      exact ⟨rfl, rfl⟩
  | succ k ih =>
    cases bytes with
    | nil =>
      simp only [continuation, reduceCtorEq, false_iff]
      rintro ⟨more, rest, hbytes, hmore, -⟩
      rw [(List.append_eq_nil_iff.mp hbytes.symm).1] at hmore
      cases hmore
    | cons b bytes =>
      rw [continuation]
      split
      case isTrue h =>
        rw [Bool.and_eq_true, decide_eq_true_eq, decide_eq_true_eq] at h
        rw [ih]
        constructor
        · rintro ⟨more, rest, rfl, rfl, hmore, rfl, rfl⟩
          refine ⟨b :: more, rest, rfl, rfl, ⟨h.1, h.2, hmore⟩, ?_, by omega⟩
          rw [gathered_cons]
        · rintro ⟨more, rest, hbytes, hlength, hmore, rfl, rfl⟩
          cases more with
          | nil => cases hlength
          | cons b' more =>
            obtain ⟨rfl, rfl⟩ := List.cons.inj hbytes
            refine ⟨more, rest, rfl, Nat.succ.inj hlength, hmore.2.2, ?_, by omega⟩
            rw [gathered_cons]
      case isFalse h =>
        rw [Bool.and_eq_true, decide_eq_true_eq, decide_eq_true_eq] at h
        simp only [reduceCtorEq, false_iff]
        rintro ⟨more, rest, hbytes, hlength, hmore, -⟩
        cases more with
        | nil => cases hlength
        | cons b' more =>
          obtain ⟨rfl, -⟩ := List.cons.inj hbytes
          exact h ⟨hmore.1, hmore.2.1⟩

def Spells (b : UInt8) (more : List UInt8) (v : Nat) : Prop :=
  (b.toNat < 0x80 ∧ more = [] ∧ v = b.toNat) ∨
    0x80 ≤ b.toNat ∧ ∃ lo hi, leadingByte? b.toNat = some (lo, hi, more.length) ∧
      Continues lo hi more ∧ v = gathered (b.toNat - leadingMark more.length) more

/-- The ranges of leading bytes. -/
theorem leadingByte?_eq_some {n lo hi k : Nat} (h : leadingByte? n = some (lo, hi, k)) :
    (k = 1 ∧ 0xC2 ≤ n ∧ n ≤ 0xDF ∧ lo = 0x80 ∧ hi = 0xBF) ∨
    (k = 2 ∧ n = 0xE0 ∧ lo = 0xA0 ∧ hi = 0xBF) ∨
    (k = 2 ∧ n = 0xED ∧ lo = 0x80 ∧ hi = 0x9F) ∨
    (k = 2 ∧ 0xE1 ≤ n ∧ n ≤ 0xEF ∧ n ≠ 0xED ∧ lo = 0x80 ∧ hi = 0xBF) ∨
    (k = 3 ∧ n = 0xF0 ∧ lo = 0x90 ∧ hi = 0xBF) ∨
    (k = 3 ∧ 0xF1 ≤ n ∧ n ≤ 0xF3 ∧ lo = 0x80 ∧ hi = 0xBF) ∨
    (k = 3 ∧ n = 0xF4 ∧ lo = 0x80 ∧ hi = 0x8F) := by
  simp only [leadingByte?, Bool.and_eq_true, decide_eq_true_eq] at h
  split at h
  case isTrue hn => cases h; exact .inl ⟨rfl, hn.1, hn.2, rfl, rfl⟩
  split at h
  case isTrue hn => cases h; exact .inr (.inl ⟨rfl, hn, rfl, rfl⟩)
  split at h
  case isTrue hn => cases h; exact .inr (.inr (.inl ⟨rfl, hn, rfl, rfl⟩))
  split at h
  case isTrue hsurrogate hn =>
    cases h
    exact .inr (.inr (.inr (.inl ⟨rfl, hn.1, hn.2, hsurrogate, rfl, rfl⟩)))
  split at h
  case isTrue hn => cases h; exact .inr (.inr (.inr (.inr (.inl ⟨rfl, hn, rfl, rfl⟩))))
  split at h
  case isTrue hn =>
    cases h
    exact .inr (.inr (.inr (.inr (.inr (.inl ⟨rfl, hn.1, hn.2, rfl, rfl⟩)))))
  split at h
  case isTrue hn => cases h; exact .inr (.inr (.inr (.inr (.inr (.inr ⟨rfl, hn, rfl, rfl⟩)))))
  case isFalse => cases h

theorem toNat_ofNat_of_lt {n : Nat} (h : n < 256) : (UInt8.ofNat n).toNat = n :=
  UInt8.toNat_ofNat_of_lt' h

theorem toNat_continuation (n : Nat) : (UInt8.ofNat (n % 64 + 128)).toNat = n % 64 + 128 :=
  toNat_ofNat_of_lt (by omega)

theorem leadingByte?_two : ∀ q < 32, 2 ≤ q → leadingByte? (q + 192) = some (0x80, 0xBF, 1) := by
  decide

theorem leadingByte?_three : ∀ q < 16, leadingByte? (q + 224) =
    some (if q = 0 then 0xA0 else 0x80, if q = 13 then 0x9F else 0xBF, 2) := by
  decide

theorem leadingByte?_four : ∀ q < 5, leadingByte? (q + 240) =
    some (if q = 0 then 0x90 else 0x80, if q = 4 then 0x8F else 0xBF, 3) := by
  decide

/-- The bytes of a character spell its number. -/
theorem spells_utf8EncodeChar (c : Char) :
    ∃ b more, String.utf8EncodeChar c = b :: more ∧ Spells b more c.toNat := by
  have hvalid : c.toNat < 0xD800 ∨ 0xDFFF < c.toNat ∧ c.toNat < 0x110000 := c.valid
  have hv : c.val.toNat = c.toNat := rfl
  rw [String.utf8EncodeChar, hv]
  generalize c.toNat = v at *
  -- By the length of the encoding. No surrogate is a character, which the ranges of three bytes
  -- rely on.
  split
  case isTrue hone =>
    have hb : (UInt8.ofNat v).toNat = v := toNat_ofNat_of_lt (by omega)
    exact ⟨_, _, rfl, .inl ⟨by omega, rfl, hb.symm⟩⟩
  split
  case isTrue htwo =>
    have hb : (UInt8.ofNat (v / 64 % 32 + 192)).toNat = v / 64 + 192 := by
      rw [toNat_ofNat_of_lt] <;> omega
    have hlead := leadingByte?_two (v / 64) (by omega) (by omega)
    refine ⟨_, _, rfl, .inr ⟨by omega, _, _, hb ▸ hlead, ?_, ?_⟩⟩
    · simp only [Continues, toNat_continuation, and_true]
      omega
    · simp only [gathered_cons, gathered_nil, hb, toNat_continuation, List.length_cons,
        List.length_nil, Nat.zero_add, leadingMark_one]
      omega
  split
  case isTrue hthree =>
    have hb : (UInt8.ofNat (v / 4096 % 16 + 224)).toNat = v / 4096 + 224 := by
      rw [toNat_ofNat_of_lt] <;> omega
    have hlead := leadingByte?_three (v / 4096) (by omega)
    refine ⟨_, _, rfl, .inr ⟨by omega, _, _, hb ▸ hlead, ?_, ?_⟩⟩
    · simp only [Continues, toNat_continuation, and_true]
      split <;> split <;> omega
    · simp only [gathered_cons, gathered_nil, hb, toNat_continuation, List.length_cons,
        List.length_nil, Nat.zero_add, Nat.reduceAdd, leadingMark_two]
      omega
  case isFalse hthree =>
    have hb : (UInt8.ofNat (v / 262144 % 8 + 240)).toNat = v / 262144 + 240 := by
      rw [toNat_ofNat_of_lt] <;> omega
    have hlead := leadingByte?_four (v / 262144) (by omega)
    refine ⟨_, _, rfl, .inr ⟨by omega, _, _, hb ▸ hlead, ?_, ?_⟩⟩
    · simp only [Continues, toNat_continuation, and_true]
      split <;> split <;> omega
    · simp only [gathered_cons, gathered_nil, hb, toNat_continuation, List.length_cons,
        List.length_nil, Nat.zero_add, Nat.reduceAdd, leadingMark_three]
      omega

/-- The bits of a number are those of the bytes that spell it. -/
theorem Spells.cases {b : UInt8} {more : List UInt8} {v : Nat} (h : Spells b more v) :
    (v < 0x80 ∧ b.toNat = v ∧ more = []) ∨
    (0x80 ≤ v ∧ v < 0x800 ∧ b.toNat = v / 64 + 192 ∧
      ∃ x, more = [x] ∧ x.toNat = v % 64 + 128) ∨
    (0x800 ≤ v ∧ v < 0x10000 ∧ (v < 0xD800 ∨ 0xDFFF < v) ∧ b.toNat = v / 4096 + 224 ∧
      ∃ x y, more = [x, y] ∧ x.toNat = v / 64 % 64 + 128 ∧ y.toNat = v % 64 + 128) ∨
    (0x10000 ≤ v ∧ v < 0x110000 ∧ b.toNat = v / 262144 + 240 ∧
      ∃ x y z, more = [x, y, z] ∧ x.toNat = v / 4096 % 64 + 128 ∧
        y.toNat = v / 64 % 64 + 128 ∧ z.toNat = v % 64 + 128) := by
  rcases h with ⟨hb, rfl, rfl⟩ | ⟨-, lo, hi, hlead, hmore, hv⟩
  · exact .inl ⟨hb, rfl, rfl⟩
  have hrange := leadingByte?_eq_some hlead
  generalize hk : more.length = k at *
  have hlength : k = 1 ∨ k = 2 ∨ k = 3 := by omega
  -- What the ranges say is taken out first: they are many cases, and division splits each again.
  rcases hlength with rfl | rfl | rfl
  · obtain ⟨x, rfl⟩ := List.length_eq_one_iff.mp hk
    simp only [Continues, and_true] at hmore
    rw [gathered_cons, gathered_nil, leadingMark_one] at hv
    have hb : 192 ≤ b.toNat ∧ 0x80 ≤ v ∧ v < 0x800 := by omega
    have hx : 0x80 ≤ x.toNat ∧ x.toNat < 0xC0 := by omega
    clear hrange hlead hmore
    exact .inr (.inl ⟨hb.2.1, hb.2.2, by omega, x, rfl, by omega⟩)
  · obtain ⟨x, y, rfl⟩ := List.length_eq_two.mp hk
    simp only [Continues, and_true] at hmore
    rw [gathered_cons, gathered_cons, gathered_nil, leadingMark_two] at hv
    have hb : 224 ≤ b.toNat ∧ 0x800 ≤ v ∧ v < 0x10000 ∧ (v < 0xD800 ∨ 0xDFFF < v) := by omega
    have hx : 0x80 ≤ x.toNat ∧ x.toNat < 0xC0 ∧ 0x80 ≤ y.toNat ∧ y.toNat < 0xC0 := by omega
    obtain ⟨hb, hlo, hhi, hsurrogate⟩ := hb
    clear hrange hlead hmore
    refine .inr (.inr (.inl ⟨hlo, hhi, hsurrogate, ?_⟩))
    clear hsurrogate
    exact ⟨by omega, x, y, rfl, by omega, by omega⟩
  · obtain ⟨x, y, z, rfl⟩ := List.length_eq_three.mp hk
    simp only [Continues, and_true] at hmore
    rw [gathered_cons, gathered_cons, gathered_cons, gathered_nil, leadingMark_three] at hv
    have hb : 240 ≤ b.toNat ∧ 0x10000 ≤ v ∧ v < 0x110000 := by omega
    have hx : 0x80 ≤ x.toNat ∧ x.toNat < 0xC0 ∧ 0x80 ≤ y.toNat ∧ y.toNat < 0xC0 ∧
        0x80 ≤ z.toNat ∧ z.toNat < 0xC0 := by omega
    clear hrange hlead hmore
    exact .inr (.inr (.inr ⟨hb.2.1, hb.2.2, by omega, x, y, z, rfl, by omega, by omega, by omega⟩))

theorem isValidChar_of_spells {b : UInt8} {more : List UInt8} {v : Nat} (h : Spells b more v) :
    v.isValidChar := by
  have := h.cases
  unfold Nat.isValidChar
  omega

theorem toNat_ofNat_of_isValidChar {v : Nat} (h : v.isValidChar) : (Char.ofNat v).toNat = v := by
  rw [Char.ofNat, dif_pos h]
  rfl

theorem utf8EncodeChar_of_spells {b : UInt8} {more : List UInt8} {c : Char}
    (h : Spells b more c.toNat) : String.utf8EncodeChar c = b :: more := by
  have hval : c.val.toNat = c.toNat := rfl
  have byte {n : Nat} {x : UInt8} (h : x.toNat = n) : UInt8.ofNat n = x := by
    rw [← h, UInt8.ofNat_toNat]
  rw [String.utf8EncodeChar, hval]
  rcases h.cases with ⟨hv, hb, rfl⟩ | ⟨hlo, hhi, hb, x, rfl, hx⟩ |
    ⟨hlo, hhi, -, hb, x, y, rfl, hx, hy⟩ | ⟨hlo, hhi, hb, x, y, z, rfl, hx, hy, hz⟩
  · rw [if_pos (by omega), byte hb]
  · rw [if_neg (by omega), if_pos (by omega), Nat.mod_eq_of_lt (by omega), byte hb, byte hx]
  · rw [if_neg (by omega), if_neg (by omega), if_pos (by omega), Nat.mod_eq_of_lt (by omega),
      byte hb, byte hx, byte hy]
  · rw [if_neg (by omega), if_neg (by omega), if_neg (by omega), Nat.mod_eq_of_lt (by omega),
      byte hb, byte hx, byte hy, byte hz]

theorem spells_of_utf8EncodeChar {c : Char} {b : UInt8} {more : List UInt8}
    (h : String.utf8EncodeChar c = b :: more) : Spells b more c.toNat := by
  obtain ⟨b', more', hc, hspells⟩ := spells_utf8EncodeChar c
  obtain ⟨rfl, rfl⟩ := List.cons.inj (h.symm.trans hc)
  exact hspells

/-- A piece is a character exactly if the bytes begin with its bytes. -/
theorem utf8Piece_eq_char_iff {b : UInt8} {bytes : List UInt8} {c : Char} {n : Nat} :
    utf8Piece b bytes = .char c n ↔ ∃ more rest, bytes = more ++ rest ∧
      String.utf8EncodeChar c = b :: more ∧ n = more.length + 1 := by
  constructor
  · intro h
    have hspells : ∃ more rest v, bytes = more ++ rest ∧ Spells b more v ∧ c = Char.ofNat v ∧
        n = more.length + 1 := by
      rw [utf8Piece] at h
      split at h
      case isTrue hb =>
        obtain ⟨rfl, rfl⟩ := Utf8Piece.char.inj h
        exact ⟨[], bytes, _, rfl, .inl ⟨hb, rfl, rfl⟩, rfl, rfl⟩
      case isFalse hb =>
        cases hlead : leadingByte? b.toNat with
        | none => simp [hlead] at h
        | some bounds =>
          obtain ⟨lo, hi, k⟩ := bounds
          simp only [hlead] at h
          obtain ⟨more, rest, rfl, rfl, hmore, rfl, rfl⟩ := continuation_eq_char_iff.mp h
          exact ⟨more, rest, _, rfl, .inr ⟨Nat.le_of_not_lt hb, lo, hi, hlead, hmore, rfl⟩, rfl,
            Nat.add_comm ..⟩
    obtain ⟨more, rest, v, rfl, hv, rfl, rfl⟩ := hspells
    refine ⟨more, rest, rfl, utf8EncodeChar_of_spells ?_, rfl⟩
    rwa [toNat_ofNat_of_isValidChar (isValidChar_of_spells hv)]
  · rintro ⟨more, rest, rfl, hc, rfl⟩
    rw [utf8Piece]
    rcases spells_of_utf8EncodeChar hc with ⟨hb, rfl, hv⟩ | ⟨hb, lo, hi, hlead, hmore, hv⟩
    · rw [if_pos hb, ← hv, Char.ofNat_toNat]
      rfl
    · rw [if_neg (Nat.not_lt.mpr hb), hlead]
      refine continuation_eq_char_iff.mpr ⟨more, rest, rfl, rfl, hmore, ?_, Nat.add_comm ..⟩
      rw [← Char.ofNat_toNat c, hv]
      rfl

theorem utf8Piece_eq_truncated_iff {b : UInt8} {bytes : List UInt8} :
    utf8Piece b bytes = .truncated ↔ ∃ lo hi k, leadingByte? b.toNat = some (lo, hi, k) ∧
      Continues lo hi bytes ∧ bytes.length < k := by
  rw [utf8Piece]
  split
  case isTrue hb =>
    refine iff_of_false (by simp) ?_
    rintro ⟨lo, hi, k, hlead, -, -⟩
    have := leadingByte?_eq_some hlead
    omega
  case isFalse hb =>
    cases leadingByte? b.toNat with
    | none => simp
    | some bounds =>
      obtain ⟨lo, hi, k⟩ := bounds
      simp only [continuation_eq_truncated_iff, Option.some.injEq, Prod.mk.injEq]
      constructor
      · exact fun h => ⟨lo, hi, k, ⟨rfl, rfl, rfl⟩, h⟩
      · rintro ⟨_, _, _, ⟨rfl, rfl, rfl⟩, h⟩
        exact h

theorem endsInsideChar_skip (k : Nat) (bytes : List UInt8) :
    endsInsideChar k bytes = endsInsideChar 0 (bytes.drop k) := by
  induction bytes generalizing k with
  | nil => cases k <;> rfl
  | cons b rest ih =>
    cases k with
    | zero => rfl
    | succ k => exact ih k

theorem readUtf8From_skip (k : Nat) (bytes : List UInt8) :
    readUtf8From k bytes = readUtf8From 0 (bytes.drop k) := by
  induction bytes generalizing k with
  | nil => cases k <;> rfl
  | cons b rest ih =>
    cases k with
    | zero => rfl
    | succ k => exact ih k

theorem endsInsideChar_char (c : Char) (rest : List UInt8) :
    endsInsideChar 0 (String.utf8EncodeChar c ++ rest) = endsInsideChar 0 rest := by
  obtain ⟨b, more, hc, -⟩ := spells_utf8EncodeChar c
  have hpiece := utf8Piece_eq_char_iff.mpr ⟨more, rest, rfl, hc, rfl⟩
  rw [hc, List.cons_append, endsInsideChar, hpiece]
  dsimp only
  rw [Nat.add_sub_cancel, endsInsideChar_skip, List.drop_left]

theorem readUtf8From_char (c : Char) (rest : List UInt8) :
    readUtf8From 0 (String.utf8EncodeChar c ++ rest) = c :: readUtf8From 0 rest := by
  obtain ⟨b, more, hc, -⟩ := spells_utf8EncodeChar c
  have hpiece := utf8Piece_eq_char_iff.mpr ⟨more, rest, rfl, hc, rfl⟩
  rw [hc, List.cons_append, readUtf8From, hpiece]
  dsimp only
  rw [Nat.add_sub_cancel, readUtf8From_skip, List.drop_left]

theorem endsInsideChar_encode (cs : List Char) (rest : List UInt8) :
    endsInsideChar 0 (encode cs ++ rest) = endsInsideChar 0 rest := by
  induction cs with
  | nil => rfl
  | cons c cs ih => rw [encode_cons, List.append_assoc, endsInsideChar_char, ih]

def IsContinuation (b : UInt8) : Prop :=
  0x80 ≤ b.toNat ∧ b.toNat ≤ 0xBF

/-- A byte that goes on no character ends the piece in front of it. -/
theorem continuation_append {lo hi k bits size : Nat} {front back : List UInt8} {b : UInt8}
    (hb : ¬ IsContinuation b) (hlo : 0x80 ≤ lo) (hhi : hi ≤ 0xBF) :
    continuation lo hi k bits size (front ++ b :: back) =
      match continuation lo hi k bits size front with
      | .truncated => .invalid (size + front.length)
      | piece => piece := by
  unfold IsContinuation at hb
  induction front generalizing lo hi k bits size with
  | nil =>
    cases k with
    | zero => rfl
    | succ k =>
      have hout : ¬ (decide (lo ≤ b.toNat) && decide (b.toNat ≤ hi)) = true := by
        simp only [Bool.and_eq_true, decide_eq_true_eq]
        omega
      rw [List.nil_append, continuation, continuation, if_neg hout]
      rfl
  | cons b' front ih =>
    cases k with
    | zero => rfl
    | succ k =>
      rw [List.cons_append, continuation, continuation]
      split
      · rw [ih (by omega) (by omega), List.length_cons, Nat.add_right_comm, Nat.add_assoc]
      · rfl

theorem utf8Piece_append {b b' : UInt8} {front back : List UInt8} (hb : ¬ IsContinuation b') :
    utf8Piece b (front ++ b' :: back) =
      match utf8Piece b front with
      | .truncated => .invalid (front.length + 1)
      | piece => piece := by
  rw [utf8Piece, utf8Piece]
  split
  · rfl
  cases hlead : leadingByte? b.toNat with
  | none => rfl
  | some bounds =>
    obtain ⟨lo, hi, k⟩ := bounds
    have := leadingByte?_eq_some hlead
    dsimp only
    rw [continuation_append hb (by omega) (by omega), Nat.add_comm]

theorem char_size_le_of_utf8Piece {b : UInt8} {bytes : List UInt8} {c : Char} {n : Nat}
    (h : utf8Piece b bytes = .char c n) : n ≤ bytes.length + 1 := by
  obtain ⟨more, rest, rfl, -, rfl⟩ := utf8Piece_eq_char_iff.mp h
  simp

theorem size_le_of_continuation {lo hi k bits size n : Nat} {bytes : List UInt8}
    (h : continuation lo hi k bits size bytes = .invalid n) : n ≤ size + bytes.length := by
  induction bytes generalizing lo hi k bits size with
  | nil => cases k <;> simp [continuation] at h
  | cons b bytes ih =>
    cases k with
    | zero => simp [continuation] at h
    | succ k =>
      rw [continuation] at h
      split at h
      · have := ih h
        rw [List.length_cons]
        omega
      · exact Utf8Piece.invalid.inj h ▸ Nat.le_add_right ..

theorem size_le_of_utf8Piece {b : UInt8} {bytes : List UInt8} {n : Nat}
    (h : utf8Piece b bytes = .invalid n) : n ≤ bytes.length + 1 := by
  rw [utf8Piece] at h
  split at h
  · cases h
  · split at h
    · exact Utf8Piece.invalid.inj h ▸ Nat.le_add_left ..
    · exact Nat.add_comm 1 _ ▸ size_le_of_continuation h

/-- Bytes in front of one that goes on no character are read apart from it. -/
theorem readUtf8From_append {b : UInt8} {back : List UInt8} (hb : ¬ IsContinuation b)
    (front : List UInt8) : readUtf8From 0 (front ++ b :: back) =
      readUtf8From 0 front ++ readUtf8From 0 (b :: back) := by
  induction hn : front.length using Nat.strongRecOn generalizing front with
  | ind n ih =>
    cases front with
    | nil => rfl
    | cons b' front =>
      have later (k : Nat) (hk : k ≤ front.length) : readUtf8From k (front ++ b :: back) =
          readUtf8From k front ++ readUtf8From 0 (b :: back) := by
        rw [readUtf8From_skip, List.drop_append_of_le_length hk,
          ih _ (by rw [← hn, List.length_drop, List.length_cons]; omega) _ rfl, ← readUtf8From_skip]
      rw [List.cons_append, readUtf8From, readUtf8From, utf8Piece_append hb]
      cases hpiece : utf8Piece b' front with
      | char c size =>
        dsimp only
        rw [later _ (Nat.sub_le_of_le_add (char_size_le_of_utf8Piece hpiece)), List.cons_append]
      | invalid size =>
        dsimp only
        rw [later _ (Nat.sub_le_of_le_add (size_le_of_utf8Piece hpiece)), List.cons_append]
      | truncated =>
        dsimp only
        rw [Nat.add_sub_cancel, later _ (Nat.le_refl _), readUtf8From_skip, List.drop_length]
        rfl

/-- Bytes are seen to end inside a character if and only if what is in front of a byte that goes
on no character are whole characters: something wrong that stands earlier is found first. -/
theorem endsInsideChar_append {b : UInt8} {back : List UInt8} (hb : ¬ IsContinuation b)
    (front : List UInt8) : endsInsideChar 0 (front ++ b :: back) = true ↔
      (∃ cs, front = encode cs) ∧ endsInsideChar 0 (b :: back) = true := by
  constructor
  · induction hn : front.length using Nat.strongRecOn generalizing front with
    | ind n ih =>
      cases front with
      | nil => exact fun h => ⟨⟨[], rfl⟩, h⟩
      | cons b' front =>
        rw [List.cons_append, endsInsideChar, utf8Piece_append hb]
        cases hpiece : utf8Piece b' front with
        | char c size =>
          obtain ⟨more, rest, rfl, hc, rfl⟩ := utf8Piece_eq_char_iff.mp hpiece
          intro h
          rw [List.length_cons, List.length_append] at hn
          dsimp only at h
          rw [Nat.add_sub_cancel, endsInsideChar_skip, List.append_assoc, List.drop_left] at h
          obtain ⟨⟨cs, rfl⟩, hends⟩ := ih rest.length (by omega) rest rfl h
          exact ⟨⟨c :: cs, by rw [encode_cons, hc, List.cons_append]⟩, hends⟩
        | invalid size => nofun
        | truncated => nofun
  · rintro ⟨⟨cs, rfl⟩, h⟩
    rwa [endsInsideChar_encode]

theorem not_isContinuation_of_spells {b : UInt8} {more : List UInt8} {v : Nat}
    (h : Spells b more v) : ¬ IsContinuation b := by
  unfold IsContinuation
  have := h.cases
  omega

/-- Bytes that a character begins with and that are not all of it. -/
def IsCut (bytes : List UInt8) : Prop :=
  bytes ≠ [] ∧ ∃ c more, more ≠ [] ∧ String.utf8EncodeChar c = bytes ++ more

theorem Continues.of_append {lo hi : Nat} {front back : List UInt8}
    (h : Continues lo hi (front ++ back)) : Continues lo hi front := by
  induction front generalizing lo hi with
  | nil => trivial
  | cons b front ih => exact ⟨h.1, h.2.1, ih h.2.2⟩

theorem IsCut.cons {bytes : List UInt8} (h : IsCut bytes) : ∃ b front, bytes = b :: front ∧
    ¬ IsContinuation b ∧ utf8Piece b front = .truncated := by
  obtain ⟨hbytes, c, more, hmore, hc⟩ := h
  obtain ⟨b, front, rfl⟩ := List.exists_cons_of_ne_nil hbytes
  have hlength : 0 < more.length := List.length_pos_iff.mpr hmore
  rw [List.cons_append] at hc
  have hspells := spells_of_utf8EncodeChar hc
  have hb := not_isContinuation_of_spells hspells
  rcases hspells with ⟨-, hnil, -⟩ | ⟨-, lo, hi, hlead, hcontinues, -⟩
  · exact absurd (List.append_eq_nil_iff.mp hnil).2 hmore
  · refine ⟨b, front, rfl, hb, utf8Piece_eq_truncated_iff.mpr
      ⟨lo, hi, _, hlead, hcontinues.of_append, ?_⟩⟩
    rw [List.length_append]
    omega

theorem readUtf8From_append_char (front : List UInt8) (c : Char) (rest : List UInt8) :
    readUtf8From 0 (front ++ (String.utf8EncodeChar c ++ rest)) =
      readUtf8From 0 front ++ c :: readUtf8From 0 rest := by
  rw [← readUtf8From_char]
  obtain ⟨b, more, hc, hspells⟩ := spells_utf8EncodeChar c
  rw [hc, List.cons_append, readUtf8From_append (not_isContinuation_of_spells hspells)]

theorem endsInsideChar_cut_iff {cut : List UInt8} (hcut : IsCut cut) (front : List UInt8) :
    endsInsideChar 0 (front ++ cut) = true ↔ ∃ cs, front = encode cs := by
  obtain ⟨b, back, rfl, hb, htruncated⟩ := hcut.cons
  rw [endsInsideChar_append hb, endsInsideChar, htruncated, and_iff_left rfl]

end ScriptShell.Text
